import Mathlib.Data.List.Nodup

/-!
# Lists with unique keys

Lists whose elements carry pairwise different keys: a table of calls under their
ids, lookups under their numbers, nodes under their names. Main statements: taking
the element of a key out of such a list takes out that one element
(`perm_cons_filter_ne`), and looking up a key finds the one pair that has it
(`lookup_eq_some_iff`).
-/

namespace ElementAgent.Keyed

variable {α κ : Type} [DecidableEq κ] {key : α → κ} {l : List α} {a : α}

/-- Where the key does not occur nothing is taken out. -/
theorem filter_ne_eq_self {k : κ} (absent : ∀ b ∈ l, key b ≠ k) :
    l.filter (fun b => key b ≠ k) = l := by
  simpa [List.filter_eq_self] using absent

/-- Taking out a key takes out its one element. -/
theorem perm_cons_filter_ne (nodup : (l.map key).Nodup) (ha : a ∈ l) :
    l.Perm (a :: l.filter fun b => key b ≠ key a) := by
  induction l with
  | nil => cases ha
  | cons c l ih =>
      obtain ⟨fresh, nodup⟩ := List.nodup_cons.mp nodup
      have others : ∀ b ∈ l, key b ≠ key c := by
        intro b hb same
        exact fresh (same ▸ List.mem_map_of_mem hb)
      rcases List.mem_cons.mp ha with rfl | ha
      · rw [List.filter_cons_of_neg (by simp), filter_ne_eq_self others]
      · have different : key c ≠ key a := (others a ha).symm
        rw [List.filter_cons_of_pos (by simpa using different)]
        exact ((ih nodup ha).cons c).trans (.swap a c _)

/-- The elements of a key that occurs are its one element. -/
theorem filter_eq_singleton (nodup : (l.map key).Nodup) (ha : a ∈ l) :
    l.filter (fun b => key b = key a) = [a] := by
  have split := (perm_cons_filter_ne nodup ha).filter fun b => key b = key a
  have none_left : (l.filter fun b => key b ≠ key a).filter
      (fun b => key b = key a) = [] := by
    simp +contextual
  rw [List.filter_cons_of_pos (by simp), none_left] at split
  exact List.perm_singleton.mp split

/-! ## Looking up -/

section Lookup

variable {β : Type} {entries : List (κ × β)} {k : κ} {v : β}

/-- What a look-up finds is listed, also where keys repeat. -/
theorem mem_of_lookup_eq_some (found : entries.lookup k = some v) :
    (k, v) ∈ entries := by
  obtain ⟨before, after, rfl, -⟩ := List.lookup_eq_some_iff.mp found
  exact List.mem_append_right _ List.mem_cons_self

/-- A look-up finds the one pair of its key. -/
theorem lookup_eq_some_iff (nodup : (entries.map Prod.fst).Nodup) :
    entries.lookup k = some v ↔ (k, v) ∈ entries := by
  induction entries with
  | nil => simp
  | cons entry entries ih =>
      obtain ⟨k', v'⟩ := entry
      obtain ⟨absent, nodup⟩ := List.nodup_cons.mp nodup
      by_cases same : k = k'
      · subst same
        have other : ∀ u, (k, u) ∉ entries :=
          fun u h => absent (List.mem_map.mpr ⟨(k, u), h, rfl⟩)
        simp [other, eq_comm]
      · have missed : (k == k') = false := by simpa using same
        simp [List.lookup_cons, missed, ih nodup, same]

omit [DecidableEq κ] in
/-- Taking out pairs leaves the keys unique. -/
theorem nodup_filter (keeps : κ × β → Bool) (nodup : (entries.map Prod.fst).Nodup) :
    ((entries.filter keeps).map Prod.fst).Nodup :=
  nodup.sublist (List.filter_sublist.map Prod.fst)

/-- After pairs have been taken out a look-up finds what it found,
if that is kept. -/
theorem lookup_filter_eq_some_iff (Keeps : κ × β → Prop) [DecidablePred Keeps]
    (nodup : (entries.map Prod.fst).Nodup) :
    (entries.filter Keeps).lookup k = some v ↔
    entries.lookup k = some v ∧ Keeps (k, v) := by
  rw [lookup_eq_some_iff (nodup_filter _ nodup), lookup_eq_some_iff nodup,
    List.mem_filter, decide_eq_true_iff]

end Lookup

end ElementAgent.Keyed
