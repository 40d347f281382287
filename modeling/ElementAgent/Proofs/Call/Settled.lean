import ElementAgent.Proofs.Call.Conservation

/-!
# Calls of a peer that keeps the rules

Main statement: a table whose replies each answer an outstanding call, are of its
kind and keep the rules, notes exactly these replies as completions, in their
order, and counts no violation (`Settled.receive`).
-/

namespace ElementAgent

/-- The completion that a reply of the right kind is noted as. -/
def Reply.completion (r : Reply) : Nat × Completion :=
  (r.id.toNat, r.verdict r.exchange)

namespace CallTable

/-- The table of an open connection on which requests were made and replies came
that settled their calls. -/
structure Settled (t : CallTable) (made : List Request)
    (got : List Reply) : Prop where
  accounted : t.Accounted
  issued : t.issued = made.length
  open_ : t.closed = false
  exchanges : ∀ e ∈ t.pending, (made[e.2.number]?).map Request.exchange =
    some e.2.exchange
  completed : t.completed = (got.map Reply.completion).reverse
  violations : t.violations = 0

namespace Settled

variable {t : CallTable} {made : List Request} {got : List Reply}

theorem start : CallTable.empty.Settled [] [] :=
  ⟨.start, rfl, rfl, by simp [CallTable.empty], rfl, rfl⟩

/-- A call is made. -/
theorem issue (h : t.Settled made got) (few : made.length < maxCalls)
    (r : Request) :
    (t.issue r.exchange).Settled (made ++ [r]) got := by
  have room : t.issued < maxCalls := h.issued ▸ few
  have accounted := h.accounted.issue room r.exchange
  rw [issue_of_open h.open_ (h.accounted.nextId_absent room)] at accounted ⊢
  refine ⟨accounted, ?_, h.open_, ?_, h.completed, h.violations⟩
  · rw [List.length_append, ← h.issued]
    rfl
  · intro e listed
    rcases List.mem_append.mp listed with old | new
    · have made : e.2.number < made.length := h.issued ▸ h.accounted.pending_lt old
      rw [List.getElem?_append_left made]
      exact h.exchanges e old
    · rw [List.mem_singleton.mp new, h.issued]
      simp

/-- A call that no reply came for is in the table. -/
theorem outstanding (h : t.Settled made got) {n : Nat} (known : n < made.length)
    (none : ∀ r ∈ got, r.id.toNat ≠ n) :
    ∃ c, (UInt64.ofNat n, c) ∈ t.pending ∧ c.number = n := by
  have listed :=
    h.accounted.numbers.mem_iff.mpr (List.mem_range.mpr (h.issued ▸ known))
  rcases List.mem_append.mp listed with waits | done
  · obtain ⟨⟨id, c⟩, held, number⟩ := List.mem_map.mp waits
    have named : id = UInt64.ofNat c.number := h.accounted.ids _ held
    refine ⟨c, ?_, number⟩
    rw [← number, ← named]
    exact held
  · obtain ⟨d, noted, number⟩ := List.mem_map.mp done
    rw [h.completed, List.mem_reverse] at noted
    obtain ⟨r, came, rfl⟩ := List.mem_map.mp noted
    exact absurd number (none r came)

/-- A reply settles its call. -/
theorem receive (h : t.Settled made got) (few : made.length ≤ maxCalls) {r : Reply}
    {q : Request} (asked : made[r.id.toNat]? = some q)
    (first : ∀ g ∈ got, g.id ≠ r.id) (kind : r.exchange = q.exchange)
    (keeps : r.isRejected = false) :
    (t.receive r).Settled made (got ++ [r]) := by
  have known : r.id.toNat < made.length := (List.getElem?_eq_some_iff.mp asked).1
  have waits : ∀ g ∈ got, g.id.toNat ≠ r.id.toNat := by
    intro g came same
    exact first g came (UInt64.toNat_inj.mp same)
  obtain ⟨c, held, number⟩ := h.outstanding known waits
  rw [UInt64.ofNat_toNat] at held
  have accounted := h.accounted.receive (h.issued ▸ few) r
  cases found : t.remove r.id with
  | none => exact absurd rfl (remove_eq_none.mp found _ held)
  | some out =>
      obtain ⟨c', t'⟩ := out
      have held' := (remove_eq_some found).1
      have one : c' = c := by
        -- ids are unique in the table
        have same := List.inj_on_of_nodup_map
          (h.accounted.ids_nodup (h.issued ▸ few)) held' held rfl
        exact congrArg Prod.snd same
      have exchange : c.exchange = r.exchange := by
        have listed := h.exchanges _ held
        rw [number, asked] at listed
        rw [kind]
        exact (Option.some.inj listed).symm
      have rules : r.breaksRules r.exchange = false := by
        simp [Reply.breaksRules, keeps]
      rw [receive_of_remove found, one, exchange, rules, number] at accounted ⊢
      refine ⟨accounted, h.issued, h.open_, ?_, ?_, ?_⟩
      · exact fun e kept => h.exchanges e (List.mem_of_mem_filter kept)
      · simp [h.completed, Reply.completion]
      · simp [h.violations]

/-- When ids are used up, the next call displaces the first one, if no
reply came for it. -/
theorem displaces (h : t.Settled made got) (full : made.length = maxCalls)
    {r : Request} (first : made[0]? = some r)
    (none : ∀ g ∈ got, g.id ≠ 0) (x : Exchange) :
    (0, .failed r.exchange Disconnect.callDropped.error) ∈
      (t.issue x).completed := by
  have issued : t.issued = maxCalls := h.issued.trans full
  obtain ⟨c, held, number⟩ :=
    h.outstanding (n := 0) (by rw [full]; decide) fun g came same =>
    none g came (UInt64.toNat_inj.mp same)
  have again : t.nextId = UInt64.ofNat 0 := by
    rw [nextId, issued]
    rfl
  rw [CallTable.issue, if_neg (by simp [h.open_]), again]
  cases found : CallTable.remove { t with issued := t.issued + 1 }
    (UInt64.ofNat 0) with
  | none => exact absurd rfl (remove_eq_none.mp found _ held)
  | some out =>
      obtain ⟨d, t'⟩ := out
      have listed : (UInt64.ofNat 0, d) ∈ t.pending := (remove_eq_some found).1
      have same : d = c := congrArg Prod.snd
        (List.inj_on_of_nodup_map (h.accounted.ids_nodup issued.le) listed held rfl)
      have exchange : r.exchange = d.exchange := by
        have kind := h.exchanges _ listed
        rw [same, number, first] at kind
        exact same ▸ Option.some.inj kind
      rw [insert_of_remove found, exchange, ← number, same]
      exact List.mem_cons_self

/-- Once every call has its reply nothing is outstanding. -/
theorem inFlight (h : t.Settled made got) (all : got.length = made.length) :
    t.inFlight = 0 := by
  have count := h.accounted.numbers.length_eq
  rw [List.length_append, List.length_map, List.length_map, List.length_range,
    h.issued, h.completed, List.length_reverse, List.length_map, all] at count
  show t.pending.length = 0
  omega

end Settled

end CallTable

end ElementAgent
