import ElementAgent.Proofs.MessagePack.Values
import Mathlib.Data.Finset.Dedup
import Mathlib.Data.Finset.Insert
import Mathlib.Data.Finset.Lattice.Lemmas

/-!
# The entries of records

A record that is spelled as a map may have its entries in any order, entries with
keys that name none of its fields, and none for a field that is nil (`IsMapOf`).
Main statements:

* **any order**: such a map is read as the record (`Fills.reads_map`);
* **twice**: a map in which two keys name the same field, each by name or by
  index, is not read at all (`NamesTwice.not_read`).
-/

namespace ElementAgent.MessagePack

open Text (Utf8.encode)

variable {σ α : Type} {fields : List (Field Reader σ)} {f g : Field Reader σ}
  {levels depth n : Nat} {key value bytes rest : List UInt8} {d e : σ}

theorem forall_of_two {p : α → Prop} {a b : α} (ha : p a) (hb : p b) :
    ∀ x ∈ [a, b], p x := by
  simp [ha, hb]

theorem forall_of_three {p : α → Prop} {a b c : α} (ha : p a) (hb : p b)
    (hc : p c) :
    ∀ x ∈ [a, b, c], p x := by
  simp [ha, hb, hc]

/-! ## Keys -/

/-- The key names a field: by its name, as a text or as bytes, or by its index. -/
inductive Names (fields : List (Field Reader σ)) (key : List UInt8)
    (f : Field Reader σ) : Prop
  | str (spelled : Spells (.str (Utf8.encode f.name)) key) (listed : f ∈ fields)
  | bin (spelled : Spells (.bin (Utf8.encode f.name)) key) (listed : f ∈ fields)
  | index {i : Nat} (spelled : Spells (.unsigned i) key)
      (listed : fields[i]? = some f)

/-- The key names no field: it is a text or are bytes that name none, or a number
behind all indices. -/
inductive IsForeign (fields : List (Field Reader σ)) (key : List UInt8) : Prop
  | str {name : List UInt8} (spelled : Spells (.str name) key)
      (other : ∀ f ∈ fields, Utf8.encode f.name ≠ name)
  | bin {name : List UInt8} (spelled : Spells (.bin name) key)
      (other : ∀ f ∈ fields, Utf8.encode f.name ≠ name)
  | index {i : Nat} (spelled : Spells (.unsigned i) key)
      (beyond : fields.length ≤ i)

/-- A text as it is written is one of its spellings. -/
theorem spells_writeText {t : String}
    (small : (Utf8.encode t).length < byteRange 4) :
    Spells (.str (Utf8.encode t)) (writeText t) := by
  show Spells _ (textHeader (Utf8.encode t).length ++ Utf8.encode t)
  unfold textHeader
  split_ifs with one two three
  · exact .fixStr one
  · exact .str (k := 0) (by decide) two
  · exact .str (k := 1) (by decide) three
  · exact .str (k := 2) (by decide) small

theorem find?_eq_none {name : List UInt8}
    (other : ∀ f ∈ fields, Utf8.encode f.name ≠ name) :
    fields.find? (fun f => Utf8.encode f.name == name) = none :=
  List.find?_eq_none.mpr fun f listed => by simpa using other f listed

/-- Names that differ find their own fields. -/
theorem find?_name (distinct : (fields.map fun f => Utf8.encode f.name).Nodup)
    (listed : f ∈ fields) :
    fields.find? (fun g => Utf8.encode g.name == Utf8.encode f.name) = some f := by
  induction fields with
  | nil => cases listed
  | cons g fields ih =>
      obtain ⟨new, distinct⟩ := List.nodup_cons.mp distinct
      rcases List.mem_cons.mp listed with rfl | later
      · exact List.find?_cons_of_pos (by simp)
      · have other : Utf8.encode g.name ≠ Utf8.encode f.name :=
          fun same => new (List.mem_map.mpr ⟨f, later, same.symm⟩)
        rw [List.find?_cons_of_neg (by simpa using other)]
        exact ih distinct later

theorem IsForeign.reads (h : IsForeign fields key) :
    Reads (Record.readKey fields) key none := by
  cases h with
  | str spelled other | bin spelled other =>
      refine spelled.reads.bind_pure ?_
      simp only [Record.fieldOf, find?_eq_none other]
      exact .pure _
  | index spelled beyond =>
      refine spelled.reads.bind_pure ?_
      simp only [Record.fieldOf, List.getElem?_eq_none beyond]
      exact .pure _

theorem Names.reads (distinct : (fields.map fun f => Utf8.encode f.name).Nodup)
    (h : Names fields key f) :
    Reads (Record.readKey fields) key (some f) := by
  cases h with
  | str spelled listed | bin spelled listed =>
      refine spelled.reads.bind_pure ?_
      simp only [Record.fieldOf, find?_name distinct listed]
      exact .pure _
  | index spelled listed =>
      refine spelled.reads.bind_pure ?_
      simp only [Record.fieldOf, listed]
      exact .pure _

/-! ## Any order -/

/-- How an entry of a record is written: its name as a text, and its value. -/
def textPair (entry : String × List UInt8) : List UInt8 × List UInt8 :=
  (writeText entry.1, entry.2)

/-- A map with the entries `wanted`, in any order. Of the entries that are
nil some may be missing, and there may be others, with keys that name no
field and any values. -/
inductive IsMapOf (fields : List (Field Reader σ)) (depth : Nat)
    (wanted : List (String × List UInt8)) :
    List UInt8 → Prop
  | intro (kept dropped : List (String × List UInt8))
      (extra given : List (List UInt8 × List UInt8))
      (parts : wanted.Perm (kept ++ dropped))
      (absent : ∀ entry ∈ dropped, entry.2 = writeNil)
      (foreign : ∀ p ∈ extra, IsForeign fields p.1)
      (values : ∀ p ∈ extra, IsValue depth p.2)
      (order : given.Perm (kept.map textPair ++ extra))
      (small : given.length < byteRange 4) :
      IsMapOf fields depth wanted
        (mapHeader given.length ++ given.flatMap pairBytes)

/-- A map as it is written is one of them. -/
theorem isMapOf_writeMap (fields : List (Field Reader σ)) (depth : Nat)
    {wanted : List (String × List UInt8)}
    (small : wanted.length < byteRange 4) :
    IsMapOf fields depth wanted (writeMap wanted) := by
  have written : writeMap wanted =
      mapHeader (wanted.map textPair).length ++
        (wanted.map textPair).flatMap pairBytes := by
    rw [writeMap, List.length_map, List.flatMap_map]
    rfl
  rw [written]
  refine .intro wanted [] [] _ ?_ ?_ ?_ ?_ ?_ (by rwa [List.length_map])
  · rw [List.append_nil]
  · rintro _ ⟨⟩
  · rintro _ ⟨⟩
  · rintro _ ⟨⟩
  · rw [List.append_nil]

/-- An entry is read into a draft `d` that does not have it, and makes
it the draft `e`. -/
inductive Adds (r : Record Reader σ α) (levels : Nat) (entry : String × List UInt8)
    (d e : σ) : Prop
  | intro {f : Field Reader σ} {store : σ → σ}
      (short : (Utf8.encode entry.1).length < byteRange 4)
      (found : r.fields.find? (fun f => Utf8.encode f.name == Utf8.encode entry.1) =
        some f)
      (first : f.isSet d = false) (read : Reads (f.shape.read levels) entry.2 store)
      (stored : store d = e)

/-- What has to be known of the entries of a record that is to be read from a map.
`draft` is the draft that holds the entries with given names. -/
structure Fills (r : Record Reader σ α) (levels : Nat)
    (wanted : List (String × List UInt8)) (draft : Finset String → σ)
    (a : α) : Prop where
  distinct : (wanted.map Prod.fst).Nodup
  blank : draft ∅ = r.blank
  adds : ∀ entry ∈ wanted, ∀ seen, entry.1 ∉ seen →
    Adds r levels entry (draft seen) (draft (insert entry.1 seen))
  /-- Whatever is missing is nil. -/
  done : ∀ seen, (∀ entry ∈ wanted, entry.1 ∉ seen → entry.2 = writeNil) →
    r.finish (draft seen) = .ok a

namespace Fills

variable {r : Record Reader σ α} {wanted kept : List (String × List UInt8)}
  {draft : Finset String → σ} {a : α}
  {extra given : List (List UInt8 × List UInt8)} {seen : Finset String}

/-- Whatever their order, the entries are read into the draft that
holds them all. -/
theorem reads_entries (fills : Fills r levels wanted draft a)
    (foreign : ∀ p ∈ extra, IsForeign r.fields p.1)
    (values : ∀ p ∈ extra, IsValue levels p.2)
    (order : given.Perm (kept.map textPair ++ extra))
    (known : ∀ entry ∈ kept, entry ∈ wanted)
    (distinct : (kept.map Prod.fst).Nodup) (new : ∀ entry ∈ kept, entry.1 ∉ seen) :
    Reads (Record.readEntries r.fields levels given.length (draft seen))
      (given.flatMap pairBytes)
      (draft (seen ∪ (kept.map Prod.fst).toFinset)) := by
  induction given generalizing kept extra seen with
  | nil =>
      have none : kept = [] := by
        have empty := (List.append_eq_nil_iff.mp order.nil_eq.symm).1
        exact List.map_eq_nil_iff.mp empty
      subst none
      simp only [List.map_nil, List.toFinset_nil, Finset.union_empty]
      exact .pure (draft seen)
  | cons p given ih =>
      rw [List.flatMap_cons, List.length_cons]
      rcases List.mem_append.mp (order.mem_iff.mp List.mem_cons_self)
        with own | other
      · -- an entry of the record fills its place, and will not come again
        obtain ⟨⟨name, value⟩, listed, rfl⟩ := List.mem_map.mp own
        obtain ⟨short, found, first, read, stored⟩ :=
          fills.adds _ (known _ listed) seen (new _ listed)
        refine reads_entry name short found first read ?_
        obtain ⟨front, back, rfl⟩ := List.append_of_mem listed
        have middle : (front ++ (name, value) :: back).Perm
            ((name, value) :: (front ++ back)) :=
          List.perm_middle
        obtain ⟨only, distinct⟩ :=
          List.nodup_cons.mp ((middle.map Prod.fst).nodup distinct)
        have order : given.Perm ((front ++ back).map textPair ++ extra) :=
          (order.trans ((middle.map textPair).append_right extra)).cons_inv
        have all : insert name seen ∪ ((front ++ back).map Prod.fst).toFinset =
            seen ∪ ((front ++ (name, value) :: back).map Prod.fst).toFinset := by
          rw [List.toFinset_eq_of_perm _ _ (middle.map Prod.fst), List.map_cons,
            List.toFinset_cons, Finset.insert_union, Finset.union_insert]
        rw [stored, ← all]
        refine ih foreign values order (fun entry there => known entry ?_) distinct
          fun entry there seen' => ?_
        · exact middle.mem_iff.mpr (List.mem_cons_of_mem _ there)
        · rcases Finset.mem_insert.mp seen' with same | before
          · exact only (List.mem_map.mpr ⟨entry, there, same⟩)
          · exact new entry
              (middle.mem_iff.mpr (List.mem_cons_of_mem _ there)) before
      · -- an entry that no field knows leaves the draft as it is
        obtain ⟨front, back, rfl⟩ := List.append_of_mem other
        have middle : (front ++ p :: back).Perm (p :: (front ++ back)) :=
          List.perm_middle
        have order : given.Perm (kept.map textPair ++ (front ++ back)) :=
          (order.trans ((middle.append_left _).trans List.perm_middle)).cons_inv
        have skipped := (values p other).reads_skip (Nat.le_refl levels)
        have others := ih
          (fun q there =>
            foreign q (middle.mem_iff.mpr (List.mem_cons_of_mem _ there)))
          (fun q there =>
            values q (middle.mem_iff.mpr (List.mem_cons_of_mem _ there)))
          order known distinct new
        rw [pairBytes, List.append_assoc]
        exact (foreign p other).reads.bind (skipped.bind others)

/-- A map that holds the entries of a record, in any order, is
read as the record. -/
theorem reads_map (fills : Fills r levels wanted draft a)
    (map : IsMapOf r.fields levels wanted bytes) :
    Reads (r.shape.read (levels + 1)) bytes a := by
  cases map with
  | intro kept dropped extra given parts absent foreign values order small =>
      have known : ∀ entry ∈ kept, entry ∈ wanted :=
        fun entry there => parts.mem_iff.mpr (List.mem_append_left _ there)
      have distinct : (kept.map Prod.fst).Nodup := by
        have all := (parts.map Prod.fst).nodup fills.distinct
        rw [List.map_append] at all
        exact (List.nodup_append.mp all).1
      have entries := fills.reads_entries foreign values order known distinct
        fun entry _ => Finset.notMem_empty entry.1
      rw [fills.blank, Finset.empty_union] at entries
      refine reads_record given.length small entries
        (fills.done _ fun entry asked missing => ?_)
      rcases List.mem_append.mp (parts.mem_iff.mp asked) with there | dropped
      · exact absurd (List.mem_toFinset.mpr (List.mem_map_of_mem there)) missing
      · exact absent _ dropped

end Fills

/-! ## Twice -/

/-- The bytes are one value, however deep. -/
def IsSomeValue (bytes : List UInt8) : Prop := ∃ depth, IsValue depth bytes

/-- A value ends where a reader that succeeds has taken it. -/
theorem IsSomeValue.rest_eq {p : Reader α} {a : α} {after : List UInt8}
    (h : IsSomeValue bytes) (takes : TakesValue levels p)
    (read : p (bytes ++ rest) = .ok (a, after)) :
    after = rest := by
  obtain ⟨depth, value⟩ := h
  exact value.rest_eq (takes _ _ _ read)

/-- Once it is read, a field is set, and others stay set. -/
def Marks (fields : List (Field Reader σ)) (f : Field Reader σ) : Prop :=
  ∀ ⦃levels bytes store rest⦄, f.shape.read levels bytes = .ok (store, rest) →
    ∀ d, f.isSet (store d) = true ∧
      ∀ g ∈ fields, g.isSet d = true → g.isSet (store d) = true

/-- The fields differ in their names, and each takes one value and
marks its place. -/
structure IsSound (fields : List (Field Reader σ)) : Prop where
  distinct : (fields.map fun f => Utf8.encode f.name).Nodup
  tight : ∀ f ∈ fields, f.shape.IsTight
  marks : ∀ f ∈ fields, Marks fields f

theorem Names.mem (h : Names fields key f) : f ∈ fields := by
  cases h with
  | str spelled listed | bin spelled listed => exact listed
  | index spelled listed => exact List.mem_of_getElem? listed

/-- A key that is read is the name of the field that is found. -/
theorem Names.eq_of_readKey {found : Option (Field Reader σ)} {after : List UInt8}
    (h : Names fields key f)
    (distinct : (fields.map fun f => Utf8.encode f.name).Nodup)
    (read : Record.readKey fields (key ++ rest) = .ok (found, after)) :
    found = some f := by
  have own := (h.reads distinct rest).symm.trans read
  cases own
  rfl

/-- Where the entries of a map are read, an entry behind others is read into a
draft that has all fields which are named before it, and does not have its own. -/
theorem IsSound.reaches {pairs : List (List UInt8 × List UInt8)}
    (sound : IsSound fields)
    (values : ∀ p ∈ pairs, IsSomeValue p.1 ∧ IsSomeValue p.2)
    (room : pairs.length < n) (named : Names fields key f)
    (read : Record.readEntries fields levels n d
      (pairs.flatMap pairBytes ++ (key ++ rest)) =
      .ok (e, bytes)) :
    ∃ d' store after, f.isSet d' = false ∧
      f.shape.read levels rest = .ok (store, after) ∧
      ∀ g ∈ fields, (g.isSet d = true ∨ ∃ p ∈ pairs, Names fields p.1 g) →
        g.isSet d' = true := by
  -- along the pairs: a field that is named is set from then on, and one that is
  -- set is refused
  induction pairs generalizing n d with
  | nil =>
      obtain ⟨n, rfl⟩ := Nat.exists_eq_add_of_lt room
      obtain ⟨found, mid, first, read⟩ := bind_eq_ok_iff.mp read
      have own := (named.reads sound.distinct rest).symm.trans first
      cases own
      by_cases again : f.isSet d = true
      · simp only [again, if_true] at read
        cases read
      · simp only [if_neg again] at read
        obtain ⟨store, after, value, -⟩ := bind_eq_ok_iff.mp read
        refine ⟨d, store, after, by simpa using again, value, ?_⟩
        rintro g - (before | ⟨p, never, -⟩)
        · exact before
        · cases never
  | cons p pairs ih =>
      obtain ⟨n, rfl⟩ := Nat.exists_eq_add_of_lt room
      rw [List.flatMap_cons, pairBytes, List.append_assoc,
        List.append_assoc] at read
      obtain ⟨keyed, valued⟩ := values p List.mem_cons_self
      have later := fun q listed => values q (List.mem_cons_of_mem p listed)
      have room : pairs.length < pairs.length + 1 + n := by omega
      obtain ⟨found, mid, first, read⟩ := bind_eq_ok_iff.mp read
      obtain rfl := keyed.rest_eq (takesValue_readKey levels) first
      cases found with
      | none =>
          obtain ⟨⟨⟩, mid, skipped, read⟩ := bind_eq_ok_iff.mp read
          obtain rfl := valued.rest_eq (p := skip Reader levels)
            (fun _ _ _ read => read) skipped
          obtain ⟨d', store, after, unset, value, before⟩ := ih later room read
          refine ⟨d', store, after, unset, value, ?_⟩
          rintro g listed (had | ⟨q, there, named⟩)
          · exact before g listed (.inl had)
          · rcases List.mem_cons.mp there with rfl | there
            · cases named.eq_of_readKey sound.distinct first
            · exact before g listed (.inr ⟨q, there, named⟩)
      | some f' =>
          have known := mem_of_readKey first
          by_cases again : f'.isSet d = true
          · simp only [again, if_true] at read
            cases read
          · simp only [if_neg again] at read
            obtain ⟨store', mid, taken, read⟩ := bind_eq_ok_iff.mp read
            obtain rfl := valued.rest_eq (sound.tight f' known levels) taken
            obtain ⟨d', store, after, unset, value, before⟩ := ih later room read
            refine ⟨d', store, after, unset, value, ?_⟩
            rintro g listed (had | ⟨q, there, named⟩)
            · exact before g listed
                (.inl ((sound.marks f' known taken d).2 g listed had))
            · rcases List.mem_cons.mp there with rfl | there
              · cases named.eq_of_readKey sound.distinct first
                exact before _ listed (.inl (sound.marks _ known taken d).1)
              · exact before g listed (.inr ⟨q, there, named⟩)

/-- A map, and whatever follows it, in which two keys name the same field. -/
inductive NamesTwice (fields : List (Field Reader σ)) : List UInt8 → Prop
  | intro {n : Nat} {head : List UInt8} {pairs : List (List UInt8 × List UInt8)}
      {f : Field Reader σ}
      {key : List UInt8} (spelled : Spells (.map n) head)
      (values : ∀ p ∈ pairs, IsSomeValue p.1 ∧ IsSomeValue p.2)
      (room : pairs.length < n)
      (once : ∃ p ∈ pairs, Names fields p.1 f) (again : Names fields key f)
      (rest : List UInt8) :
      NamesTwice fields (head ++ (pairs.flatMap pairBytes ++ (key ++ rest)))

/-- A map, and whatever follows it, in which a field is named; its value, with
what follows, is of a kind. -/
inductive HasField (fields : List (Field Reader σ)) (f : Field Reader σ)
    (kind : List UInt8 → Prop) : List UInt8 → Prop
  | intro {n : Nat} {head : List UInt8} {pairs : List (List UInt8 × List UInt8)}
      {key value : List UInt8}
      (spelled : Spells (.map n) head)
      (values : ∀ p ∈ pairs, IsSomeValue p.1 ∧ IsSomeValue p.2)
      (room : pairs.length < n) (named : Names fields key f)
      (of_kind : kind value) :
      HasField fields f kind (head ++ (pairs.flatMap pairBytes ++ (key ++ value)))

section Unread

variable {r : Record Reader σ α} {a : α} {head : List UInt8}
  {kind : List UInt8 → Prop}

/-- A record that is read from a map has read its entries. -/
theorem exists_readEntries (spelled : Spells (.map n) head)
    (read : r.shape.read levels (head ++ bytes) = .ok (a, rest)) :
    ∃ inside d after, Record.readEntries r.fields inside n r.blank bytes =
      .ok (d, after) := by
  obtain ⟨d, after, draft, -⟩ := bind_eq_ok_iff.mp read
  obtain ⟨t, mid, first, entries⟩ := bind_eq_ok_iff.mp draft
  cases (spelled.reads bytes).symm.trans first
  cases levels with
  | zero => cases entries
  | succ inside => exact ⟨inside, d, after, entries⟩

/-- A record is not read from a map in which two keys name the same field. -/
theorem NamesTwice.not_read (sound : IsSound r.fields)
    (h : NamesTwice r.fields bytes) :
    r.shape.read levels bytes ≠ .ok (a, rest) := by
  intro read
  obtain ⟨spelled, values, room, once, again, more⟩ := h
  obtain ⟨inside, d, after, entries⟩ := exists_readEntries spelled read
  obtain ⟨d', store, mid, unset, -, before⟩ :=
    sound.reaches values room again entries
  rw [before _ again.mem (.inr once)] at unset
  cases unset

theorem HasField.mem (h : HasField fields f kind bytes) : f ∈ fields := by
  obtain ⟨spelled, values, room, named, of_kind⟩ := h
  exact named.mem

/-- A record is not read from a map in which a field has a value
that is not read. -/
theorem HasField.not_read (sound : IsSound r.fields)
    (h : HasField r.fields f kind bytes)
    (unread : ∀ value, kind value →
      ∀ levels store rest, f.shape.read levels value ≠ .ok (store, rest)) :
    r.shape.read levels bytes ≠ .ok (a, rest) := by
  intro read
  obtain ⟨spelled, values, room, named, of_kind⟩ := h
  obtain ⟨inside, d, after, entries⟩ := exists_readEntries spelled read
  obtain ⟨d', store, mid, -, value, -⟩ := sound.reaches values room named entries
  exact unread _ of_kind _ _ _ value

end Unread

/-! ## Fields by the sides of their place -/

section Field

variable {name : String} {get : σ → Option α} {set : α → σ → σ}
  {s : Shape Reader α} {a : α}

/-- An entry whose value is read sets its place in a draft. -/
theorem Adds.of {β : Type} {r : Record Reader σ β}
    (short : (Utf8.encode name).length < byteRange 4)
    (found : r.fields.find? (fun f => Utf8.encode f.name == Utf8.encode name) =
      some (.of name get set s))
    (read : Reads (s.read levels) value a) (unset : get d = none)
    (stored : set a d = e) :
    Adds r levels (name, value) d e :=
  .intro short found (by simp [Field.of, unset]) (read.map set) stored

/-- A field's value is read by its shape and stored by its setter. -/
theorem Field.exists_value {store : σ → σ}
    (read : (Field.of name get set s).shape.read levels bytes = .ok (store, rest)) :
    ∃ a, s.read levels bytes = .ok (a, rest) ∧ set a = store :=
  map_eq_ok_iff.mp read

/-- A field marks its place if its setter unsets no place. -/
theorem Field.marks (own : ∀ a d, get (set a d) = some a)
    (others : ∀ a d, ∀ g ∈ fields, g.isSet d = true → g.isSet (set a d) = true) :
    Marks fields (.of name get set s) := by
  intro levels bytes store rest read d
  obtain ⟨a, -, rfl⟩ := exists_value read
  exact ⟨by simp [Field.of, own], others a d⟩

/-- What a draft holds in the place of an entry, if it holds the entries with the
names `seen`. -/
def given (seen : Finset String) (name : String) (a : α) : Option α :=
  if name ∈ seen then some a else none

variable {seen : Finset String} {other : String}

theorem given_of_mem (there : name ∈ seen) : given seen name a = some a :=
  if_pos there

theorem given_of_notMem (new : name ∉ seen) : given seen name a = none := if_neg new

/-- A place that nil stands in for if it is missing. -/
theorem join_given {o : Option α} (missing : name ∉ seen → o = none) :
    (given seen name o).join = o := by
  by_cases there : name ∈ seen
  · rw [given_of_mem there]
    rfl
  · rw [given_of_notMem there, missing there]
    rfl

theorem given_insert : given (insert name seen) name a = some a :=
  given_of_mem (Finset.mem_insert_self _ _)

theorem given_insert_of_ne (differ : other ≠ name) :
    given (insert name seen) other a = given seen other a := by
  simp [given, differ]

end Field

end ElementAgent.MessagePack
