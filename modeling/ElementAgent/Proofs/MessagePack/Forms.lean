import ElementAgent.Proofs.MessagePack.Entries
import ElementAgent.Proofs.MessagePack.Skipping

/-!
# Forms of values

A number can be written in ten forms, a text in four and the head of a map or an
array in three, and a record as a map, whose keys name its fields, or as an array.
Main statements:

* **numbers** are read by their value, whatever the form, or are refused by it if
  they are not within the bounds, and nothing else is read as a number
  (`isExact_unsigned64`, `isExact_signed32`);
* **records** are read from the values of their fields, whatever the forms of what
  is around them (`Drafts.gives_record`).
-/

namespace ElementAgent.MessagePack

open Text (Utf8.encode)

variable {α β : Type} {p : Reader α} {xs ys bytes rest : List UInt8} {a : α}
  {levels : Nat} {v low high : Int} {wanted : Wanted} {t : Token}

/-! ## Outcomes -/

/-- What the reader makes of these bytes, whatever follows them: it takes them and
no more, or it fails. -/
def Gives (p : Reader α) (bytes : List UInt8) (out : Except Fault α) : Prop :=
  ∀ rest, p (bytes ++ rest) = (fun a => (a, rest)) <$> out

namespace Gives

variable {out : Except Fault α} {e : Fault}

protected theorem bind {f : α → Reader β} {out : Except Fault β}
    (first : Reads p xs a)
    (second : Gives (f a) ys out) : Gives (p >>= f) (xs ++ ys) out := by
  intro rest
  show (p (xs ++ ys ++ rest) >>= fun (a, rest) => f a rest) = _
  rw [List.append_assoc, first]
  exact second rest

/-- A reader that takes nothing and is followed by another. -/
theorem nil_bind {f : α → Reader β} {out : Except Fault β} (first : Reads p [] a)
    (second : Gives (f a) ys out) :
    Gives (p >>= f) ys out := Gives.bind first second

/-- A reader that fails does not get to the one behind it. -/
theorem stop (failed : Gives p xs (.error e)) (f : α → Reader β) (ys : List UInt8) :
    Gives (p >>= f) (xs ++ ys) (.error e) := by
  intro rest
  show (p (xs ++ ys ++ rest) >>= fun (a, rest) => f a rest) = _
  rw [List.append_assoc, failed]
  rfl

/-- A reader that is followed by what takes nothing. -/
theorem bind_lift {f : α → Except Fault β} (h : Gives p xs out) :
    Gives (p >>= fun a => (f a : Reader β)) xs (out >>= f) := by
  intro rest
  show (p (xs ++ rest) >>= fun (a, rest) => (f a : Reader β) rest) = _
  rw [h]
  cases out with
  | error e => rfl
  | ok a =>
      show (f a : Reader β) rest = (fun b => (b, rest)) <$> f a
      cases f a <;> rfl

protected theorem map (f : α → β) (h : Gives p xs out) :
    Gives (f <$> p) xs (f <$> out) := by
  intro rest
  show (p (xs ++ rest) >>= fun (a, rest) => pure (f a, rest)) = _
  rw [h]
  cases out <;> rfl

/-- Of the bytes alone the reader makes the same. -/
theorem fst_eq (h : Gives p bytes out) : Prod.fst <$> p bytes = out := by
  have alone := h []
  rw [List.append_nil] at alone
  rw [alone]
  cases out <;> rfl

end Gives

/-! ## Numbers -/

/-- The bytes carry the number, in any of its forms. -/
def CarriesNumber (v : Int) (bytes : List UInt8) : Prop :=
  ∃ t, Spells t bytes ∧ t.integer? = some v

theorem carriesNumber_writeUnsigned {n : Nat} (small : n < byteRange 8) :
    CarriesNumber n (writeUnsigned n) := by
  refine ⟨.unsigned n, ?_, rfl⟩
  unfold writeUnsigned
  split_ifs with one two three four
  · exact .fixPos one
  · exact .unsigned (k := 0) (by decide) two
  · exact .unsigned (k := 1) (by decide) three
  · exact .unsigned (k := 2) (by decide) four
  · exact .unsigned (k := 3) (by decide) small

theorem carriesNumber_writeInteger (above : -byteRange 8 ≤ 2 * v)
    (below : v < byteRange 8) :
    CarriesNumber v (writeInteger v) := by
  have one_byte : byteRange (2 ^ 0) = 0x100 := rfl
  have two_bytes : byteRange (2 ^ 1) = 0x10000 := rfl
  have four_bytes : byteRange (2 ^ 2) = 0x100000000 := rfl
  unfold writeInteger
  split_ifs with positive one two three four
  · have value : (v.toNat : Int) = v := Int.toNat_of_nonneg positive
    have carried := carriesNumber_writeUnsigned (n := v.toNat) (by omega)
    rwa [value] at carried
  · exact ⟨.signed v, .fixNeg (by omega) one, rfl⟩
  · exact ⟨.signed v, .signed (k := 0) (by decide) (by omega) (by omega), rfl⟩
  · exact ⟨.signed v, .signed (k := 1) (by decide) (by omega) (by omega), rfl⟩
  · exact ⟨.signed v, .signed (k := 2) (by decide) (by omega) (by omega), rfl⟩
  · exact ⟨.signed v, .signed (k := 3) (by decide) above (by omega), rfl⟩

/-- The marker of a number is looked behind. -/
theorem isScalar_of_integer {m : Marker}
    (token : Token.ofMarker m bytes = .ok (t, rest))
    (value : t.integer? = some v) : m.isScalar = true := by
  cases m with
  | fixMap n | fixArray n | fixExt n =>
      cases token
      cases value
  | fixStr n =>
      obtain ⟨content, -, rfl⟩ := map_eq_ok_iff.mp token
      cases value
  | reserved => cases token
  | ext width | array width | map width =>
      obtain ⟨n, -, rfl⟩ := map_eq_ok_iff.mp token
      cases value
  | bin width | str width =>
      obtain ⟨content, -, rfl, -⟩ := counted_eq_ok token
      cases value
  | _ => rfl

/-- A number is read by its value, and one that is not within the bounds is
refused by its value. -/
theorem gives_readInteger (wanted : Wanted) (low high : Int)
    (carries : CarriesNumber v bytes) :
    Gives (readInteger wanted low high) bytes
      (if low ≤ v ∧ v ≤ high then .ok v else
        .error (.wrongValue (.integer v) wanted)) := by
  obtain ⟨t, spelled, value⟩ := carries
  intro rest
  have token := spelled.reads rest
  obtain ⟨m, mid, marker, scalar⟩ := bind_eq_ok_iff.mp token
  cases bytes with
  | nil => cases spelled
  | cons b bytes =>
      cases marker
      rw [List.cons_append] at token ⊢
      rw [readInteger_cons, if_pos (isScalar_of_integer scalar value)]
      show (Token.read (b :: (bytes ++ rest)) >>= fun (t, rest) => _) = _
      rw [token]
      cases t with
      | unsigned n | signed n =>
          cases value
          show ((if _ then _ else _ : Except Fault Int) : Reader Int) rest = _
          split_ifs <;> rfl
      | _ => cases value

/-- What is read as a number carries it. -/
theorem readInteger_eq_ok
    (read : readInteger (m := Reader) wanted low high bytes = .ok (v, rest)) :
    (low ≤ v ∧ v ≤ high) ∧ ∃ head, bytes = head ++ rest ∧ CarriesNumber v head := by
  cases bytes with
  | nil => cases read
  | cons b bytes =>
      rw [readInteger_cons] at read
      split_ifs at read
      obtain ⟨t, after, token, read⟩ := bind_eq_ok_iff.mp read
      obtain ⟨number, rfl⟩ := lift_eq_ok_iff.mp read
      have first : Token.read (b :: bytes) = .ok (t, after) := token
      obtain ⟨head, whole, spelled⟩ := exists_spells first
      cases t with
      | unsigned n | signed n =>
          unfold Token.integer at number
          dsimp only at number
          split_ifs at number with within
          cases number
          exact ⟨within, head, whole, _, spelled, rfl⟩
      | str content =>
          exact absurd number (Token.refuse_ne_ok (.str content) wanted v)
      | _ => cases number

/-- A number that is an id is no other id. -/
theorem toNat_ofNat_toNat (low : 0 ≤ v) (high : v < 0x10000000000000000) :
    ((UInt64.ofNat v.toNat).toNat : Int) = v := by
  rw [UInt64.toNat_ofNat_of_lt' (by show v.toNat < 0x10000000000000000; omega),
    Int.toNat_of_nonneg low]

/-- The number as an id, or why it is none. -/
def asUnsigned64 (v : Int) : Except Fault UInt64 :=
  if 0 ≤ v ∧ v < 0x10000000000000000 then .ok (UInt64.ofNat v.toNat)
  else .error (.wrongValue (.integer v) .unsigned64)

/-- The number as a process's, or why it is none. -/
def asSigned32 (v : Int) : Except Fault Int32 :=
  if -0x80000000 ≤ v ∧ v < 0x80000000 then .ok (Int32.ofInt v)
  else .error (.wrongValue (.integer v) .signed32)

@[simp] theorem asUnsigned64_toNat (id : UInt64) :
    asUnsigned64 id.toNat = .ok id := by
  have small := id.toNat_lt
  rw [asUnsigned64, if_pos (by omega), Int.toNat_natCast, UInt64.ofNat_toNat]

@[simp] theorem asSigned32_toInt (pid : Int32) :
    asSigned32 pid.toInt = .ok pid := by
  have low := pid.le_toInt
  have high := pid.toInt_lt
  rw [asSigned32, if_pos ⟨low, high⟩, Int32.ofInt_toInt]

theorem asUnsigned64_of_outside (outside : v < 0 ∨ 0x10000000000000000 ≤ v) :
    asUnsigned64 v = .error (.wrongValue (.integer v) .unsigned64) :=
  if_neg (by omega)

theorem asSigned32_of_outside (outside : v < -0x80000000 ∨ 0x80000000 ≤ v) :
    asSigned32 v = .error (.wrongValue (.integer v) .signed32) := if_neg (by omega)

theorem gives_unsigned64 (carries : CarriesNumber v bytes) (levels : Nat) :
    Gives (Shape.unsigned64.read levels) bytes (asUnsigned64 v) := by
  have read := (gives_readInteger .unsigned64 0 0xffffffffffffffff carries).map
    fun n => UInt64.ofNat n.toNat
  unfold asUnsigned64
  split_ifs at read ⊢ with within bounds bounds
  · exact read
  · exact absurd ⟨within.1, by omega⟩ bounds
  · exact absurd ⟨bounds.1, by omega⟩ within
  · exact read

theorem gives_signed32 (carries : CarriesNumber v bytes) (levels : Nat) :
    Gives (Shape.signed32.read levels) bytes (asSigned32 v) := by
  have read := (gives_readInteger .signed32 (-0x80000000) 0x7fffffff carries).map
    Int32.ofInt
  unfold asSigned32
  split_ifs at read ⊢ with within bounds bounds
  · exact read
  · exact absurd ⟨by omega, by omega⟩ bounds
  · exact absurd ⟨by omega, by omega⟩ within
  · exact read

/-- The shape reads numbers by their values: one between the bounds is read from
every form that carries it, one that is not is refused by its value, and nothing
is read but from a form that carries it. -/
structure IsExact (s : Shape Reader α) (value : α → Int) (low high : Int)
    (wanted : Wanted) : Prop where
  kept : ∀ levels v bytes, CarriesNumber v bytes → low ≤ v ∧ v ≤ high →
    ∃ a, value a = v ∧
    Reads (s.read levels) bytes a
  refused : ∀ levels v bytes, CarriesNumber v bytes → (v < low ∨ high < v) →
    ∀ rest, s.read levels (bytes ++ rest) = .error (.wrongValue (.integer v) wanted)
  only : ∀ levels bytes a rest, s.read levels bytes = .ok (a, rest) →
    ∃ head, bytes = head ++ rest ∧ CarriesNumber (value a) head

theorem isExact_unsigned64 : IsExact .unsigned64
    (fun id => (id.toNat : Int)) 0 0xffffffffffffffff .unsigned64 where
  kept levels v bytes carries within := by
    have same := toNat_ofNat_toNat within.1 (show v < 0x10000000000000000 by omega)
    refine ⟨_, same, ?_⟩
    have read := gives_unsigned64 carries levels
    rw [← same, asUnsigned64_toNat] at read
    exact read
  refused levels v bytes carries outside := by
    have failed := gives_unsigned64 carries levels
    rw [asUnsigned64_of_outside (by omega)] at failed
    exact failed
  only levels bytes a rest read := by
    obtain ⟨n, number, rfl⟩ := map_eq_ok_iff.mp read
    obtain ⟨⟨low, high⟩, head, rfl, carries⟩ := readInteger_eq_ok number
    refine ⟨head, rfl, ?_⟩
    rwa [toNat_ofNat_toNat low (by omega)]

theorem isExact_signed32 :
    IsExact .signed32 Int32.toInt (-0x80000000) 0x7fffffff .signed32 where
  kept levels v bytes carries within := by
    have same := Int32.toInt_ofInt_of_le within.1 (show v < 0x80000000 by omega)
    refine ⟨_, same, ?_⟩
    have read := gives_signed32 carries levels
    rw [← same, asSigned32_toInt] at read
    exact read
  refused levels v bytes carries outside := by
    have failed := gives_signed32 carries levels
    rw [asSigned32_of_outside (by omega)] at failed
    exact failed
  only levels bytes a rest read := by
    obtain ⟨n, number, rfl⟩ := map_eq_ok_iff.mp read
    obtain ⟨⟨low, high⟩, head, rfl, carries⟩ := readInteger_eq_ok number
    refine ⟨head, rfl, ?_⟩
    rwa [Int32.toInt_ofInt_of_le (by omega) (by omega)]

/-! ## Texts and what may be missing -/

/-- The bytes are the text, behind its length in any form. -/
def CarriesText (s : String) : List UInt8 → Prop := Spells (.str (Utf8.encode s))

theorem reads_carriedText {s : String} (carries : CarriesText s bytes)
    (levels : Nat) :
    Reads (Shape.text.read levels) bytes s := by
  show Reads readText bytes s
  refine Spells.reads carries |>.bind_pure ?_
  simp only [Token.text, Text.Utf8.decode_encode]
  exact .pure _

/-- Nil, or what carries the value. -/
def CarriesNullable (carries : α → List UInt8 → Prop) : Option α → List UInt8 → Prop
  | none, bytes => bytes = writeNil
  | some a, bytes => carries a bytes

/-- A head of anything but nil does not start like nil. -/
theorem Spells.marked {head : List UInt8} (h : Spells t head) (other : t ≠ .nil)
    (rest : List UInt8) :
    ∃ b bs, head ++ rest = b :: bs ∧ Marker.ofByte b ≠ .null := by
  cases head with
  | nil => cases h.reads []
  | cons b head =>
      refine ⟨b, head ++ rest, rfl, fun null => other ?_⟩
      have nil : Reads Token.read [b] .nil := reads_token null (.pure _)
      have same := (nil (head ++ rest)).symm.trans (h.reads rest)
      exact (Prod.mk.inj (Except.ok.inj same)).1.symm

theorem CarriesText.marked {s : String} (carries : CarriesText s bytes) :
    ∃ b bs, bytes = b :: bs ∧ Marker.ofByte b ≠ .null := by
  obtain ⟨b, bs, starts, other⟩ := Spells.marked carries Token.noConfusion []
  rw [List.append_nil] at starts
  exact ⟨b, bs, starts, other⟩

theorem reads_carriedNullable {s : Shape Reader α} {carries : α → List UInt8 → Prop}
    {o : Option α}
    (read : ∀ a ∈ o, carries a bytes → Reads (s.read levels) bytes a)
    (marked : ∀ a ∈ o, carries a bytes →
      ∃ b bs, bytes = b :: bs ∧ Marker.ofByte b ≠ .null)
    (carried : CarriesNullable carries o bytes) :
    Reads (s.nullable.read levels) bytes o := by
  cases o with
  | none =>
      obtain rfl : bytes = writeNil := carried
      exact fun rest => rfl
  | some a =>
      show Reads _ (writeNullable (fun _ => bytes) (some a)) _
      refine reads_nullable (some a) (fun b same => ?_) fun b same => ?_
      · cases same
        exact read a rfl carried
      · cases same
        exact marked a rfl carried

/-! ## Records -/

section Records

variable {σ : Type} {all fields : List (Field Reader σ)}
  {kinds : List (List UInt8 → Prop)} {d e : σ} {out : Except Fault σ}

/-- Values of some kinds, each behind a key that names its field among all. -/
inductive HoldsEntries (all : List (Field Reader σ)) :
    List (Field Reader σ) → List (List UInt8 → Prop) → List UInt8 → Prop
  | nil : HoldsEntries all [] [] []
  | cons {f : Field Reader σ} {fields : List (Field Reader σ)}
      {kind : List UInt8 → Prop}
      {kinds : List (List UInt8 → Prop)} {key value bytes : List UInt8}
      (named : Names all key f)
      (of_kind : kind value) (others : HoldsEntries all fields kinds bytes) :
      HoldsEntries all (f :: fields) (kind :: kinds) (key ++ (value ++ bytes))

/-- Values of some kinds, one behind the other. -/
inductive HoldsElements : List (List UInt8 → Prop) → List UInt8 → Prop
  | nil : HoldsElements [] []
  | cons {kind : List UInt8 → Prop} {kinds : List (List UInt8 → Prop)}
      {value bytes : List UInt8}
      (of_kind : kind value) (others : HoldsElements kinds bytes) :
      HoldsElements (kind :: kinds) (value ++ bytes)

/-- A record whose fields have values of some kinds, in their order: a map or an
array, with a head in any form. -/
inductive HoldsRecord (fields : List (Field Reader σ))
    (kinds : List (List UInt8 → Prop)) : List UInt8 → Prop
  | map {head bytes : List UInt8} (spelled : Spells (.map kinds.length) head)
      (entries : HoldsEntries fields fields kinds bytes) :
      HoldsRecord fields kinds (head ++ bytes)
  | array {head bytes : List UInt8} (spelled : Spells (.array kinds.length) head)
      (elements : HoldsElements kinds bytes) :
      HoldsRecord fields kinds (head ++ bytes)

/-- What becomes of a draft if values of some kinds are read into it, one
for each field. -/
inductive Drafts (levels : Nat) :
    List (Field Reader σ) → List (List UInt8 → Prop) → σ → Except Fault σ → Prop
  | done (d : σ) : Drafts levels [] [] d (.ok d)
  | store {f : Field Reader σ} {fields : List (Field Reader σ)}
      {kind : List UInt8 → Prop}
      {kinds : List (List UInt8 → Prop)} {d : σ} {store : σ → σ}
      {out : Except Fault σ}
      (first : f.isSet d = false)
      (read : ∀ value, kind value → Reads (f.shape.read levels) value store)
      (others : Drafts levels fields kinds (store d) out) :
      Drafts levels (f :: fields) (kind :: kinds) d out
  | stop {f : Field Reader σ} {fields : List (Field Reader σ)}
      {kind : List UInt8 → Prop}
      {kinds : List (List UInt8 → Prop)} {d : σ} {e : Fault}
      (first : f.isSet d = false)
      (failed : ∀ value, kind value →
        Gives (f.shape.read levels) value (.error e)) :
      Drafts levels (f :: fields) (kind :: kinds) d (.error e)

namespace Drafts

theorem length_eq (drafts : Drafts levels fields kinds d (.ok e)) :
    fields.length = kinds.length := by
  generalize whole : (Except.ok e : Except Fault σ) = out at drafts
  induction drafts with
  | done d => rfl
  | store first read others ih => exact congrArg Nat.succ (ih whole)
  | stop first failed => cases whole

variable {name : String} {get : σ → Option α} {set : α → σ → σ} {s : Shape Reader α}
  {kind : List UInt8 → Prop}

/-- The first value is read into the draft, and the others follow. -/
theorem place {a : α} (read : ∀ value, kind value → Reads (s.read levels) value a)
    (unset : get d = none) (later : Drafts levels fields kinds (set a d) out) :
    Drafts levels (.of name get set s :: fields) (kind :: kinds) d out :=
  .store (by simp [Field.of, unset])
    (fun value of_kind => (read value of_kind).map set) later

/-- The first value is read into the draft, or fails, and the others follow. -/
theorem place_bind {first : Except Fault α} {others : α → Except Fault σ}
    (gives : ∀ value, kind value → Gives (s.read levels) value first)
    (unset : get d = none)
    (later : ∀ a, Drafts levels fields kinds (set a d) (others a)) :
    Drafts levels (.of name get set s :: fields) (kind :: kinds) d
      (first >>= others) := by
  cases first with
  | ok a => exact place gives unset (later a)
  | error e =>
      exact .stop (by simp [Field.of, unset]) fun value of_kind =>
        (gives value of_kind).map set

theorem gives_entries (drafts : Drafts levels fields kinds d out)
    (distinct : (all.map fun f => Utf8.encode f.name).Nodup)
    (entries : HoldsEntries all fields kinds bytes) :
    Gives (Record.readEntries all levels kinds.length d) bytes out := by
  induction drafts generalizing bytes with
  | done d =>
      cases entries
      exact Reads.pure d
  | store first read others ih =>
      cases entries with
      | cons named of_kind entries =>
          refine Gives.bind (named.reads distinct) ?_
          simp only [first, Bool.false_eq_true, if_false]
          exact Gives.bind (read _ of_kind) (ih entries)
  | stop first failed =>
      cases entries with
      | cons named of_kind entries =>
          refine Gives.bind (named.reads distinct) ?_
          simp only [first, Bool.false_eq_true, if_false]
          exact (failed _ of_kind).stop _ _

theorem gives_elements (drafts : Drafts levels fields kinds d out) (short : Fault)
    (elements : HoldsElements kinds bytes) :
    Gives (Record.readElements short levels fields kinds.length d) bytes out := by
  induction drafts generalizing bytes with
  | done d =>
      cases elements
      exact Reads.pure d
  | store first read others ih =>
      cases elements with
      | cons of_kind elements => exact Gives.bind (read _ of_kind) (ih elements)
  | stop first failed =>
      cases elements with
      | cons of_kind elements => exact (failed _ of_kind).stop _ _

/-- A record is made of what is read into its blank draft. -/
theorem gives_record {r : Record Reader σ α}
    (drafts : Drafts levels r.fields kinds r.blank out)
    (distinct : (r.fields.map fun f => Utf8.encode f.name).Nodup)
    (holds : HoldsRecord r.fields kinds bytes) :
    Gives (r.shape.read (levels + 1)) bytes (out >>= r.finish) := by
  refine Gives.bind_lift (p := r.readDraft (levels + 1)) ?_
  cases holds with
  | map spelled entries =>
      exact Gives.bind spelled.reads (drafts.gives_entries distinct entries)
  | array spelled elements =>
      refine Gives.bind spelled.reads ?_
      have read := drafts.gives_elements
        (.wrongCount kinds.length (.fields r.name r.fields.length)) elements
      cases out with
      | error e =>
          have failed := read.stop (fun d => if r.fields.length < kinds.length then
            throw (.length r.fields.length) else pure d) []
          rwa [List.append_nil] at failed
      | ok d =>
          have enough : ¬r.fields.length < kinds.length :=
            Nat.not_lt.mpr (Nat.le_of_eq drafts.length_eq.symm)
          refine Reads.bind_pure read ?_
          rw [if_neg enough]
          exact .pure d

end Drafts

/-- A record starts like no nil. -/
theorem HoldsRecord.marked (h : HoldsRecord fields kinds bytes) :
    ∃ b bs, bytes = b :: bs ∧ Marker.ofByte b ≠ .null := by
  cases h with
  | map spelled _ => exact spelled.marked Token.noConfusion _
  | array spelled _ => exact spelled.marked Token.noConfusion _

theorem holdsEntries_written {values : List (List UInt8)}
    (count : fields.length = kinds.length)
    (names : ∀ f ∈ fields, Names all (writeText f.name) f)
    (of_kind : List.Forall₂ (fun kind value => kind value) kinds values) :
    HoldsEntries all fields kinds
      (((fields.map Field.name).zip values).flatMap fun e =>
        writeText e.1 ++ e.2) := by
  induction of_kind generalizing fields with
  | nil =>
      obtain rfl := List.length_eq_zero_iff.mp count
      exact .nil
  | cons value others ih =>
      cases fields with
      | nil => cases count
      | cons f fields =>
          rw [List.map_cons, List.zip_cons_cons, List.flatMap_cons,
            List.append_assoc]
          exact .cons (names f List.mem_cons_self) value
            (ih (Nat.succ.inj count) fun g listed =>
              names g (List.mem_cons_of_mem f listed))

/-- A record as it is written is one of its forms. -/
theorem holdsRecord_writeMap (fields : List (Field Reader σ))
    {values : List (List UInt8)} (count : fields.length = kinds.length)
    (small : fields.length < 0x10)
    (short : ∀ f ∈ fields, (Utf8.encode f.name).length < byteRange 4)
    (of_kind : List.Forall₂ (fun kind value => kind value) kinds values) :
    HoldsRecord fields kinds (writeMap ((fields.map Field.name).zip values)) := by
  have length : ((fields.map Field.name).zip values).length = kinds.length := by
    rw [List.length_zip, List.length_map, count, of_kind.length_eq, Nat.min_self]
  rw [count] at small
  rw [writeMap, mapHeader, length, if_pos small]
  exact .map (.fixMap small)
    (holdsEntries_written count
      (fun f listed => .str (spells_writeText (short f listed)) listed) of_kind)

end Records

end ElementAgent.MessagePack
