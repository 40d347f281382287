import ElementAgent.MessagePack.Shape
import ElementAgent.MessagePack.Writer
import ElementAgent.Proofs.Text.Utf8
import Mathlib.Tactic.SplitIfs

/-!
# Readers read what was written

`Reads p bs a` says that the reader `p` takes exactly the bytes `bs` off whatever
follows them, and gives `a`. Main statements:

* **composition**: readers in sequence read bytes in sequence (`Reads.bind`);
* **numbers**: every spelling of a number is read as the number (`reads_integer`),
  so the shortest one is (`reads_writeUnsigned`, `reads_writeInteger`);
* **texts and headers**: `reads_writeText`, `reads_mapHeader`;
* **records**: a field that is found by its name is read into the draft
  (`reads_entry`).
-/

namespace ElementAgent.MessagePack

variable {α β : Type} {p : Reader α} {xs ys : List UInt8} {a : α} {b : β}

/-- The reader takes exactly these bytes off whatever follows them. -/
def Reads (p : Reader α) (bs : List UInt8) (a : α) : Prop :=
  ∀ rest, p (bs ++ rest) = .ok (a, rest)

namespace Reads

protected theorem pure (a : α) : Reads (pure a) [] a := fun _ => rfl

protected theorem bind {f : α → Reader β} (first : Reads p xs a)
    (second : Reads (f a) ys b) :
    Reads (p >>= f) (xs ++ ys) b := by
  intro rest
  show (p (xs ++ ys ++ rest) >>= fun (a, rest) => f a rest) = _
  rw [List.append_assoc, first]
  exact second rest

protected theorem map (f : α → β) (first : Reads p xs a) :
    Reads (f <$> p) xs (f a) := by
  intro rest
  show (p (xs ++ rest) >>= fun (a, rest) => pure (f a, rest)) = _
  rw [first]
  rfl

/-- A reader that takes nothing and is followed by another. -/
protected theorem nil_bind {f : α → Reader β} (first : Reads p [] a)
    (second : Reads (f a) ys b) :
    Reads (p >>= f) ys b := first.bind second

/-- A reader that is followed by one that takes nothing. -/
protected theorem bind_pure {f : α → Reader β} (first : Reads p xs a)
    (second : Reads (f a) [] b) :
    Reads (p >>= f) xs b := by
  have both := first.bind second
  rwa [List.append_nil] at both

end Reads

/-! ## Bytes and numbers -/

theorem reads_takeMarker (b : UInt8) : Reads takeMarker [b] (Marker.ofByte b) :=
  fun _ => rfl

theorem reads_takeBytes (short : Fault) {n : Nat} (whole : xs.length = n) :
    Reads (takeBytes short n) xs xs := by
  intro rest
  have taken : (xs ++ rest).take n = xs := by rw [← whole, List.take_left]
  have left : (xs ++ rest).drop n = rest := by rw [← whole, List.drop_left]
  rw [takeBytes]
  simp only [taken, left, if_pos whole]

theorem reads_takeNat {width n : Nat} (small : n < byteRange width) :
    Reads (takeNat width) (bigEndian width n) n := by
  have read :=
    (reads_takeBytes .cutNumber (length_bigEndian width n)).map ofBigEndian
  rwa [ofBigEndian_bigEndian, Nat.mod_eq_of_lt small] at read

/-- Two's complement is undone. -/
theorem ofTwosComplement_twosComplement {width : Nat} {n : Int}
    (low : -byteRange width ≤ 2 * n) (high : 2 * n < byteRange width) :
    ofTwosComplement width (twosComplement width n) = n := by
  have some := byteRange_pos width
  unfold ofTwosComplement twosComplement
  by_cases negative : n < 0
  · have value : n % byteRange width = n + byteRange width := by
      rw [← Int.add_emod_right, Int.emod_eq_of_lt] <;> omega
    rw [value, if_neg (by omega)]
    omega
  · have value : n % byteRange width = n := Int.emod_eq_of_lt (by omega) (by omega)
    rw [value, if_pos (by omega)]
    omega

theorem twosComplement_lt (width : Nat) (n : Int) :
    twosComplement width n < byteRange width := by
  have some := byteRange_pos width
  have below := Int.emod_lt_of_pos n (show (0 : Int) < byteRange width by omega)
  have above := Int.emod_nonneg n (show (byteRange width : Int) ≠ 0 by omega)
  unfold twosComplement
  omega

theorem reads_takeInt (width : Nat) {n : Int} (low : -byteRange width ≤ 2 * n)
    (high : 2 * n < byteRange width) :
    Reads (takeInt width) (bigEndian width (twosComplement width n)) n := by
  have read :=
    (reads_takeNat (twosComplement_lt width n)).map (ofTwosComplement width)
  rwa [ofTwosComplement_twosComplement low high] at read

/-- The number that a token stands for. -/
def Token.integer? : Token → Option Int
  | .unsigned n => some n
  | .signed n => some n
  | _ => none

/-- A token that is a number within the bounds is that number. -/
theorem Token.integer_eq_ok {t : Token} {low high n : Int} (wanted : Wanted)
    (value : t.integer? = some n) (within : low ≤ n ∧ n ≤ high) :
    t.integer wanted low high = .ok n := by
  unfold Token.integer? at value
  split at value
  · cases value
    exact if_pos within
  · cases value
    exact if_pos within
  · cases value

/-- A number is read as a token if its marker is a scalar's, and refused by its
marker if not. -/
theorem readInteger_cons (wanted : Wanted) (low high : Int) (b : UInt8)
    (bs : List UInt8) :
    (readInteger wanted low high : Reader Int) (b :: bs) =
      if (Marker.ofByte b).isScalar then
        (do check ((← leaf).integer wanted low high) : Reader Int) (b :: bs)
      else .error (.marker (Marker.ofByte b)) := by
  show (if (Marker.ofByte b).isScalar then
    (do check ((← leaf).integer wanted low high))
    else fail (.marker (Marker.ofByte b)) : Reader Int) (b :: bs) = _
  split_ifs <;> rfl

/-- Every spelling of a number within the bounds is read as the number. -/
theorem reads_integer {wanted : Wanted} {low high n : Int}
    {byte : UInt8} {t : Token} (scalar : (Marker.ofByte byte).isScalar = true)
    (token : Reads (Token.ofMarker (Marker.ofByte byte)) xs t)
    (value : t.integer? = some n) (within : low ≤ n ∧ n ≤ high) :
    Reads (readInteger wanted low high) (byte :: xs) n := by
  have number : Reads (do check ((← leaf).integer wanted low high))
      (byte :: xs) n := by
    refine ((reads_takeMarker byte).bind token).bind_pure ?_
    rw [Token.integer_eq_ok wanted value within]
    exact .pure n
  intro rest
  rw [List.cons_append, readInteger_cons, if_pos scalar]
  exact number rest

/-- A number from 0 to 127 is its own marker. -/
theorem ofByte_fixPos {n : Nat} (small : n < 0x80) :
    Marker.ofByte (UInt8.ofNat n) = .fixPos n := by
  unfold Marker.ofByte
  rw [Text.Utf8.toNat_byte (by omega)]
  simp only [if_pos small]

theorem reads_writeUnsigned (wanted : Wanted) {low high : Int} {n : Nat}
    (small : n < byteRange 8) (within : low ≤ n ∧ n ≤ high) :
    Reads (readInteger wanted low high) (writeUnsigned n) n := by
  unfold writeUnsigned
  split_ifs with one two three four
  · have marker := ofByte_fixPos one
    exact reads_integer (by rw [marker]; rfl)
      (by rw [marker]; exact .pure _) rfl within
  · exact reads_integer rfl ((reads_takeNat two).map Token.unsigned) rfl within
  · exact reads_integer rfl ((reads_takeNat three).map Token.unsigned) rfl within
  · exact reads_integer rfl ((reads_takeNat four).map Token.unsigned) rfl within
  · exact reads_integer rfl ((reads_takeNat small).map Token.unsigned) rfl within

/-- A number from -32 to -1 is its own marker. -/
theorem ofByte_fixNeg {n : Int} (negative : n < 0) (small : -0x20 ≤ n) :
    Marker.ofByte (UInt8.ofNat (twosComplement 1 n / byteRange 0)) = .fixNeg n := by
  have value : twosComplement 1 n = (n + 256).toNat := by
    show (n % 256).toNat = _
    omega
  unfold Marker.ofByte
  rw [byteRange, Nat.div_one, value, Text.Utf8.toNat_byte (by omega)]
  simp only
  repeat rw [if_neg (by omega)]
  congr 1
  omega

theorem reads_writeInteger (wanted : Wanted) {low high n : Int}
    (above : -byteRange 8 ≤ 2 * n) (below : n < byteRange 8)
    (within : low ≤ n ∧ n ≤ high) :
    Reads (readInteger wanted low high) (writeInteger n) n := by
  have one_byte : byteRange 1 = 0x100 := rfl
  have two_bytes : byteRange 2 = 0x10000 := rfl
  have four_bytes : byteRange 4 = 0x100000000 := rfl
  unfold writeInteger
  split_ifs with positive one two three four
  · have value : (n.toNat : Int) = n := Int.toNat_of_nonneg positive
    have bounds : low ≤ (n.toNat : Int) ∧ (n.toNat : Int) ≤ high := by rwa [value]
    have read := reads_writeUnsigned wanted (by omega) bounds
    rwa [value] at read
  · have marker := ofByte_fixNeg (by omega) one
    exact reads_integer (by rw [marker]; rfl)
      (by rw [marker]; exact .pure _) rfl within
  · exact reads_integer rfl
      ((reads_takeInt 1 (by omega) (by omega)).map Token.signed) rfl within
  · exact reads_integer rfl
      ((reads_takeInt 2 (by omega) (by omega)).map Token.signed) rfl within
  · exact reads_integer rfl
      ((reads_takeInt 4 (by omega) (by omega)).map Token.signed) rfl within
  · exact reads_integer rfl
      ((reads_takeInt 8 above (by omega)).map Token.signed) rfl within

/-! ## Texts and headers -/

theorem ofByte_fixStr :
    ∀ n < 0x20, Marker.ofByte (UInt8.ofNat (0xa0 + n)) = .fixStr n := by
  decide

theorem ofByte_fixMap :
    ∀ n < 0x10, Marker.ofByte (UInt8.ofNat (0x80 + n)) = .fixMap n := by
  decide

/-- A text whose length takes `width` bytes. -/
theorem reads_longText {width : Nat} {byte : UInt8}
    (marker : Marker.ofByte byte = .str width)
    (small : xs.length < byteRange width) :
    Reads Token.read (byte :: bigEndian width xs.length ++ xs) (.str xs) := by
  refine (reads_takeMarker byte).bind ?_
  rw [marker]
  refine (reads_takeNat small).bind ?_
  refine (reads_takeBytes .cutContent rfl).bind_pure ?_
  exact .pure _

/-- A text is read as its content. -/
theorem reads_textHeader (small : xs.length < byteRange 4) :
    Reads Token.read (textHeader xs.length ++ xs) (.str xs) := by
  unfold textHeader
  split_ifs with one two three
  · refine (reads_takeMarker _).bind ?_
    rw [ofByte_fixStr _ one]
    exact (reads_takeBytes .cutContent rfl).map Token.str
  · exact reads_longText rfl two
  · exact reads_longText rfl three
  · exact reads_longText rfl small

theorem reads_writeText {t : String}
    (small : (Text.Utf8.encode t).length < byteRange 4) :
    Reads readText (writeText t) t := by
  refine (reads_textHeader small).bind_pure ?_
  simp only [Token.text, Text.Utf8.decode_encode]
  exact .pure _

/-- A map is read up to its length. -/
theorem reads_mapHeader {n : Nat} (small : n < byteRange 4) :
    Reads Token.read (mapHeader n) (.map n) := by
  unfold mapHeader
  split_ifs with one two
  · refine (reads_takeMarker _).bind_pure ?_
    rw [ofByte_fixMap n one]
    exact .pure _
  · exact (reads_takeMarker 0xde).bind ((reads_takeNat two).map Token.map)
  · exact (reads_takeMarker 0xdf).bind ((reads_takeNat small).map Token.map)

/-! ## Shapes -/

theorem reads_unsigned64 (levels : Nat) (id : UInt64) :
    Reads (Shape.unsigned64.read levels) (writeUnsigned id.toNat) id := by
  have small : id.toNat < 2 ^ 64 := id.toNat_lt
  have read := (reads_writeUnsigned .unsigned64 small
    (show (0 : Int) ≤ id.toNat ∧ (id.toNat : Int) ≤ 2 ^ 64 - 1 by omega)).map
      fun n => UInt64.ofNat n.toNat
  rwa [Int.toNat_natCast, UInt64.ofNat_toNat] at read

theorem reads_signed32 (levels : Nat) (n : Int32) :
    Reads (Shape.signed32.read levels) (writeInteger n.toInt) n := by
  have low : -0x80000000 ≤ n.toInt := n.le_toInt
  have high : n.toInt < 0x80000000 := n.toInt_lt
  have eight_bytes : byteRange 8 = 0x10000000000000000 := rfl
  have read := (reads_writeInteger .signed32 (by omega) (by omega)
    (show -0x80000000 ≤ n.toInt ∧ n.toInt ≤ 0x7fffffff by omega)).map Int32.ofInt
  rwa [Int32.ofInt_toInt] at read

theorem reads_text (levels : Nat) {t : String}
    (small : (Text.Utf8.encode t).length < byteRange 4) :
    Reads (Shape.text.read levels) (writeText t) t := reads_writeText small

/-- The first byte tells nil from other values. -/
theorem nullable_read (s : Shape Reader α) (levels : Nat) (b : UInt8)
    (bs : List UInt8) :
    s.nullable.read levels (b :: bs) =
      if Marker.ofByte b = .null then .ok (none, bs)
      else (some <$> s.read levels) (b :: bs) := by
  show (if Marker.ofByte b = .null then leaf >>= fun _ => pure none
    else some <$> s.read levels : Reader (Option α)) (b :: bs) = _
  split_ifs with null
  · have token : Token.read (b :: bs) = .ok (.nil, bs) := by
      show Token.ofMarker (Marker.ofByte b) bs = _
      rw [null]
      rfl
    show (Token.read (b :: bs) >>= fun (_, rest) => .ok (none, rest)) = _
    rw [token]
    rfl
  · rfl

/-- A value that may be missing is read back, if no value starts like nil. -/
theorem reads_nullable {s : Shape Reader α} {write : α → List UInt8} {levels : Nat}
    (o : Option α) (value : ∀ a ∈ o, Reads (s.read levels) (write a) a)
    (marked : ∀ a ∈ o, ∃ b bs, write a = b :: bs ∧ Marker.ofByte b ≠ .null) :
    Reads (s.nullable.read levels) (writeNullable write o) o := by
  intro rest
  cases o with
  | none => rfl
  | some a =>
      obtain ⟨b, bs, starts, other⟩ := marked a rfl
      have back := (value a rfl).map some rest
      simp only [writeNullable]
      rw [starts] at back ⊢
      simp only [List.cons_append, nullable_read, if_neg other] at back ⊢
      exact back

/-! ## Records -/

section Records

variable {σ : Type} {fields : List (Field Reader σ)} {f : Field Reader σ}
  {levels n : Nat} {d e : σ} {store : σ → σ}

theorem reads_readKey (name : String)
    (small : (Text.Utf8.encode name).length < byteRange 4)
    (found : fields.find?
      (fun f => Text.Utf8.encode f.name == Text.Utf8.encode name) = some f) :
    Reads (Record.readKey fields) (writeText name) (some f) := by
  refine (reads_textHeader small).bind_pure ?_
  simp only [Record.fieldOf, found]
  exact .pure _

/-- A field that is found by its name and has not come before is read
into the draft. -/
theorem reads_entry (name : String)
    (small : (Text.Utf8.encode name).length < byteRange 4)
    (found : fields.find?
      (fun f => Text.Utf8.encode f.name == Text.Utf8.encode name) = some f)
    (first : f.isSet d = false) (value : Reads (f.shape.read levels) xs store)
    (others : Reads (Record.readEntries fields levels n (store d)) ys e) :
    Reads (Record.readEntries fields levels (n + 1) d)
      (writeText name ++ xs ++ ys) e := by
  rw [List.append_assoc]
  refine (reads_readKey name small found).bind ?_
  simp only [first, Bool.false_eq_true, if_false]
  exact value.bind others

/-- A record is read from the map of its entries. -/
theorem reads_record {r : Record Reader σ α} (n : Nat) (count : n < byteRange 4)
    (entries : Reads (Record.readEntries r.fields levels n r.blank) xs d)
    (done : r.finish d = .ok a) :
    Reads (r.shape.read (levels + 1)) (mapHeader n ++ xs) a := by
  refine Reads.bind_pure (a := d) ?_ ?_
  · exact (reads_mapHeader count).bind entries
  · intro rest
    rw [done]
    rfl

end Records

end ElementAgent.MessagePack
