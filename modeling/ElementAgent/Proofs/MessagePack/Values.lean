import ElementAgent.Proofs.MessagePack.Reads
import Mathlib.Algebra.Group.Nat.Defs

/-!
# Values

The grammar of MessagePack, apart from any reader: `Spells t head` if the
bytes `head` spell a value without its elements, `IsValue depth bytes` if the
bytes are one value in which no more than `depth` containers are open at
once. Main statements:

* **skipping** takes exactly one value, of whatever form, off whatever follows it
  (`IsValue.reads_skip`);
* **reading** takes no more and no less than skipping, for every shape of which
  this is true of its parts (`Shape.IsTight`): numbers, texts, values that may be
  nil, and records, whether they are read from a map, from an array or from bytes
  (`Record.isTight`).
-/

namespace ElementAgent.MessagePack

/-! ## The grammar -/

/-- The bytes spell a value without its elements. The short forms hold their value
or length in the first byte, the long forms in `2 ^ k` bytes behind it. -/
inductive Spells : Token → List UInt8 → Prop
  | nil : Spells .nil [0xc0]
  | no : Spells (.bool false) [0xc2]
  | yes : Spells (.bool true) [0xc3]
  | fixPos {n : Nat} (small : n < 0x80) : Spells (.unsigned n) [UInt8.ofNat n]
  | unsigned {k n : Nat} (form : k < 4) (small : n < byteRange (2 ^ k)) :
      Spells (.unsigned n) (UInt8.ofNat (0xcc + k) :: bigEndian (2 ^ k) n)
  | fixNeg {n : Int} (negative : n < 0) (small : -0x20 ≤ n) :
      Spells (.signed n) (bigEndian 1 (twosComplement 1 n))
  | signed {k : Nat} {n : Int} (form : k < 4) (low : -byteRange (2 ^ k) ≤ 2 * n)
      (high : 2 * n < byteRange (2 ^ k)) :
      Spells (.signed n)
        (UInt8.ofNat (0xd0 + k) :: bigEndian (2 ^ k) (twosComplement (2 ^ k) n))
  | float32 (bits : UInt32) :
      Spells (.float (.ofBits32 bits)) (0xca :: bigEndian 4 bits.toNat)
  | float64 (bits : UInt64) :
      Spells (.float (.ofBits bits)) (0xcb :: bigEndian 8 bits.toNat)
  | fixStr {content : List UInt8} (short : content.length < 0x20) :
      Spells (.str content) (UInt8.ofNat (0xa0 + content.length) :: content)
  | str {k : Nat} {content : List UInt8} (form : k < 3)
      (fits : content.length < byteRange (2 ^ k)) :
      Spells (.str content)
        (UInt8.ofNat (0xd9 + k) :: (bigEndian (2 ^ k) content.length ++ content))
  | bin {k : Nat} {content : List UInt8} (form : k < 3)
      (fits : content.length < byteRange (2 ^ k)) :
      Spells (.bin content)
        (UInt8.ofNat (0xc4 + k) :: (bigEndian (2 ^ k) content.length ++ content))
  | fixArray {n : Nat} (small : n < 0x10) :
      Spells (.array n) [UInt8.ofNat (0x90 + n)]
  | array {k n : Nat} (form : k = 1 ∨ k = 2) (small : n < byteRange (2 ^ k)) :
      Spells (.array n) (UInt8.ofNat (0xdb + k) :: bigEndian (2 ^ k) n)
  | fixMap {n : Nat} (small : n < 0x10) : Spells (.map n) [UInt8.ofNat (0x80 + n)]
  | map {k n : Nat} (form : k = 1 ∨ k = 2) (small : n < byteRange (2 ^ k)) :
      Spells (.map n) (UInt8.ofNat (0xdd + k) :: bigEndian (2 ^ k) n)
  | fixExt {k : Nat} (form : k < 5) : Spells (.ext (2 ^ k)) [UInt8.ofNat (0xd4 + k)]
  | ext {k n : Nat} (form : k < 3) (small : n < byteRange (2 ^ k)) :
      Spells (.ext n) (UInt8.ofNat (0xc7 + k) :: bigEndian (2 ^ k) n)

/-- A key or an element with the value behind it. -/
def pairBytes (p : List UInt8 × List UInt8) : List UInt8 := p.1 ++ p.2

/-- The bytes are one value, in which no more than `depth` containers are
open at once. A text need not be UTF-8, and the type byte of an extension
may be any byte. -/
inductive IsValue : (depth : Nat) → List UInt8 → Prop
  | scalar {depth : Nat} {t : Token} {bytes : List UInt8} (spelled : Spells t bytes)
      (plain : t.isContainer = false) : IsValue depth bytes
  | array {depth n : Nat} {head : List UInt8} (items : List (List UInt8))
      (spelled : Spells (.array n) head) (count : items.length = n)
      (values : ∀ i ∈ items, IsValue depth i) :
      IsValue (depth + 1) (head ++ items.flatten)
  | map {depth n : Nat} {head : List UInt8} (pairs : List (List UInt8 × List UInt8))
      (spelled : Spells (.map n) head) (count : pairs.length = n)
      (keys : ∀ p ∈ pairs, IsValue depth p.1)
      (values : ∀ p ∈ pairs, IsValue depth p.2) :
      IsValue (depth + 1) (head ++ pairs.flatMap pairBytes)
  | ext {depth size : Nat} {head content : List UInt8}
      (spelled : Spells (.ext size) head)
      (type : UInt8) (whole : content.length = size) :
      IsValue (depth + 1) (head ++ type :: content)

/-! ## Heads are read as what they spell -/

theorem ofByte_unsigned :
    ∀ k < 4, Marker.ofByte (UInt8.ofNat (0xcc + k)) = .unsigned (2 ^ k) := by decide

theorem ofByte_signed :
    ∀ k < 4, Marker.ofByte (UInt8.ofNat (0xd0 + k)) = .signed (2 ^ k) := by decide

theorem ofByte_str :
    ∀ k < 3, Marker.ofByte (UInt8.ofNat (0xd9 + k)) = .str (2 ^ k) := by decide

theorem ofByte_bin :
    ∀ k < 3, Marker.ofByte (UInt8.ofNat (0xc4 + k)) = .bin (2 ^ k) := by decide

theorem ofByte_ext :
    ∀ k < 3, Marker.ofByte (UInt8.ofNat (0xc7 + k)) = .ext (2 ^ k) := by decide

theorem ofByte_fixExt :
    ∀ k < 5, Marker.ofByte (UInt8.ofNat (0xd4 + k)) = .fixExt (2 ^ k) := by decide

theorem ofByte_fixArray :
    ∀ n < 0x10, Marker.ofByte (UInt8.ofNat (0x90 + n)) = .fixArray n := by
  decide

theorem ofByte_array {k : Nat} (form : k = 1 ∨ k = 2) :
    Marker.ofByte (UInt8.ofNat (0xdb + k)) = .array (2 ^ k) := by
  rcases form with rfl | rfl <;> decide

theorem ofByte_map {k : Nat} (form : k = 1 ∨ k = 2) :
    Marker.ofByte (UInt8.ofNat (0xdd + k)) = .map (2 ^ k) := by
  rcases form with rfl | rfl <;> decide

/-- A head is its marker and what the marker asks for. -/
theorem reads_token {byte : UInt8} {m : Marker} {xs : List UInt8} {t : Token}
    (marker : Marker.ofByte byte = m) (rest : Reads (Token.ofMarker m) xs t) :
    Reads Token.read (byte :: xs) t :=
  (reads_takeMarker byte).bind (marker ▸ rest)

/-- A length and as many bytes. -/
theorem reads_counted {k : Nat} {content : List UInt8}
    (fits : content.length < byteRange (2 ^ k)) (f : List UInt8 → Token) :
    Reads (do return f (← takeContent (← takeNat (2 ^ k))))
      (bigEndian (2 ^ k) content.length ++ content)
      (f content) :=
  (reads_takeNat fits).bind ((reads_takeBytes .cutContent rfl).bind_pure (.pure _))

theorem Spells.reads {t : Token} {head : List UInt8} (h : Spells t head) :
    Reads Token.read head t := by
  cases h with
  | nil => exact reads_token (m := .null) (by decide) (.pure _)
  | no => exact reads_token (m := .no) (by decide) (.pure _)
  | yes => exact reads_token (m := .yes) (by decide) (.pure _)
  | fixPos small => exact reads_token (ofByte_fixPos small) (.pure _)
  | unsigned form small =>
      exact reads_token (ofByte_unsigned _ form)
        ((reads_takeNat small).map Token.unsigned)
  | fixNeg negative small =>
      exact reads_token (ofByte_fixNeg negative small) (.pure _)
  | signed form low high =>
      exact reads_token (ofByte_signed _ form)
        ((reads_takeInt _ low high).map Token.signed)
  | float32 bits =>
      refine reads_token (m := .float32) (by decide)
        ((reads_takeNat bits.toNat_lt).bind_pure ?_)
      rw [UInt32.ofNat_toNat]
      exact .pure _
  | float64 bits =>
      refine reads_token (m := .float64) (by decide)
        ((reads_takeNat bits.toNat_lt).bind_pure ?_)
      rw [UInt64.ofNat_toNat]
      exact .pure _
  | fixStr short =>
      exact reads_token (ofByte_fixStr _ short)
        ((reads_takeBytes .cutContent rfl).map Token.str)
  | str form fits =>
      exact reads_token (ofByte_str _ form) (reads_counted fits Token.str)
  | bin form fits =>
      exact reads_token (ofByte_bin _ form) (reads_counted fits Token.bin)
  | fixArray small => exact reads_token (ofByte_fixArray _ small) (.pure _)
  | array form small =>
      exact reads_token (ofByte_array form) ((reads_takeNat small).map Token.array)
  | fixMap small => exact reads_token (ofByte_fixMap _ small) (.pure _)
  | map form small =>
      exact reads_token (ofByte_map form) ((reads_takeNat small).map Token.map)
  | fixExt form => exact reads_token (ofByte_fixExt _ form) (.pure _)
  | ext form small =>
      exact reads_token (ofByte_ext _ form) ((reads_takeNat small).map Token.ext)

/-! ## Skipping -/

variable {levels more depth n : Nat} {bytes rest : List UInt8} {t : Token}

theorem reads_repeatRead {one : Reader Unit} {items : List (List UInt8)}
    (each : ∀ i ∈ items, Reads one i ()) :
    Reads (repeatRead one items.length) items.flatten () := by
  induction items with
  | nil => exact .pure ()
  | cons i items ih =>
      exact (each i List.mem_cons_self).bind
        (ih fun j listed => each j (List.mem_cons_of_mem _ listed))

theorem reads_repeatRead_pairs {one : Reader Unit}
    {pairs : List (List UInt8 × List UInt8)}
    (keys : ∀ p ∈ pairs, Reads one p.1 ())
    (values : ∀ p ∈ pairs, Reads one p.2 ()) :
    Reads (repeatRead one (2 * pairs.length)) (pairs.flatMap pairBytes) () := by
  induction pairs with
  | nil => exact .pure ()
  | cons p pairs ih =>
      have others := ih (fun q listed => keys q (List.mem_cons_of_mem _ listed))
        fun q listed => values q (List.mem_cons_of_mem _ listed)
      rw [List.flatMap_cons, pairBytes, List.append_assoc]
      exact (keys p List.mem_cons_self).bind
        ((values p List.mem_cons_self).bind others)

/-- Two readers in sequence succeed where both do. -/
theorem bind_eq_ok_iff {α β : Type} {p : Reader α} {f : α → Reader β} {b : β} :
    (p >>= f) bytes = .ok (b, rest) ↔
    ∃ a mid, p bytes = .ok (a, mid) ∧ f a mid = .ok (b, rest) := by
  show (p bytes >>= fun (a, mid) => f a mid) = _ ↔ _
  cases p bytes with
  | error e =>
      constructor
      · rintro ⟨⟩
      · rintro ⟨_, _, ⟨⟩, _⟩
  | ok out =>
      obtain ⟨a, mid⟩ := out
      constructor
      · exact fun second => ⟨a, mid, rfl, second⟩
      · rintro ⟨_, _, ⟨⟩, second⟩
        exact second

theorem map_eq_ok_iff {α β : Type} {p : Reader α} {f : α → β} {b : β} :
    (f <$> p) bytes = .ok (b, rest) ↔ ∃ a, p bytes = .ok (a, rest) ∧ f a = b := by
  show (p bytes >>= fun (a, mid) => pure (f a, mid)) = _ ↔ _
  cases p bytes with
  | error e =>
      constructor
      · rintro ⟨⟩
      · rintro ⟨_, ⟨⟩, _⟩
  | ok out =>
      constructor
      · rintro ⟨⟩
        exact ⟨_, rfl, rfl⟩
      · rintro ⟨_, ⟨⟩, rfl⟩
        rfl

/-- A value without elements is skipped with its head. -/
theorem skip_of_plain (read : Token.read bytes = .ok (t, rest))
    (plain : t.isContainer = false)
    (levels : Nat) : skip Reader levels bytes = .ok ((), rest) := by
  cases levels with
  | zero =>
      refine bind_eq_ok_iff.mpr ⟨t, rest, read, ?_⟩
      rw [plain]
      rfl
  | succ levels =>
      refine bind_eq_ok_iff.mpr ⟨t, rest, read, ?_⟩
      cases t <;> first | rfl | cases plain

/-- A value is skipped as a whole, and nothing behind it. -/
theorem IsValue.reads_skip (h : IsValue depth bytes) (deep : depth ≤ levels) :
    Reads (skip Reader levels) bytes () := by
  induction h generalizing levels with
  | scalar spelled plain =>
      exact fun rest => skip_of_plain (spelled.reads rest) plain levels
  | array items spelled count values ih =>
      obtain ⟨levels, rfl⟩ := Nat.exists_eq_add_of_lt deep
      refine spelled.reads.bind ?_
      subst count
      exact reads_repeatRead fun i listed => ih i listed (by omega)
  | map pairs spelled count keys values keys_ih values_ih =>
      obtain ⟨levels, rfl⟩ := Nat.exists_eq_add_of_lt deep
      refine spelled.reads.bind ?_
      subst count
      exact reads_repeatRead_pairs (fun p listed => keys_ih p listed (by omega))
        fun p listed => values_ih p listed (by omega)
  | ext spelled type whole =>
      obtain ⟨levels, rfl⟩ := Nat.exists_eq_add_of_lt deep
      refine spelled.reads.bind ?_
      have one : [type].length = 1 := rfl
      have kind : Reads (takeNat 1) [type] (ofBigEndian [type]) :=
        (reads_takeBytes .cutNumber one).map ofBigEndian
      exact kind.bind ((reads_takeBytes .cutContent whole).bind_pure (.pure _))

theorem repeatRead_mono {one other : Reader Unit}
    (mono : ∀ bytes rest, one bytes = .ok ((), rest) → other bytes = .ok ((), rest))
    (read : repeatRead one n bytes = .ok ((), rest)) :
    repeatRead other n bytes = .ok ((), rest) := by
  induction n generalizing bytes with
  | zero => exact read
  | succ n ih =>
      obtain ⟨⟨⟩, mid, first, others⟩ := bind_eq_ok_iff.mp read
      exact bind_eq_ok_iff.mpr ⟨(), mid, mono _ _ first, ih others⟩

theorem skipContent_mono {one other : Reader Unit}
    (mono : ∀ bytes rest, one bytes = .ok ((), rest) → other bytes = .ok ((), rest))
    (read : skipContent one t bytes = .ok ((), rest)) :
    skipContent other t bytes = .ok ((), rest) := by
  cases t with
  | array count => exact repeatRead_mono mono read
  | map count => exact repeatRead_mono mono read
  | _ => exact read

/-- What is skipped is skipped as well where more containers may be open. -/
theorem skip_mono (read : skip Reader levels bytes = .ok ((), rest))
    (le : levels ≤ more) :
    skip Reader more bytes = .ok ((), rest) := by
  induction levels generalizing bytes rest more with
  | zero =>
      obtain ⟨t, mid, first, last⟩ := bind_eq_ok_iff.mp read
      cases plain : t.isContainer with
      | true =>
          rw [plain] at last
          cases last
      | false =>
          rw [plain] at last
          cases last
          exact skip_of_plain first plain more
  | succ levels ih =>
      obtain ⟨more, rfl⟩ := Nat.exists_eq_add_of_lt le
      obtain ⟨t, mid, first, content⟩ := bind_eq_ok_iff.mp read
      refine bind_eq_ok_iff.mpr ⟨t, mid, first, ?_⟩
      exact skipContent_mono (fun _ _ inner => ih inner (by omega)) content

/-- A value ends where it is skipped to. -/
theorem IsValue.rest_eq {after : List UInt8} (h : IsValue depth bytes)
    (read : skip Reader levels (bytes ++ rest) = .ok ((), after)) :
    after = rest := by
  have whole := h.reads_skip (Nat.le_max_left depth levels) rest
  have same := whole.symm.trans (skip_mono read (Nat.le_max_right depth levels))
  exact (Prod.mk.inj (Except.ok.inj same)).2.symm

/-! ## Reading -/

/-- Where the reader succeeds it takes what would be skipped. -/
def TakesValue {α : Type} (levels : Nat) (p : Reader α) : Prop :=
  ∀ bytes a rest, p bytes = .ok (a, rest) →
    skip Reader levels bytes = .ok ((), rest)

/-- A shape whose values are values, no more and no less. -/
def Shape.IsTight {α : Type} (s : Shape Reader α) : Prop :=
  ∀ levels, TakesValue levels (s.read levels)

variable {α β : Type}

theorem TakesValue.map {p : Reader α} (h : TakesValue levels p) (f : α → β) :
    TakesValue levels (f <$> p) := by
  intro bytes b rest read
  obtain ⟨a, first, -⟩ := map_eq_ok_iff.mp read
  exact h _ _ _ first

/-- What needs no bytes takes none. -/
theorem lift_eq_ok_iff {x : Except Fault α} {a : α} :
    (x : Reader α) bytes = .ok (a, rest) ↔ x = .ok a ∧ bytes = rest := by
  cases x with
  | error e =>
      constructor
      · rintro ⟨⟩
      · rintro ⟨⟨⟩, _⟩
  | ok b =>
      constructor
      · rintro ⟨⟩
        exact ⟨rfl, rfl⟩
      · rintro ⟨⟨⟩, rfl⟩
        rfl

/-- A token that is refused gives nothing. -/
theorem Token.refuse_ne_ok (t : Token) (wanted : Wanted) (a : α) :
    t.refuse wanted ≠ .ok a := by
  unfold Token.refuse
  split <;> exact fun found => nomatch found

/-- What tokens without elements tell, and no others; others are refused, but not
for their depth. -/
structure IsPlain (f : Token → Except Fault α) : Prop where
  scalar : ∀ {t a}, f t = .ok a → t.isContainer = false
  shallow : ∀ t, f t ≠ .error .tooDeep

theorem Token.refuse_ne_tooDeep (t : Token) (wanted : Wanted) :
    (t.refuse wanted : Except Fault α) ≠ .error .tooDeep := by
  unfold Token.refuse
  cases t with
  | str content =>
      unfold Token.found
      dsimp only
      cases Text.Utf8.decode content <;> exact fun deep => nomatch deep
  | _ => nofun

theorem isPlain_refuse (wanted : Wanted) :
    IsPlain fun t => (t.refuse wanted : Except Fault α) where
  scalar refused := absurd refused (Token.refuse_ne_ok _ wanted _)
  shallow t := t.refuse_ne_tooDeep wanted

theorem isPlain_integer (wanted : Wanted) (low high : Int) :
    IsPlain (Token.integer wanted low high) where
  scalar {t n} value := by
    cases t with
    | array count | map count | ext size => cases value
    | _ => rfl
  shallow t := by
    cases t with
    | unsigned n | signed n =>
        unfold Token.integer
        dsimp only
        split_ifs <;> nofun
    | str content => exact Token.refuse_ne_tooDeep (.str content) wanted
    | _ => nofun

theorem isPlain_text : IsPlain Token.text where
  scalar {t s} value := by
    cases t with
    | array count | map count | ext size => cases value
    | _ => rfl
  shallow t := by
    cases t with
    | str content | bin content =>
        unfold Token.text
        dsimp only
        split <;> nofun
    | _ => nofun

theorem takesValue_leaf {f : Token → Except Fault α} (plain : IsPlain f)
    (levels : Nat) :
    TakesValue levels (do check (f (← leaf)) : Reader α) := by
  intro bytes a rest read
  obtain ⟨t, after, head, read⟩ := bind_eq_ok_iff.mp read
  obtain ⟨value, rfl⟩ := lift_eq_ok_iff.mp read
  exact skip_of_plain head (plain.scalar value) levels

theorem takesValue_readInteger (levels : Nat) (wanted : Wanted) (low high : Int) :
    TakesValue levels (readInteger wanted low high) := by
  intro bytes n rest read
  cases bytes with
  | nil => cases read
  | cons b bytes =>
      rw [readInteger_cons] at read
      split_ifs at read
      exact takesValue_leaf (isPlain_integer wanted low high) levels _ _ _ read

theorem takesValue_readText (levels : Nat) : TakesValue levels readText :=
  takesValue_leaf isPlain_text levels

theorem isTight_unsigned64 : Shape.unsigned64.IsTight :=
  fun levels => (takesValue_readInteger levels _ _ _).map _

theorem isTight_signed32 : Shape.signed32.IsTight :=
  fun levels => (takesValue_readInteger levels _ _ _).map _

theorem isTight_text : Shape.text.IsTight := takesValue_readText

/-- A value that may be nil is nil, or is read by its shape. -/
theorem nullable_eq_ok {s : Shape Reader α} {o : Option α}
    (read : s.nullable.read levels bytes = .ok (o, rest)) :
    Token.read bytes = .ok (.nil, rest) ∨
    ∃ a, s.read levels bytes = .ok (a, rest) := by
  cases bytes with
  | nil => cases read
  | cons b _ =>
      by_cases null : Marker.ofByte b = .null
      · simp only [nullable_read, if_pos null] at read
        cases read
        exact .inl (reads_token (t := .nil) null (.pure _) rest)
      · simp only [nullable_read, if_neg null] at read
        obtain ⟨a, value, -⟩ := map_eq_ok_iff.mp read
        exact .inr ⟨a, value⟩

theorem Shape.IsTight.nullable {s : Shape Reader α} (h : s.IsTight) :
    s.nullable.IsTight := by
  intro levels bytes o rest read
  rcases nullable_eq_ok read with nil | ⟨a, value⟩
  · exact skip_of_plain nil rfl levels
  · exact h levels _ _ _ value

theorem Shape.IsTight.field {σ : Type} {s : Shape Reader α} (h : s.IsTight)
    (name : String) (get : σ → Option α)
    (set : α → σ → σ) : (Field.of name get set s).shape.IsTight :=
  fun levels => (h levels).map set

/-! ## Records -/

section Records

variable {σ : Type} {fields : List (Field Reader σ)} {short : Fault} {d e : σ}

theorem isPlain_fieldOf {m : Type → Type} (fields : List (Field m σ)) :
    IsPlain (Record.fieldOf fields) where
  scalar {t found} value := by
    cases t with
    | array count | map count | ext size => cases value
    | _ => rfl
  shallow t := by
    cases t <;> nofun

theorem takesValue_readKey (levels : Nat) :
    TakesValue levels (Record.readKey fields) :=
  takesValue_leaf (isPlain_fieldOf fields) levels

/-- A token that names a field of the record names one of its fields. -/
theorem mem_of_fieldOf {m : Type → Type} {fields : List (Field m σ)} {f : Field m σ}
    (named : Record.fieldOf fields t = .ok (some f)) : f ∈ fields := by
  cases t with
  | str name | bin name => exact List.mem_of_find?_eq_some (Except.ok.inj named)
  | unsigned n => exact List.mem_of_getElem? (Except.ok.inj named)
  | _ => cases named

/-- A key that is read names a field of the record, or none. -/
theorem mem_of_readKey {f : Field Reader σ}
    (read : Record.readKey fields bytes = .ok (some f, rest)) :
    f ∈ fields := by
  obtain ⟨t, after, head, read⟩ := bind_eq_ok_iff.mp read
  exact mem_of_fieldOf (lift_eq_ok_iff.mp read).1

theorem repeatRead_succ {one : Reader Unit} {mid : List UInt8}
    (first : one bytes = .ok ((), mid))
    (others : repeatRead one n mid = .ok ((), rest)) :
    repeatRead one (n + 1) bytes = .ok ((), rest) :=
  bind_eq_ok_iff.mpr ⟨(), mid, first, others⟩

/-- The pairs of a map are two values each. -/
theorem repeatRead_of_readEntries (tight : ∀ f ∈ fields, f.shape.IsTight)
    (read : Record.readEntries fields levels n d bytes = .ok (e, rest)) :
    repeatRead (skip Reader levels) (2 * n) bytes = .ok ((), rest) := by
  induction n generalizing d bytes with
  | zero =>
      cases read
      rfl
  | succ n ih =>
      obtain ⟨found, mid, key, read⟩ := bind_eq_ok_iff.mp read
      refine repeatRead_succ (takesValue_readKey levels _ _ _ key) ?_
      cases found with
      | none =>
          obtain ⟨⟨⟩, after, value, others⟩ := bind_eq_ok_iff.mp read
          exact repeatRead_succ value (ih others)
      | some f =>
          by_cases again : f.isSet d = true
          · simp only [again, if_true] at read
            cases read
          · simp only [if_neg again] at read
            obtain ⟨store, after, value, others⟩ := bind_eq_ok_iff.mp read
            exact repeatRead_succ (tight f (mem_of_readKey key) levels _ _ _ value)
              (ih others)

/-- The elements of an array are one value each. -/
theorem repeatRead_of_readElements (tight : ∀ f ∈ fields, f.shape.IsTight)
    (read : Record.readElements short levels fields n d bytes = .ok (e, rest)) :
    fields.length ≤ n ∧ repeatRead (skip Reader levels) fields.length bytes =
      .ok ((), rest) := by
  induction fields generalizing n d bytes with
  | nil =>
      cases read
      exact ⟨Nat.zero_le n, rfl⟩
  | cons f fields ih =>
      cases n with
      | zero => cases read
      | succ n =>
          obtain ⟨store, after, value, others⟩ := bind_eq_ok_iff.mp read
          obtain ⟨enough, rest⟩ :=
            ih (fun g listed => tight g (List.mem_cons_of_mem _ listed)) others
          exact ⟨Nat.succ_le_succ enough,
            repeatRead_succ (tight f List.mem_cons_self levels _ _ _ value) rest⟩

/-- Bytes that have been taken are read into a draft with no more bytes. -/
theorem exists_lift_ofBytes (short : Fault) (fields : List (Field Reader σ))
    (content : List UInt8) (d : σ) :
    ∃ x : Except Fault σ, Record.ofBytes short fields content d =
      (x : Reader σ) := by
  induction fields generalizing content d with
  | nil => exact ⟨.ok d, rfl⟩
  | cons f fields ih =>
      cases content with
      | nil => exact ⟨.error short, rfl⟩
      | cons b content =>
          have first : Record.ofBytes short (f :: fields) (b :: content) d =
              (f.shape.ofByte b : Reader (σ → σ)) >>= fun store =>
                Record.ofBytes short fields content (store d) := rfl
          rw [first]
          cases f.shape.ofByte b with
          | error e => exact ⟨.error e, rfl⟩
          | ok store => exact ih content (store d)

/-- A record takes what would be skipped, however it is spelled. -/
theorem Record.isTight {r : Record Reader σ α}
    (tight : ∀ f ∈ r.fields, f.shape.IsTight) : r.shape.IsTight := by
  intro levels bytes a rest read
  obtain ⟨d, after, draft, done⟩ := bind_eq_ok_iff.mp read
  obtain ⟨t, mid, head, draft⟩ := bind_eq_ok_iff.mp draft
  obtain ⟨-, rfl⟩ := lift_eq_ok_iff.mp done
  cases t with
  | map n =>
      cases levels with
      | zero => cases draft
      | succ levels =>
          exact bind_eq_ok_iff.mpr
            ⟨_, mid, head, repeatRead_of_readEntries tight draft⟩
  | array n =>
      cases levels with
      | zero => cases draft
      | succ levels =>
          obtain ⟨e, end_, elements, whole⟩ := bind_eq_ok_iff.mp draft
          obtain ⟨enough, items⟩ := repeatRead_of_readElements tight elements
          by_cases surplus : r.fields.length < n
          · rw [if_pos surplus] at whole
            cases whole
          · rw [if_neg surplus] at whole
            cases whole
            have count : r.fields.length = n :=
              Nat.le_antisymm enough (Nat.le_of_not_lt surplus)
            exact bind_eq_ok_iff.mpr ⟨_, mid, head, count ▸ items⟩
  | bin content =>
      obtain ⟨x, same⟩ := exists_lift_ofBytes _ r.fields content r.blank
      obtain ⟨-, rfl⟩ := lift_eq_ok_iff.mp ((congrFun same mid).symm.trans draft)
      exact skip_of_plain head rfl levels
  | _ => exact absurd (lift_eq_ok_iff.mp draft).1 (Token.refuse_ne_ok _ _ _)

end Records

end ElementAgent.MessagePack
