import ElementAgent.Proofs.MessagePack.Values

/-!
# Reading with a log

A metered reader reads as a reader does and keeps a log of the values that it
comes to (`Metered`): how many bytes are left when a value begins, how many
containers are open around it, and whether it is a container that is to be opened.
It is one more way of reading values one by one, so everything that is written for
any such way is metered as it stands: skipping, the shapes, the records.

Without its log a metered reader is a reader (`Metered.erase`), and what is
written once for both is the same in both: **skipping** (`erase_skip`), **values
that may be nil** (`erase_nullable`) and **records** (`Record.erase_shape`).
-/

namespace ElementAgent.MessagePack

variable {α β σ τ : Type}

/-- A value that a reader comes to. -/
structure Visit where
  /-- How many bytes are left, the first one of the value among them. -/
  left : Nat
  /-- How many containers are open around it. -/
  depth : Nat
  /-- It is a container that is to be opened. -/
  opens : Bool
  deriving DecidableEq

/-- The value as it is seen from outside of the container that it is in. -/
def Visit.within (v : Visit) : Visit := { v with depth := v.depth + 1 }

/-- A reader that logs the values it comes to, in the order in
which they begin. -/
def Metered (α : Type) : Type :=
  List UInt8 → Except Fault (α × List UInt8) × List Visit

namespace Metered

protected def bind (p : Metered α) (f : α → Metered β) : Metered β := fun bytes =>
  match p bytes with
  | (.ok (a, rest), log) => ((f a rest).1, log ++ (f a rest).2)
  | (.error e, log) => (.error e, log)

instance : Monad Metered where
  pure a := fun bytes => (.ok (a, bytes), [])
  bind := Metered.bind

/-- Reads what begins no value. -/
def silent (q : Reader α) : Metered α := fun bytes => (q bytes, [])

/-- A token is logged, unless there are no more bytes and so no value. -/
instance : Scanner Metered where
  check x := silent x
  peek := silent peekMarker
  token opens := fun bytes =>
    let opening := match Token.read bytes with
      | .ok (t, _) => opens t
      | .error _ => false
    (Token.read bytes, if bytes.isEmpty then [] else [⟨bytes.length, 0, opening⟩])
  content size := silent (content size)
  used left := fun bytes => (.ok ((), bytes), [⟨bytes.length + left, 0, false⟩])
  inside p := fun bytes => ((p bytes).1, (p bytes).2.map Visit.within)

/-! ## Logs -/

section

variable {opens : Token → Bool} {f : Token → Metered α} {t : Token}
  {bytes rest : List UInt8}

/-- Where a token is not read nothing is read behind it. -/
theorem token_bind_of_error {e : Fault} (read : Token.read bytes = .error e) :
    (token opens >>= f) bytes =
      (.error e, if bytes.isEmpty then [] else [⟨bytes.length, 0, false⟩]) := by
  show Metered.bind (token opens) f bytes = _
  simp only [Metered.bind, token, read]

/-- What is read behind a token comes behind it in the log. -/
theorem token_bind_of_ok (read : Token.read bytes = .ok (t, rest)) :
    (token opens >>= f) bytes =
      ((f t rest).1, ⟨bytes.length, 0, opens t⟩ :: (f t rest).2) := by
  cases bytes with
  | nil => cases read
  | cons b bytes =>
      show Metered.bind (token opens) f (b :: bytes) = _
      simp only [Metered.bind, token, read]
      rfl

/-- The next marker is looked at, and read again with its value. -/
theorem peek_bind {g : Marker → Metered α} (b : UInt8) (bytes : List UInt8) :
    (peek >>= g) (b :: bytes) = g (Marker.ofByte b) (b :: bytes) := rfl

end

/-! ## Without the log -/

/-- The reader without its log. -/
def erase (p : Metered α) : Reader α := fun bytes => (p bytes).1

@[simp]
theorem erase_pure (a : α) : erase (pure a) = pure a := rfl

@[simp]
theorem erase_bind (p : Metered α) (f : α → Metered β) :
    erase (p >>= f) = p.erase >>= fun a => (f a).erase := by
  funext bytes
  show (Metered.bind p f bytes).1 =
    ((p bytes).1 >>= fun (a, rest) => ((f a) rest).1)
  unfold Metered.bind
  rcases p bytes with ⟨_ | ⟨a, rest⟩, log⟩ <;> rfl

@[simp]
theorem erase_map (f : α → β) (p : Metered α) : erase (f <$> p) = f <$> p.erase :=
  (erase_bind p fun a => pure (f a)).trans (map_eq_pure_bind f p.erase).symm

@[simp]
theorem erase_check (x : Except Fault α) : erase (check x) = check x := rfl

@[simp]
theorem erase_peek : erase peek = peek := rfl

@[simp]
theorem erase_token (opens : Token → Bool) :
    erase (token opens) = token opens := rfl

@[simp]
theorem erase_leaf : erase leaf = leaf := rfl

@[simp]
theorem erase_fail (e : Fault) : erase (fail e : Metered α) = fail e := rfl

@[simp]
theorem erase_used (left : Nat) : erase (used left) = pure () := rfl

@[simp]
theorem erase_inside (p : Metered α) : erase (inside p) = p.erase := rfl

@[simp]
theorem erase_repeatRead (one : Metered Unit) (n : Nat) :
    erase (repeatRead one n) = repeatRead one.erase n := by
  induction n with
  | zero => rfl
  | succ n ih => rw [repeatRead, erase_bind, ih, repeatRead]

@[simp]
theorem erase_skipContent (inner : Metered Unit) (t : Token) :
    erase (skipContent inner t) = skipContent inner.erase t := by
  cases t with
  | array count | map count => exact erase_repeatRead inner _
  | _ => rfl

@[simp]
theorem erase_skip (levels : Nat) :
    erase (skip Metered levels) = skip Reader levels := by
  induction levels with
  | zero =>
      rw [skip, erase_bind, skip]
      congr
      funext t
      cases t.isContainer <;> rfl
  | succ levels ih =>
      rw [skip, erase_bind, skip]
      congr
      funext t
      rw [erase_skipContent, ih]

end Metered

/-! ## Shapes -/

open Metered (erase_bind erase_map)

theorem erase_readInteger (wanted : Wanted) (low high : Int) :
    (readInteger wanted low high : Metered Int).erase =
    readInteger wanted low high := by
  unfold readInteger
  rw [erase_bind, Metered.erase_peek]
  congr
  funext marker
  split_ifs
  · exact erase_bind _ _
  · rfl

theorem erase_readText : (readText : Metered String).erase = readText :=
  erase_bind _ _

namespace Shape

/-- The shape read without a log. -/
def erase (s : Shape Metered α) : Shape Reader α where
  read levels := (s.read levels).erase
  ofByte := s.ofByte

theorem erase_unsigned64 :
    (unsigned64 : Shape Metered UInt64).erase = unsigned64 := by
  unfold erase unsigned64
  simp only [erase_map, erase_readInteger]

theorem erase_signed32 : (signed32 : Shape Metered Int32).erase = signed32 := by
  unfold erase signed32
  simp only [erase_map, erase_readInteger]

theorem erase_text : (text : Shape Metered String).erase = text := by
  unfold erase text
  simp only [erase_readText]

theorem erase_nullable (s : Shape Metered α) :
    s.nullable.erase = s.erase.nullable := by
  unfold erase nullable
  congr
  funext levels
  rw [erase_bind, Metered.erase_peek]
  congr
  funext marker
  split_ifs
  · exact erase_bind _ _
  · exact erase_map some (s.read levels)

end Shape

/-! ## Records -/

/-- The field read without a log. -/
def Field.erase (f : Field Metered σ) : Field Reader σ where
  name := f.name
  isSet := f.isSet
  shape := f.shape.erase

theorem Field.erase_of (name : String) (get : σ → Option α) (set : α → σ → σ)
    (s : Shape Metered α) :
    (Field.of name get set s).erase = Field.of name get set s.erase := by
  unfold Field.erase Field.of Shape.erase
  simp only [Metered.erase_map]

namespace Record

/-- The record read without a log. -/
def erase (r : Record Metered σ α) : Record Reader σ α where
  name := r.name
  fields := r.fields.map Field.erase
  blank := r.blank
  finish := r.finish

variable {fields : List (Field Metered σ)} {levels : Nat}

/-- A token names the same field, however that is read. -/
theorem fieldOf_erase (fields : List (Field Metered σ)) (t : Token) :
    fieldOf (fields.map Field.erase) t =
      Option.map Field.erase <$> fieldOf fields t := by
  cases t with
  | str name | bin name =>
      simp only [fieldOf, List.find?_map]
      rfl
  | unsigned n =>
      simp only [fieldOf, List.getElem?_map]
      rfl
  | _ => rfl

theorem readKey_erase (fields : List (Field Metered σ)) :
    readKey (fields.map Field.erase) =
      Option.map Field.erase <$> (readKey fields).erase := by
  unfold readKey
  rw [erase_bind, Metered.erase_leaf, map_bind]
  congr
  funext t
  rw [fieldOf_erase]
  cases fieldOf fields t <;> rfl

theorem erase_readEntries (n : Nat) (d : σ) :
    (readEntries fields levels n d).erase =
      readEntries (fields.map Field.erase) levels n d := by
  induction n generalizing d with
  | zero => rfl
  | succ n ih =>
      rw [readEntries, erase_bind, readEntries, readKey_erase, bind_map_left]
      congr
      funext found
      cases found with
      | none =>
          show Metered.erase (_ >>= _) = _
          rw [erase_bind, Metered.erase_skip]
          simp only [ih]
          rfl
      | some f =>
          dsimp only [Option.map, Field.erase]
          by_cases set : f.isSet d = true
          · rw [if_pos set, if_pos set]
            rfl
          · rw [if_neg set, if_neg set, erase_bind]
            simp only [ih]
            rfl

theorem erase_readElements (short : Fault) (n : Nat) (d : σ) :
    (readElements short levels fields n d).erase =
      readElements short levels (fields.map Field.erase) n d := by
  induction fields generalizing n d with
  | nil => rfl
  | cons f fields ih =>
      cases n with
      | zero => rfl
      | succ n =>
          rw [readElements, erase_bind, List.map_cons, readElements]
          simp only [ih]
          rfl

theorem erase_ofBytes (short : Fault) (content : List UInt8) (d : σ) :
    (ofBytes short fields content d).erase =
      ofBytes short (fields.map Field.erase) content d := by
  induction fields generalizing content d with
  | nil => rfl
  | cons f fields ih =>
      cases content with
      | nil => rfl
      | cons b content =>
          rw [ofBytes, erase_bind, List.map_cons, ofBytes]
          simp only [erase_bind, ih]
          rfl

theorem erase_enter (content : Nat → Metered σ) :
    (enter levels content).erase = enter levels fun levels =>
      (content levels).erase := by
  cases levels <;> rfl

theorem erase_readDraft (r : Record Metered σ α) :
    (r.readDraft levels).erase = r.erase.readDraft levels := by
  unfold readDraft
  rw [erase_bind, Metered.erase_token]
  congr
  funext t
  cases t with
  | map n => simp only [erase_enter, erase_readEntries, erase]
  | array n =>
      simp only [erase_enter, erase_bind, erase_readElements, erase,
        List.length_map]
      congr
      funext levels
      congr
      funext d
      split_ifs <;> rfl
  | bin content => simp only [erase_ofBytes, erase, List.length_map]
  | _ => rfl

theorem erase_shape (r : Record Metered σ α) : r.shape.erase = r.erase.shape := by
  unfold Shape.erase shape
  congr
  funext levels
  rw [erase_bind, erase_readDraft]
  rfl

end Record

end ElementAgent.MessagePack
