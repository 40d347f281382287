import ElementAgent.Proofs.MessagePack.Locality
import ElementAgent.Proofs.MessagePack.Walks

/-!
# What readers log

A run accounts for what it does if its log is that of a walk through the
values that it is to read, as far as it gets with them, and if it fails for
depth just where one container more than may be was to be opened
(`Accounts`). Main statements:

* **composition**: readers in sequence account for the values of both
  (`Accounts.bind`), a container for itself with its elements
  (`Accounts.container`);
* **skipping** accounts for one value (`accounts_skip`), and so do numbers, texts,
  values that may be nil and records (`Shape.IsAccounted`,
  `Record.isAccounted_shape`).
-/

namespace ElementAgent.MessagePack

variable {α β σ τ : Type} {bytes rest : List UInt8} {levels n k : Nat}

/-! ## Readers that open nothing -/

/-- The reader does not fail for depth. -/
def IsShallow (q : Reader α) : Prop := ∀ bytes, q bytes ≠ .error .tooDeep

namespace IsShallow

variable {q : Reader α}

/-- What needs no bytes. -/
theorem lift {x : Except Fault α} (other : x ≠ .error .tooDeep) :
    IsShallow (x : Reader α) := by
  intro bytes deep
  cases x with
  | ok a => cases deep
  | error e =>
      cases deep
      exact other rfl

protected theorem pure (a : α) : IsShallow (pure a) := lift (x := .ok a) nofun

protected theorem throw {e : Fault} (other : e ≠ .tooDeep) :
    IsShallow (throw e : Reader α) :=
  lift (x := .error e) fun same => other (Except.error.inj same)

protected theorem bind {f : α → Reader β} (first : IsShallow q)
    (second : ∀ a, IsShallow (f a)) :
    IsShallow (q >>= f) := by
  intro bytes deep
  rcases bind_eq_error_iff.mp deep with failed | ⟨a, mid, -, failed⟩
  · exact first bytes failed
  · exact second a mid failed

protected theorem map (f : α → β) (h : IsShallow q) : IsShallow (f <$> q) :=
  show IsShallow (q >>= fun a => pure (f a)) from h.bind fun a => .pure (f a)

end IsShallow

theorem isShallow_takeBytes {short : Fault} (other : short ≠ .tooDeep) (n : Nat) :
    IsShallow (takeBytes short n) := by
  intro bytes deep
  unfold takeBytes at deep
  dsimp only at deep
  split_ifs at deep
  exact other (Except.error.inj deep)

theorem isShallow_takeNat (width : Nat) : IsShallow (takeNat width) :=
  (isShallow_takeBytes (show Fault.cutNumber ≠ .tooDeep from nofun) width).map _

theorem isShallow_takeContent (n : Nat) : IsShallow (takeContent n) :=
  isShallow_takeBytes (show Fault.cutContent ≠ .tooDeep from nofun) n

theorem isShallow_takeMarker : IsShallow takeMarker := by
  intro bytes deep
  cases bytes <;> cases deep

/-- A length and as many bytes. -/
theorem isShallow_counted (width : Nat) (f : List UInt8 → Token) :
    IsShallow (do return f (← takeContent (← takeNat width))) :=
  (isShallow_takeNat width).bind fun n =>
    (isShallow_takeContent n).bind fun _ => .pure _

theorem isShallow_ofMarker (m : Marker) : IsShallow (Token.ofMarker m) := by
  cases m with
  | fixPos n | fixMap n | fixArray n | null | no | yes | fixExt n | fixNeg n =>
      exact .pure _
  | reserved => exact .throw nofun
  | fixStr n => exact (isShallow_takeContent n).map _
  | bin width | str width => exact isShallow_counted width _
  | ext width | unsigned width | array width | map width =>
      exact (isShallow_takeNat width).map _
  | signed width => exact ((isShallow_takeNat width).map _).map _
  | float32 => exact (isShallow_takeNat 4).bind fun _ => .pure _
  | float64 => exact (isShallow_takeNat 8).bind fun _ => .pure _

theorem isShallow_read : IsShallow Token.read :=
  isShallow_takeMarker.bind isShallow_ofMarker

theorem isShallow_content (size : Nat) : IsShallow (content size) :=
  (isShallow_takeNat 1).bind fun _ =>
    (isShallow_takeContent size).bind fun _ => .pure ()

theorem ne_nil_of_token {t : Token} (token : Token.read bytes = .ok (t, rest)) :
    bytes ≠ [] := by
  rintro rfl
  cases token

/-! ## Accounts -/

/-- What is left behind what was read; nothing where reading failed. -/
def restOf : Except Fault (α × List UInt8) → Option (List UInt8)
  | .ok (_, rest) => some rest
  | .error _ => none

/-- The log of a run that is to read `n` values, where at most `levels` containers
may be open. -/
structure Accounts (levels n : Nat) (bytes : List UInt8)
    (run : Except Fault (α × List UInt8) × List Visit) : Prop where
  walk : Walk 0 n bytes run.2 (restOf run.1)
  /-- No more containers are open around a value than may be. -/
  shallow : ∀ v ∈ run.2, v.depth ≤ levels
  /-- Reading fails for depth where a container was to be opened inside of as many
  as may be. -/
  deep : run.1 = .error .tooDeep ↔ ∃ v ∈ run.2, v.depth = levels ∧ v.opens = true

namespace Accounts

/-- A run that has no log. -/
theorem silent {out : Except Fault (α × List UInt8)}
    (walk : Walk 0 n bytes [] (restOf out))
    (other : out ≠ .error .tooDeep) : Accounts levels n bytes (out, []) where
  walk := walk
  shallow := by rintro _ ⟨⟩
  deep := ⟨fun deep => absurd deep other, by rintro ⟨_, ⟨⟩, _⟩⟩

protected theorem pure (a : α) :
    Accounts levels 0 bytes ((pure a : Metered α) bytes) :=
  silent .done nofun

/-- Reading fails between two values. -/
theorem fail {e : Fault} (other : e ≠ .tooDeep) :
    Accounts levels n bytes ((fail e : Metered α) bytes) :=
  silent .stop fun deep => other (Except.error.inj deep)

/-- What is decided without reading. -/
theorem check {x : Except Fault α} (other : x ≠ .error .tooDeep) :
    Accounts levels 0 bytes ((check x : Metered α) bytes) := by
  cases x with
  | ok a => exact .pure a
  | error e => exact .fail fun same => other (congrArg Except.error same)

/-- Reading fails at a value. -/
theorem broken {e : Fault} {opens : Bool} (begun : bytes ≠ [])
    (deep : e = .tooDeep ↔ levels = 0 ∧ opens = true) :
    Accounts levels 1 bytes
      ((.error e, [⟨bytes.length, 0, opens⟩]) : Except Fault (α × List UInt8) ×
        List Visit) where
  walk := .broken opens begun
  shallow := by simp
  deep := by simpa [eq_comm (a := 0)] using deep

/-- A value that has no elements. -/
theorem scalar {t : Token} (token : Token.read bytes = .ok (t, rest))
    (plain : t.isContainer = false) (a : α) :
    Accounts levels 1 bytes (.ok (a, rest), [⟨bytes.length, 0, false⟩]) where
  walk := .scalar token plain
  shallow := by simp
  deep := by simp

/-- The second log is put behind the first, unless the first reader failed. -/
protected theorem bind {p : Metered α} {f : α → Metered β}
    (first : Accounts levels n bytes (p bytes))
    (second : ∀ a rest, (p bytes).1 = .ok (a, rest) →
      Accounts levels k rest (f a rest)) :
    Accounts levels (n + k) bytes ((p >>= f) bytes) := by
  show Accounts levels (n + k) bytes (Metered.bind p f bytes)
  unfold Metered.bind
  rcases run : p bytes with ⟨_ | ⟨a, rest⟩, log⟩
  · rw [run] at first
    exact ⟨first.walk.cut k, first.shallow, by simpa using first.deep⟩
  · rw [run] at first second
    have next := second a rest rfl
    refine ⟨first.walk.append next.walk, ?_, ?_⟩
    · exact fun v listed =>
        (List.mem_append.mp listed).elim (first.shallow v) (next.shallow v)
    · -- the first reader has not failed, so nothing in its log is too deep
      have before : ¬∃ v ∈ log, v.depth = levels ∧ v.opens = true :=
        fun deep => nomatch first.deep.mpr deep
      refine next.deep.trans ⟨?_, ?_⟩
      · rintro ⟨v, later, deep⟩
        exact ⟨v, List.mem_append_right _ later, deep⟩
      · rintro ⟨v, listed, deep⟩
        rcases List.mem_append.mp listed with earlier | later
        · exact absurd ⟨v, earlier, deep⟩ before
        · exact ⟨v, later, deep⟩

protected theorem map {p : Metered α} (f : α → β)
    (h : Accounts levels n bytes (p bytes)) :
    Accounts levels n bytes ((f <$> p) bytes) :=
  show Accounts levels (n + 0) bytes ((p >>= fun a => pure (f a)) bytes) from
    h.bind fun a _ _ => .pure (f a)

/-- A token, and what is read behind it. -/
theorem token {opens : Token → Bool} {f : Token → Metered α}
    (behind : ∀ t rest, Token.read bytes = .ok (t, rest) → Accounts levels 1 bytes
      ((f t rest).1, ⟨bytes.length, 0, opens t⟩ :: (f t rest).2)) :
    Accounts levels 1 bytes ((token opens >>= f) bytes) := by
  cases read : Token.read bytes with
  | error e =>
      have other : e ≠ .tooDeep := by
        rintro rfl
        exact isShallow_read bytes read
      rw [Metered.token_bind_of_error read]
      cases bytes with
      | nil => exact silent .stop fun deep => other (Except.error.inj deep)
      | cons b bytes => exact broken nofun ⟨fun deep => absurd deep other, nofun⟩
  | ok out =>
      rw [Metered.token_bind_of_ok read]
      exact behind out.1 out.2 read

/-- What is behind a token is told without reading. -/
theorem told {t : Token} {f : Token → Except Fault α} (plain : IsPlain f)
    (token : Token.read bytes = .ok (t, rest)) :
    Accounts levels 1 bytes (((MessagePack.check (f t) : Metered α) rest).1,
      ⟨bytes.length, 0, false⟩ ::
        ((MessagePack.check (f t) : Metered α) rest).2) := by
  cases value : f t with
  | ok a => exact scalar token (plain.scalar value) a
  | error e =>
      refine broken (ne_nil_of_token token) ⟨?_, nofun⟩
      rintro rfl
      exact absurd value (plain.shallow t)

theorem leaf {f : Token → Except Fault α} (plain : IsPlain f) :
    Accounts levels 1 bytes
      ((do MessagePack.check (f (← leaf)) : Metered α) bytes) :=
  .token fun _ _ token => told plain token

/-- A container with its elements, around which it is one more. -/
theorem container {t : Token} {p : Metered α}
    (token : Token.read bytes = .ok (t, rest))
    (opens : t.isContainer = true) (plain : ∀ size, t ≠ .ext size)
    (elements : Accounts levels t.elements rest (p rest)) :
    Accounts (levels + 1) 1 bytes
      ((inside p rest).1, ⟨bytes.length, 0, true⟩ :: (inside p rest).2) where
  walk := by
    obtain ⟨head, rfl, spelled⟩ := exists_spells token
    have within := elements.walk.inside
    show Walk 0 1 (head ++ rest) (_ :: (p rest).2.map Visit.within)
      (restOf (p rest).1)
    cases out : restOf (p rest).1 with
    | none =>
        rw [out] at within
        exact .within spelled opens within
    | some mid =>
        rw [out] at within
        have whole :=
          Walk.value spelled plain within (.done : Walk 0 0 mid [] (some mid))
        rwa [opens, List.append_nil] at whole
  shallow := by
    refine List.forall_mem_cons.mpr ⟨Nat.zero_le _, fun v listed => ?_⟩
    obtain ⟨w, logged, rfl⟩ := List.mem_map.mp listed
    exact Nat.succ_le_succ (elements.shallow w logged)
  deep := by
    refine elements.deep.trans ⟨?_, ?_⟩
    · rintro ⟨v, logged, depth, opening⟩
      exact ⟨v.within, .tail _ (List.mem_map_of_mem logged),
        congrArg (· + 1) depth, opening⟩
    · rintro ⟨v, _ | ⟨_, listed⟩, depth, opening⟩
      · cases depth
      · obtain ⟨w, logged, rfl⟩ := List.mem_map.mp listed
        exact ⟨w, logged, Nat.succ.inj depth, opening⟩

end Accounts

/-! ## Skipping -/

theorem accounts_repeatRead {one : Metered Unit}
    (each : ∀ bytes, Accounts levels 1 bytes (one bytes))
    (n : Nat) (bytes : List UInt8) :
    Accounts levels n bytes (repeatRead one n bytes) := by
  induction n generalizing bytes with
  | zero => exact .pure ()
  | succ n ih =>
      have both := (each bytes).bind fun _ rest _ => ih rest
      rwa [Nat.add_comm] at both

/-- What follows the head of an extension: its type byte and its content. -/
theorem exists_content {size : Nat} {u : Unit}
    (read : content (m := Reader) size bytes = .ok (u, rest)) :
    ∃ type content, content.length = size ∧ bytes = type :: (content ++ rest) := by
  obtain ⟨kind, after, typed, more⟩ := bind_eq_ok_iff.mp read
  obtain ⟨content, behind, whole, last⟩ := bind_eq_ok_iff.mp more
  cases last
  obtain ⟨-, rfl⟩ := takeNat_eq_ok typed
  obtain ⟨length, rfl⟩ := takeBytes_eq_ok whole
  exact ⟨UInt8.ofNat (kind / byteRange 0), content, length, by simp [bigEndian]⟩

/-- What is in an extension are no values. -/
theorem accounts_content {size : Nat}
    (token : Token.read bytes = .ok (.ext size, rest)) :
    Accounts (levels + 1) 1 bytes ((content (m := Metered) size rest).1,
      ⟨bytes.length, 0, true⟩ :: (content (m := Metered) size rest).2) := by
  show Accounts (levels + 1) 1 bytes
    (content (m := Reader) size rest, [⟨bytes.length, 0, true⟩])
  cases read : content (m := Reader) size rest with
  | error e =>
      refine .broken (ne_nil_of_token token) ⟨?_, nofun⟩
      rintro rfl
      exact absurd read (isShallow_content size rest)
  | ok out =>
      obtain ⟨head, rfl, spelled⟩ := exists_spells token
      obtain ⟨type, content, whole, rfl⟩ := exists_content read
      exact ⟨.ext spelled type whole .done, by simp, by simp⟩

/-- Skipping accounts for one value, whatever is in it. -/
theorem accounts_skip (levels : Nat) (bytes : List UInt8) :
    Accounts levels 1 bytes (skip Metered levels bytes) := by
  induction levels generalizing bytes with
  | zero =>
      refine .token fun t rest token => ?_
      cases container : t.isContainer with
      | false => exact .scalar token container ()
      | true =>
          exact .broken (ne_nil_of_token token) ⟨fun _ => ⟨rfl, rfl⟩, fun _ => rfl⟩
  | succ levels ih =>
      refine .token fun t rest token => ?_
      cases t with
      | array count | map count =>
          exact .container token rfl nofun (accounts_repeatRead ih _ rest)
      | ext size => exact accounts_content token
      | _ => exact .scalar token rfl ()

/-! ## Shapes -/

/-- Reading a value of the shape accounts for it, and a byte is not too
deep for anything. -/
structure Shape.IsAccounted (s : Shape Metered α) : Prop where
  read : ∀ levels bytes, Accounts levels 1 bytes (s.read levels bytes)
  ofByte : ∀ b, s.ofByte b ≠ .error .tooDeep

theorem accounts_readInteger (wanted : Wanted) (low high : Int)
    (bytes : List UInt8) :
    Accounts levels 1 bytes
      ((readInteger wanted low high : Metered Int) bytes) := by
  cases bytes with
  | nil => exact .silent .stop nofun
  | cons b bytes =>
      rw [readInteger, Metered.peek_bind]
      split_ifs
      · exact .leaf (isPlain_integer wanted low high)
      · exact .fail nofun

namespace Shape

theorem isAccounted_unsigned64 :
    (unsigned64 : Shape Metered UInt64).IsAccounted where
  read _ bytes := (accounts_readInteger _ _ _ bytes).map _
  ofByte _ := nofun

theorem isAccounted_signed32 : (signed32 : Shape Metered Int32).IsAccounted where
  read _ bytes := (accounts_readInteger _ _ _ bytes).map _
  ofByte _ := nofun

theorem isAccounted_text : (text : Shape Metered String).IsAccounted where
  read _ _ := .leaf isPlain_text
  ofByte _ := nofun

/-- A value that may be nil is nil, which is a value too, or is
read by its shape. -/
theorem IsAccounted.nullable {s : Shape Metered α} (h : s.IsAccounted) :
    s.nullable.IsAccounted where
  read levels bytes := by
    cases bytes with
    | nil => exact .silent .stop nofun
    | cons b bytes =>
        unfold Shape.nullable
        dsimp only
        rw [Metered.peek_bind]
        split_ifs with null
        · refine .token fun t rest token => ?_
          obtain ⟨rfl, rfl⟩ : t = .nil ∧ rest = bytes := by
            have nil : Token.read (b :: bytes) = .ok (.nil, bytes) :=
              reads_token null (.pure Token.nil) bytes
            cases nil.symm.trans token
            exact ⟨rfl, rfl⟩
          exact .scalar token rfl none
        · exact (h.read levels (b :: bytes)).map some
  ofByte _ := nofun

theorem IsAccounted.field {s : Shape Metered α} (h : s.IsAccounted) (name : String)
    (get : σ → Option α) (set : α → σ → σ) :
    (Field.of name get set s).shape.IsAccounted where
  read levels bytes := (h.read levels bytes).map set
  ofByte b := by
    have other := h.ofByte b
    show (set <$> s.ofByte b) ≠ _
    cases read : s.ofByte b with
    | ok a => exact nofun
    | error e =>
        rw [read] at other
        exact fun deep => other (congrArg Except.error (Except.error.inj deep))

end Shape

/-! ## Records -/

/-- The fields of the record are accounted for, and what is wrong with a draft is
not its depth. -/
structure Record.IsAccounted (r : Record Metered σ α) : Prop where
  fields : ∀ f ∈ r.fields, f.shape.IsAccounted
  finish : ∀ d, r.finish d ≠ .error .tooDeep

namespace Record

variable {fields : List (Field Metered σ)} {short : Fault}

/-- A field that is named while a log is kept is one of the record. -/
theorem mem_of_readKey_fst {f : Field Metered σ}
    (key : (readKey fields bytes).1 = .ok (some f, rest)) : f ∈ fields := by
  have plain : (Metered.erase leaf >>= fun t => Metered.erase (check (fieldOf fields t)))
      bytes = .ok (some f, rest) :=
    (congrFun (Metered.erase_bind _ _) bytes).symm.trans key
  obtain ⟨t, after, -, named⟩ := bind_eq_ok_iff.mp plain
  exact mem_of_fieldOf (lift_eq_ok_iff.mp named).1

/-- The pairs of a map are two values each. -/
theorem accounts_readEntries (each : ∀ f ∈ fields, f.shape.IsAccounted)
    (n : Nat) (d : σ) (bytes : List UInt8) :
    Accounts levels (2 * n) bytes (readEntries fields levels n d bytes) := by
  induction n generalizing d bytes with
  | zero => exact .pure d
  | succ n ih =>
      rw [show 2 * (n + 1) = 1 + (1 + 2 * n) by omega]
      refine .bind (.leaf (isPlain_fieldOf fields)) fun found rest key => ?_
      cases found with
      | none => exact (accounts_skip levels rest).bind fun _ rest _ => ih d rest
      | some f =>
          dsimp only
          split_ifs
          · exact .fail nofun
          · have known := mem_of_readKey_fst key
            exact ((each f known).read levels rest).bind fun store rest _ =>
              ih (store d) rest

/-- One value is read for each field, as long as there are any. -/
theorem accounts_readElements (other : short ≠ .tooDeep)
    (each : ∀ f ∈ fields, f.shape.IsAccounted) (n : Nat) (d : σ)
    (bytes : List UInt8) :
    Accounts levels (min fields.length n) bytes
      (readElements short levels fields n d bytes) := by
  induction fields generalizing n d bytes with
  | nil =>
      rw [List.length_nil, Nat.zero_min]
      exact .pure d
  | cons f fields ih =>
      cases n with
      | zero => exact .fail other
      | succ n =>
          rw [List.length_cons, Nat.succ_min_succ, Nat.succ_eq_one_add]
          exact ((each f List.mem_cons_self).read levels bytes).bind
            fun store rest _ =>
              ih (fun f listed => each f (.tail _ listed)) n (store d) rest

/-- One byte is used; where it is no value of its field, reading ends. -/
theorem ofBytes_cons (short : Fault) (f : Field Metered σ)
    (fs : List (Field Metered σ)) (b : UInt8)
    (bs : List UInt8) (d : σ) (rest : List UInt8) :
    ofBytes short (f :: fs) (b :: bs) d rest =
      match f.shape.ofByte b with
      | .error e => (.error e, [⟨rest.length + (bs.length + 1), 0, false⟩])
      | .ok store => ((ofBytes short fs bs (store d) rest).1,
          ⟨rest.length + (bs.length + 1), 0, false⟩ ::
            (ofBytes short fs bs (store d) rest).2) := by
  rw [ofBytes]
  cases f.shape.ofByte b <;> rfl

/-- The bytes of a byte string that stands for a record are used one by
one, and no others. -/
theorem used_ofBytes (other : short ≠ .tooDeep)
    (each : ∀ f ∈ fields, f.shape.IsAccounted)
    (content : List UInt8) (d : σ) (rest : List UInt8) :
    Used 0 rest.length content.length (ofBytes short fields content d rest).2 ∧
      Walk 0 0 rest [] (restOf (ofBytes short fields content d rest).1) ∧
      (ofBytes short fields content d rest).1 ≠ .error .tooDeep := by
  induction fields generalizing content d with
  | nil => exact ⟨.none, .done, nofun⟩
  | cons f fs ih =>
      cases content with
      | nil => exact ⟨.none, .stop, fun deep => other (Except.error.inj deep)⟩
      | cons b bs =>
          have legal := (each f List.mem_cons_self).ofByte b
          rw [ofBytes_cons]
          cases read : f.shape.ofByte b with
          | error e =>
              rw [read] at legal
              exact ⟨.byte .none, .stop,
                fun deep => legal (congrArg Except.error (Except.error.inj deep))⟩
          | ok store =>
              obtain ⟨used, behind, shallow⟩ :=
                ih (fun f listed => each f (.tail _ listed)) bs (store d)
              exact ⟨.byte used, behind, shallow⟩

theorem accounts_ofBytes (other : short ≠ .tooDeep)
    (each : ∀ f ∈ fields, f.shape.IsAccounted) {content : List UInt8} (d : σ)
    (token : Token.read bytes = .ok (.bin content, rest)) :
    Accounts levels 1 bytes ((ofBytes short fields content d rest).1,
      ⟨bytes.length, 0, false⟩ :: (ofBytes short fields content d rest).2) := by
  obtain ⟨head, rfl, spelled⟩ := exists_spells token
  obtain ⟨used, behind, shallow⟩ := used_ofBytes other each content d rest
  have walk := Walk.bin spelled used behind
  rw [List.append_nil] at walk
  refine ⟨walk, ?_, fun deep => absurd deep shallow, ?_⟩
  · exact List.forall_mem_cons.mpr
      ⟨Nat.zero_le _, fun v listed => (used.closed v listed).1 ▸ Nat.zero_le _⟩
  · rintro ⟨v, _ | ⟨_, listed⟩, -, opening⟩
    · cases opening
    · exact absurd ((used.closed v listed).2.symm.trans opening) Bool.false_ne_true

/-- A container that a record opens. -/
theorem accounts_enter {t : Token} {content : Nat → Metered σ}
    (token : Token.read bytes = .ok (t, rest)) (opens : t.isContainer = true)
    (plain : ∀ size, t ≠ .ext size)
    (elements : ∀ levels, Accounts levels t.elements rest (content levels rest)) :
    Accounts levels 1 bytes ((enter levels content rest).1,
      ⟨bytes.length, 0, true⟩ :: (enter levels content rest).2) := by
  cases levels with
  | zero =>
      exact .broken (ne_nil_of_token token) ⟨fun _ => ⟨rfl, rfl⟩, fun _ => rfl⟩
  | succ levels => exact .container token opens plain (elements levels)

/-- An array has one element for each field. -/
theorem accounts_array (other : short ≠ .tooDeep)
    (each : ∀ f ∈ fields, f.shape.IsAccounted)
    (n : Nat) (d : σ) (rest : List UInt8) :
    Accounts levels n rest ((do
        let d ← readElements short levels fields n d
        if fields.length < n then fail (.length fields.length)
        else pure d : Metered σ) rest) := by
  have behind (d : σ) (rest : List UInt8) :
      Accounts levels (n - min fields.length n) rest
        ((if fields.length < n then fail (.length fields.length)
          else pure d : Metered σ) rest) := by
    split_ifs with long
    · exact .fail nofun
    · rw [show n - min fields.length n = 0 by omega]
      exact .pure d
  have elements : Accounts levels (min fields.length n) rest
      (readElements short levels fields n d rest) :=
    accounts_readElements other each n d rest
  have both := elements.bind fun d rest _ => behind d rest
  rwa [Nat.add_sub_cancel' (Nat.min_le_right _ _)] at both

theorem accounts_readDraft {r : Record Metered σ α} (h : r.IsAccounted)
    (levels : Nat) (bytes : List UInt8) :
    Accounts levels 1 bytes (r.readDraft levels bytes) := by
  have shallow (n : Nat) : Fault.wrongCount n (.fields r.name r.fields.length) ≠
      .tooDeep := nofun
  refine .token fun t rest token => ?_
  cases t with
  | map n =>
      exact accounts_enter token rfl nofun fun levels =>
        accounts_readEntries h.fields n r.blank rest
  | array n =>
      exact accounts_enter token rfl nofun fun levels =>
        accounts_array (shallow n) h.fields n r.blank rest
  | bin content =>
      exact accounts_ofBytes (shallow content.length) h.fields r.blank token
  | _ => exact .told (isPlain_refuse _) token

theorem isAccounted_shape {r : Record Metered σ α} (h : r.IsAccounted) :
    r.shape.IsAccounted where
  read levels bytes :=
    (accounts_readDraft h levels bytes).bind fun d _ _ => .check (h.finish d)
  ofByte _ := nofun

end Record

end ElementAgent.MessagePack
