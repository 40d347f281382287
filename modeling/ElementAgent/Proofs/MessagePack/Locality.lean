import ElementAgent.Proofs.MessagePack.Skipping

/-!
# Readers look no further than they read

A reader is local if what follows the bytes that it needs changes nothing: what it
has read it reads again, and a fault that is not for want of bytes stays the same
fault (`IsLocal`). Main statements:

* **composition**: local readers in sequence are local (`IsLocal.bind_of`);
* **values**: so are heads, skipping, numbers, texts, and records whose fields are
  (`isLocal_skip`, `Record.isLocal`);
* **cuts**: on a beginning of what it reads a local reader fails for want of
  bytes, and in no other way (`IsLocal.isCut_of_reads`).
-/

namespace ElementAgent.MessagePack

variable {α β : Type} {p : Reader α} {bytes rest front back : List UInt8} {a : α}
  {levels : Nat}

/-- Reading failed for want of bytes. -/
def IsCut (outcome : Except Fault α) : Prop :=
  ∃ e, outcome = .error e ∧ e.isCut = true

/-- What follows the bytes that the reader needs changes nothing. -/
structure IsLocal (p : Reader α) : Prop where
  ok : ∀ {bytes a rest}, p bytes = .ok (a, rest) →
    ∀ more, p (bytes ++ more) = .ok (a, rest ++ more)
  fault : ∀ {bytes e}, p bytes = .error e → e.isCut = false →
    ∀ more, p (bytes ++ more) = .error e

/-- Two readers in sequence fail where the first does, or the second
behind the first. -/
theorem bind_eq_error_iff {f : α → Reader β} {e : Fault} :
    (p >>= f) bytes = .error e ↔
      p bytes = .error e ∨ ∃ a mid, p bytes = .ok (a, mid) ∧
      f a mid = .error e := by
  show (p bytes >>= fun (a, mid) => f a mid) = _ ↔ _
  cases p bytes with
  | error e' =>
      constructor
      · rintro ⟨⟩
        exact .inl rfl
      · rintro (⟨⟨⟩⟩ | ⟨_, _, ⟨⟩, _⟩)
        rfl
  | ok out =>
      obtain ⟨a, mid⟩ := out
      constructor
      · exact fun second => .inr ⟨a, mid, rfl, second⟩
      · rintro (⟨⟨⟩⟩ | ⟨_, _, ⟨⟩, second⟩)
        exact second

namespace IsLocal

/-- What needs no bytes. -/
theorem lift (x : Except Fault α) : IsLocal (x : Reader α) where
  ok read more := by
    obtain ⟨rfl, rfl⟩ := lift_eq_ok_iff.mp read
    rfl
  fault failed _ more := by
    cases x with
    | ok a => cases failed
    | error e =>
        cases failed
        rfl

protected theorem pure (a : α) : IsLocal (pure a) := lift (.ok a)

protected theorem throw (e : Fault) : IsLocal (throw e : Reader α) :=
  lift (.error e)

/-- Of the second reader only those have to be local that the first leads to. -/
theorem bind_of {f : α → Reader β} (first : IsLocal p)
    (second : ∀ bytes a rest, p bytes = .ok (a, rest) → IsLocal (f a)) :
    IsLocal (p >>= f) where
  ok read more := by
    obtain ⟨a, mid, begun, ended⟩ := bind_eq_ok_iff.mp read
    exact bind_eq_ok_iff.mpr
      ⟨a, mid ++ more, first.ok begun more, (second _ _ _ begun).ok ended more⟩
  fault failed other more := by
    rcases bind_eq_error_iff.mp failed with failed | ⟨a, mid, begun, failed⟩
    · exact bind_eq_error_iff.mpr (.inl (first.fault failed other more))
    · exact bind_eq_error_iff.mpr
        (.inr ⟨a, mid ++ more, first.ok begun more,
          (second _ _ _ begun).fault failed other more⟩)

protected theorem bind {f : α → Reader β} (first : IsLocal p)
    (second : ∀ a, IsLocal (f a)) :
    IsLocal (p >>= f) := first.bind_of fun _ a _ _ => second a

protected theorem map (f : α → β) (h : IsLocal p) : IsLocal (f <$> p) :=
  show IsLocal (p >>= fun a => pure (f a)) from h.bind fun a => .pure (f a)

/-- On a beginning of the bytes that it reads a local reader fails
for want of bytes. -/
theorem isCut_of_reads (h : IsLocal p) (reads : Reads p (front ++ back) a)
    (more : back ≠ []) :
    IsCut (p front) := by
  have whole := reads []
  rw [List.append_nil] at whole
  cases read : p front with
  | ok out =>
      -- whatever it read without the end it would leave the end behind
      have same := (h.ok read back).symm.trans whole
      have left : out.2 ++ back = [] := (Prod.mk.inj (Except.ok.inj same)).2
      exact absurd (List.append_eq_nil_iff.mp left).2 more
  | error e =>
      cases cut : e.isCut with
      | true => exact ⟨e, rfl, cut⟩
      | false => cases (h.fault read cut back).symm.trans whole

/-- What a local reader makes of bytes it makes of them whatever follows, unless
they were too few. -/
theorem fst_append (h : IsLocal p) (decided : ¬IsCut (Prod.fst <$> p bytes))
    (more : List UInt8) :
    Prod.fst <$> p (bytes ++ more) = Prod.fst <$> p bytes := by
  cases read : p bytes with
  | ok out =>
      rw [h.ok read more]
      rfl
  | error e =>
      cases cut : e.isCut with
      | true =>
          rw [read] at decided
          exact absurd ⟨e, rfl, cut⟩ decided
      | false => rw [h.fault read cut more]

end IsLocal

/-! ## Bytes and heads -/

theorem isLocal_takeBytes {short : Fault} (cut : short.isCut = true) (n : Nat) :
    IsLocal (takeBytes short n) where
  ok {bytes taken rest} read more := by
    obtain ⟨whole, rfl⟩ := takeBytes_eq_ok read
    rw [List.append_assoc]
    exact reads_takeBytes short whole (rest ++ more)
  fault {bytes e} failed other more := by
    -- the one fault is for want of bytes
    unfold takeBytes at failed
    dsimp only at failed
    split_ifs at failed
    cases failed
    rw [cut] at other
    cases other

theorem isLocal_takeNat (width : Nat) : IsLocal (takeNat width) :=
  (isLocal_takeBytes rfl width).map _

theorem isLocal_takeInt (width : Nat) : IsLocal (takeInt width) :=
  (isLocal_takeNat width).map _

theorem isLocal_takeContent (n : Nat) : IsLocal (takeContent n) :=
  isLocal_takeBytes rfl n

theorem isLocal_takeMarker : IsLocal takeMarker where
  ok {bytes m rest} read more := by
    cases bytes with
    | nil => cases read
    | cons b bytes =>
        cases read
        rfl
  fault {bytes e} failed other more := by
    cases bytes with
    | nil =>
        cases failed
        cases other
    | cons b bytes => cases failed

/-- A length and as many bytes. -/
theorem isLocal_counted (width : Nat) (f : List UInt8 → Token) :
    IsLocal (do return f (← takeContent (← takeNat width))) :=
  (isLocal_takeNat width).bind fun n =>
    (isLocal_takeContent n).bind fun _ => .pure _

theorem isLocal_ofMarker (m : Marker) : IsLocal (Token.ofMarker m) := by
  cases m with
  | fixPos n | fixMap n | fixArray n | null | no | yes | fixExt n | fixNeg n =>
      exact .pure _
  | reserved => exact .throw _
  | fixStr n => exact (isLocal_takeContent n).map _
  | bin width | str width => exact isLocal_counted width _
  | ext width | unsigned width | array width | map width =>
      exact (isLocal_takeNat width).map _
  | signed width => exact (isLocal_takeInt width).map _
  | float32 => exact (isLocal_takeNat 4).bind fun _ => .pure _
  | float64 => exact (isLocal_takeNat 8).bind fun _ => .pure _

theorem isLocal_read : IsLocal Token.read :=
  isLocal_takeMarker.bind isLocal_ofMarker

theorem isLocal_refuse (t : Token) (wanted : Wanted) :
    IsLocal (t.refuse wanted : Reader α) := .lift _

/-! ## Skipping -/

theorem isLocal_repeatRead {one : Reader Unit} (each : IsLocal one) (n : Nat) :
    IsLocal (repeatRead one n) := by
  induction n with
  | zero => exact .pure ()
  | succ n ih => exact each.bind fun _ => ih

theorem isLocal_skipContent {inner : Reader Unit} (each : IsLocal inner)
    (t : Token) :
    IsLocal (skipContent inner t) := by
  cases t with
  | array count | map count => exact isLocal_repeatRead each _
  | ext size =>
      exact (isLocal_takeNat 1).bind fun _ =>
        (isLocal_takeContent size).bind fun _ => .pure ()
  | _ => exact .pure ()

theorem isLocal_skip (levels : Nat) : IsLocal (skip Reader levels) := by
  induction levels with
  | zero =>
      refine isLocal_read.bind fun t => ?_
      cases t.isContainer with
      | true => exact .throw _
      | false => exact .pure ()
  | succ levels ih => exact isLocal_read.bind (isLocal_skipContent ih)

/-! ## Shapes -/

theorem isLocal_peekMarker : IsLocal peekMarker where
  ok {bytes m rest} read more := by
    cases bytes with
    | nil => cases read
    | cons b bytes =>
        cases read
        rfl
  fault {bytes e} failed other more := by
    cases bytes with
    | nil =>
        cases failed
        cases other
    | cons b bytes => cases failed

theorem isLocal_readInteger (wanted : Wanted) (low high : Int) :
    IsLocal (readInteger wanted low high) := by
  refine isLocal_peekMarker.bind fun marker => ?_
  split_ifs
  · exact isLocal_read.bind fun t => .lift (t.integer wanted low high)
  · exact .lift _

theorem isLocal_readText : IsLocal readText :=
  isLocal_read.bind fun t => .lift t.text

/-- The values of a shape are read by a local reader. -/
def Shape.IsLocal (s : Shape Reader α) : Prop :=
  ∀ levels, MessagePack.IsLocal (s.read levels)

theorem isLocal_unsigned64 : Shape.unsigned64.IsLocal :=
  fun _ => (isLocal_readInteger _ _ _).map _

theorem isLocal_signed32 : Shape.signed32.IsLocal :=
  fun _ => (isLocal_readInteger _ _ _).map _

theorem isLocal_text : Shape.text.IsLocal := fun _ => isLocal_readText

theorem Shape.IsLocal.nullable {s : Shape Reader α} (h : s.IsLocal) :
    s.nullable.IsLocal := by
  intro levels
  refine isLocal_peekMarker.bind fun marker => ?_
  split_ifs
  · exact isLocal_read.bind fun _ => .pure none
  · exact (h levels).map some

theorem Shape.IsLocal.field {σ : Type} {s : Shape Reader α} (h : s.IsLocal)
    (name : String) (get : σ → Option α)
    (set : α → σ → σ) : (Field.of name get set s).shape.IsLocal :=
  fun levels => (h levels).map set

/-! ## Records -/

section Records

variable {σ : Type} {fields : List (Field Reader σ)}

theorem isLocal_readKey (fields : List (Field Reader σ)) :
    IsLocal (Record.readKey fields) :=
  isLocal_read.bind fun t => .lift (Record.fieldOf fields t)

theorem isLocal_readEntries (each : ∀ f ∈ fields, f.shape.IsLocal)
    (levels n : Nat) (d : σ) :
    IsLocal (Record.readEntries fields levels n d) := by
  induction n generalizing d with
  | zero => exact .pure d
  | succ n ih =>
      refine (isLocal_readKey fields).bind_of fun _ found _ key => ?_
      cases found with
      | none => exact (isLocal_skip levels).bind fun _ => ih d
      | some f =>
          dsimp only
          split_ifs
          · exact .throw _
          · exact (each f (mem_of_readKey key) levels).bind fun store =>
              ih (store d)

theorem isLocal_readElements (each : ∀ f ∈ fields, f.shape.IsLocal) (short : Fault)
    (levels n : Nat) (d : σ) :
    IsLocal (Record.readElements short levels fields n d) := by
  induction fields generalizing n d with
  | nil => exact .pure d
  | cons f fields ih =>
      obtain ⟨own, others⟩ := List.forall_mem_cons.mp each
      cases n with
      | zero => exact .throw short
      | succ n => exact (own levels).bind fun store => ih others n (store d)

theorem isLocal_ofBytes (short : Fault) (fields : List (Field Reader σ))
    (content : List UInt8) (d : σ) :
    IsLocal (Record.ofBytes short fields content d) := by
  obtain ⟨x, same⟩ := exists_lift_ofBytes short fields content d
  rw [same]
  exact .lift x

theorem Record.isLocal {r : Record Reader σ α}
    (each : ∀ f ∈ r.fields, f.shape.IsLocal) : r.shape.IsLocal := by
  intro levels
  refine IsLocal.bind ?_ fun d => .lift (r.finish d)
  refine isLocal_read.bind fun t => ?_
  cases t with
  | map n =>
      cases levels with
      | zero => exact .throw .tooDeep
      | succ levels => exact isLocal_readEntries each levels n r.blank
  | array n =>
      cases levels with
      | zero => exact .throw .tooDeep
      | succ levels =>
          refine (isLocal_readElements each _ levels n r.blank).bind fun d => ?_
          split_ifs
          · exact .throw _
          · exact .pure d
  | bin content => exact isLocal_ofBytes _ r.fields content r.blank
  | _ => exact isLocal_refuse _ _

end Records

end ElementAgent.MessagePack
