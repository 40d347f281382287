import ElementAgent.Proofs.Wire.Chunks

/-!
# Receiving messages

A reception that is fed a stream of frames, chunk by chunk, brings out their
messages in order. Main statements: a chunk brings out the messages whose frames
it completes and leaves the rest to come (`Reception.Receives.feed`), and the end
of the stream ends it without a fault, behind the last message
(`Reception.Receives.finish`). Of any stream at all it brings out the messages in
front of the first fault (`Reception.Heard.feed`).
-/

namespace ElementAgent.Wire

open MessagePack (Fault)

variable {α : Type} {encode : α → List UInt8} {read : List UInt8 → Except Fault α}
  {stream left lost : List UInt8} {results : List (Except CodecFault α)}
  {as : List α}

/-- The results of a beginning of frames are the messages of the frames
that are complete. -/
theorem Splits.of_frames
    (readable : ∀ a ∈ as, (encode a).length ≤ maxBody ∧ read (encode a) = .ok a)
    (splits : Splits read stream results left)
    (whole : stream ++ lost = frames encode as) :
    ∃ now later, as = now ++ later ∧ results = now.map .ok ∧
      left ++ lost = frames encode later ∧
      (front left).1 = .more := by
  induction splits generalizing as with
  | @blocked left stuck =>
      refine ⟨[], as, rfl, rfl, whole, ?_⟩
      by_cases short : (front left).1 = .more
      · exact short
      · obtain ⟨a, as', rest, -, piece, -⟩ :=
          front_frames (fun a listed => (readable a listed).1) short whole
        exact absurd (by rw [piece]) (stuck (encode a))
  | @body stream body rest left results first others ih =>
      obtain ⟨a, as', rest', rfl, piece, more⟩ :=
        front_frames (fun a listed => (readable a listed).1)
          (by rw [first]; exact Piece.noConfusion) whole
      rw [first] at piece
      cases piece
      obtain ⟨now, later, rfl, rfl, after, short⟩ :=
        ih (fun b listed => readable b (List.mem_cons_of_mem _ listed)) more
      refine ⟨a :: now, later, rfl, ?_, after, short⟩
      rw [(readable a List.mem_cons_self).2]
      rfl

theorem untilFault_map_ok (as : List α) :
    Reception.untilFault (as.map .ok) = (as, none) := by
  induction as with
  | nil => rfl
  | cons a as ih => rw [List.map_cons, Reception.untilFault, ih]

namespace Reception

variable {r : Reception} {chunk : List UInt8}

/-- The reception is in the middle of a stream of frames: with what is
still `left` of the stream it has those of `as` before it, and none of
them completely. -/
structure Receives (encode : α → List UInt8) (r : Reception) (as : List α)
    (left : List UInt8) : Prop where
  sound : r.splitter.IsSound
  listens : r.ending = none
  bytes : r.splitter.owed r.buffer ++ left = frames encode as
  short : (front (r.splitter.owed r.buffer)).1 = .more

theorem receives_fresh (as : List α) :
    fresh.Receives encode as (frames encode as) :=
  ⟨Splitter.isSound_fresh, rfl, rfl, rfl⟩

/-- More frames may come behind those that are on the way. -/
theorem Receives.append (h : r.Receives encode as left) (more : List α) :
    r.Receives encode (as ++ more) (left ++ frames encode more) where
  sound := h.sound
  listens := h.listens
  bytes := by rw [← List.append_assoc, h.bytes, frames_append]
  short := h.short

/-- A chunk brings out the messages that it completes. -/
theorem Receives.feed
    (readable : ∀ a ∈ as, (encode a).length ≤ maxBody ∧ read (encode a) = .ok a)
    (h : r.Receives encode as (chunk ++ left)) :
    ∃ later, as = (r.feed read chunk).1 ++ later ∧
      (r.feed read chunk).2.Receives encode later left := by
  unfold Reception.feed
  rw [h.listens]
  generalize run : decodeAll read r.splitter (r.buffer ++ chunk) = out
  obtain ⟨found, splitter, buffer⟩ := out
  obtain ⟨sound, results, splits, all⟩ := decodeAll_splits h.sound run
  have whole : r.splitter.owed (r.buffer ++ chunk) ++ left = frames encode as := by
    rw [Splitter.owed_append, List.append_assoc]
    exact h.bytes
  obtain ⟨now, later, same, good, bytes, short⟩ := splits.of_frames readable whole
  rw [split_of_front_more short, List.append_nil, good] at all
  simp only [all, untilFault_map_ok]
  exact ⟨later, same, sound, rfl, bytes, short⟩

/-- At the end of the stream every reception ends. -/
theorem isNone_ending_finish (r : Reception) :
    (r.finish read).ending.isNone = false := by
  unfold Reception.finish
  split
  case h_1 ending ended => rw [ended, Option.isNone_some]
  case h_2 => split <;> rfl

/-- Where nothing is left of the stream nothing is left in the reception, and the
end is no fault. -/
theorem Receives.finish
    (readable : ∀ a ∈ as, (encode a).length ≤ maxBody ∧ read (encode a) = .ok a)
    (h : r.Receives encode as []) :
    as = [] ∧ (r.finish read).ending = some .endOfStream := by
  have bytes := h.bytes
  rw [List.append_nil] at bytes
  have none_left : as = [] := by
    refine frames_eq_nil (fun a listed => (readable a listed).1) ?_
    rw [← bytes]
    exact h.short
  refine ⟨none_left, ?_⟩
  rw [none_left] at bytes
  obtain ⟨⟨_ | n⟩, buffer, ending⟩ := r
  · have ended : ending = none := h.listens
    have empty : buffer = [] := bytes
    subst ended empty
    rfl
  · -- a header that has been taken would still be owed its body
    have count := congrArg List.length bytes
    simp only [Splitter.owed, List.length_append, length_bigEndian, frames,
      List.flatMap_nil, List.length_nil] at count
    omega

end Reception

/-! ## Any stream -/

namespace Reception

/-- What follows a fault brings out nothing, and what follows messages goes on
behind them. -/
theorem untilFault_append (results more : List (Except CodecFault α)) :
    untilFault (results ++ more) =
      if (untilFault results).2 = none then
        ((untilFault results).1 ++ (untilFault more).1, (untilFault more).2)
      else untilFault results := by
  induction results with
  | nil => rfl
  | cons r results ih =>
      cases r with
      | error f => simp [untilFault]
      | ok a =>
          rw [List.cons_append, untilFault, ih, untilFault]
          split_ifs <;> rfl

variable {r : Reception} {chunk : List UInt8}

/-- The reception has read a stream and has brought out the messages `as`. -/
structure Heard (read : List UInt8 → Except Fault α) (r : Reception)
    (stream : List UInt8) (as : List α) : Prop where
  sound : r.splitter.IsSound
  /-- While it listens, the messages of whatever follows come behind those that it
  has brought out. -/
  listens : r.ending = none → ∀ more,
    messages read (stream ++ more) =
      as ++ messages read (r.splitter.owed r.buffer ++ more)
  short : r.ending = none → (front (r.splitter.owed r.buffer)).1 = .more
  /-- Once it has ended, nothing that follows brings out more. -/
  deaf : r.ending ≠ none → ∀ more, messages read (stream ++ more) = as

theorem heard_fresh : fresh.Heard read [] [] where
  sound := Splitter.isSound_fresh
  listens _ _ := rfl
  short _ := rfl
  deaf never := absurd rfl never

/-- What has been brought out are the messages of the stream. -/
theorem Heard.messages_eq (h : r.Heard read stream as) :
    messages read stream = as := by
  by_cases open_ : r.ending = none
  · have all := h.listens open_ []
    rwa [List.append_nil, List.append_nil, messages_of_front_more (h.short open_),
      List.append_nil] at all
  · have all := h.deaf open_ []
    rwa [List.append_nil] at all

/-- A chunk brings out the messages that it completes. -/
theorem Heard.feed (h : r.Heard read stream as) (open_ : r.ending = none)
    (chunk : List UInt8) :
    (r.feed read chunk).2.Heard read (stream ++ chunk)
      (as ++ (r.feed read chunk).1) := by
  unfold Reception.feed
  rw [open_]
  generalize run : decodeAll read r.splitter (r.buffer ++ chunk) = out
  obtain ⟨found, splitter, buffer⟩ := out
  obtain ⟨sound, results, splits, rfl⟩ := decodeAll_splits h.sound run
  rw [Splitter.owed_append] at splits
  have follows (more : List UInt8) : messages read (stream ++ chunk ++ more) =
      as ++ (untilFault
        (results ++ split read (splitter.owed buffer ++ more))).1 := by
    rw [List.append_assoc, h.listens open_, ← List.append_assoc, messages,
      splits.split_append]
  simp only [untilFault_append] at follows ⊢
  by_cases whole : (untilFault results).2 = none
  · simp only [if_pos whole] at follows ⊢
    generalize piece : front (splitter.owed buffer) = next
    obtain ⟨_ | _ | body, rest⟩ := next
    · have nothing : split read (splitter.owed buffer) = [] :=
        split_of_front_more (by rw [piece])
      simp only [nothing, untilFault, List.append_nil]
      refine ⟨sound, fun _ more =>
        ?_, fun _ => by rw [piece], fun ended => absurd rfl ended⟩
      rw [follows, List.append_assoc]
      rfl
    · -- a header that is too long hides whatever follows
      have stuck (more : List UInt8) : split read (splitter.owed buffer ++ more) =
          [.error .oversizeHeader] :=
        split_of_front_oversize (by rw [front_append_of_oversize piece more])
      have now := stuck []
      rw [List.append_nil] at now
      simp only [now, untilFault, List.append_nil]
      refine ⟨sound, fun never => (Option.some_ne_none _ never).elim,
        fun never => (Option.some_ne_none _ never).elim, fun _ more => ?_⟩
      rw [follows, stuck, untilFault, List.append_nil]
    · exact absurd (congrArg Prod.fst piece) (splits.isBlocked body)
  · simp only [if_neg whole] at follows ⊢
    exact ⟨sound, fun open_ => absurd open_ whole, fun open_ => absurd open_ whole,
      fun _ more => follows more⟩

end Reception

end ElementAgent.Wire
