import ElementAgent.Wire.Reception
import Mathlib.Tactic.SplitIfs

/-!
# The frames of a stream

What a stream says, read as a whole: a header, a body, and so on
(`split`). Main statements:

* **frames**: the frame of a body is read as that body, whatever follows
  (`front_frame`);
* **splitter**: a splitter finds at the front of its buffer what stands at the
  front of the stream, where a header that it has taken counts as not yet read
  (`front_owed`);
* **messages**: what a decoder finds is the next message of the stream, and what
  it takes for a fault hides everything behind it (`decodes_of_decodeNext`).
-/

namespace ElementAgent.Wire

open MessagePack (Fault)

variable {α : Type} {read : List UInt8 → Except Fault α} {s s' : Splitter}
  {body buffer rest stream : List UInt8}

/-! ## Frames -/

/-- The frame of a body. -/
def frame (body : List UInt8) : List UInt8 := bigEndian 4 body.length ++ body

theorem appendFrame_eq (fits : body.length ≤ maxBody) :
    appendFrame buffer body = .ok (buffer ++ frame body) := by
  rw [appendFrame, if_pos fits, frame, List.append_assoc]

/-- What stands at the front of a stream, and the stream behind it. Only a
body is taken off. -/
def front : List UInt8 → Piece × List UInt8
  | a :: b :: c :: d :: rest =>
    let n := ofBigEndian [a, b, c, d]
    if maxBody < n then (.oversize, a :: b :: c :: d :: rest)
    else if rest.length < n then (.more, a :: b :: c :: d :: rest)
    else (.body (rest.take n), rest.drop n)
  | short => (.more, short)

/-- A header that is not too long. -/
theorem front_header {n : Nat} (fits : n ≤ maxBody) (rest : List UInt8) :
    front (bigEndian 4 n ++ rest) =
      if rest.length < n then (.more, bigEndian 4 n ++ rest)
      else (.body (rest.take n), rest.drop n) := by
  have small : n < byteRange 4 := Nat.lt_of_le_of_lt fits (by decide)
  have header : ofBigEndian (bigEndian 4 n) = n := by
    rw [ofBigEndian_bigEndian, Nat.mod_eq_of_lt small]
  simp only [bigEndian] at header
  simp only [bigEndian, List.cons_append, List.nil_append, front]
  rw [header, if_neg (by omega)]

/-- The frame of a body is read as that body. -/
theorem front_frame (fits : body.length ≤ maxBody) (rest : List UInt8) :
    front (frame body ++ rest) = (.body body, rest) := by
  rw [frame, List.append_assoc, front_header fits, if_neg (by simp)]
  simp

/-- What is read as a body is its frame, which is not too long. -/
theorem eq_of_front_body (found : front stream = (.body body, rest)) :
    stream = frame body ++ rest ∧ body.length ≤ maxBody := by
  unfold front at found
  split at found
  case h_1 a b c d tail =>
      simp only at found
      split_ifs at found with long short <;> cases found
      have whole : (tail.take (ofBigEndian [a, b, c, d])).length =
          ofBigEndian [a, b, c, d] := by
        rw [List.length_take]
        omega
      have header : bigEndian 4 (ofBigEndian [a, b, c, d]) = [a, b, c, d] :=
        bigEndian_ofBigEndian [a, b, c, d]
      rw [frame, whole, header]
      exact ⟨by simp, Nat.le_of_not_lt long⟩
  case h_2 => cases found

/-- A body takes its frame off the stream. -/
theorem length_of_front_body (found : front stream = (.body body, rest)) :
    rest.length + 4 ≤ stream.length := by
  unfold front at found
  split at found
  · simp only at found
    split_ifs at found <;> cases found
    simp only [List.length_drop, List.length_cons]
    omega
  · cases found

/-- Where there is no body in front, nothing is taken. -/
theorem rest_of_front {piece : Piece} (found : front stream = (piece, rest))
    (stuck : ∀ body, piece ≠ .body body) : rest = stream := by
  unfold front at found
  split at found
  · simp only at found
    split_ifs at found <;> cases found
    · rfl
    · rfl
    · exact absurd rfl (stuck _)
  · cases found
    rfl

/-- What has come completely does not depend on what follows. -/
theorem front_append_of_body (found : front stream = (.body body, rest))
    (more : List UInt8) :
    front (stream ++ more) = (.body body, rest ++ more) := by
  unfold front at found
  split at found
  case h_1 a b c d tail =>
      simp only at found
      split_ifs at found with long short <;> cases found
      have enough : ofBigEndian [a, b, c, d] ≤ tail.length := by omega
      simp only [List.cons_append, front]
      rw [if_neg long, if_neg (by rw [List.length_append]; omega),
        List.take_append_of_le_length enough, List.drop_append_of_le_length enough]
  case h_2 => cases found

/-- A header that is too long stays at the front. -/
theorem front_append_of_oversize (found : front stream = (.oversize, rest))
    (more : List UInt8) :
    front (stream ++ more) = (.oversize, rest ++ more) := by
  unfold front at found
  split at found
  case h_1 a b c d tail =>
      simp only at found
      split_ifs at found with long short <;> cases found
      simp only [List.cons_append, front]
      rw [if_pos long]
  case h_2 => cases found

/-- The frames of messages. -/
def frames (encode : α → List UInt8) (as : List α) : List UInt8 :=
  as.flatMap (frame ∘ encode)

theorem frames_append (encode : α → List UInt8) (as more : List α) :
    frames encode (as ++ more) = frames encode as ++ frames encode more :=
  List.flatMap_append

/-- What stands at the front of a beginning of frames is the first of them. -/
theorem front_frames {encode : α → List UInt8} {as : List α} {left : List UInt8}
    (fits : ∀ a ∈ as, (encode a).length ≤ maxBody)
    (found : (front stream).1 ≠ .more)
    (whole : stream ++ left = frames encode as) :
    ∃ a as' rest, as = a :: as' ∧ front stream = (.body (encode a), rest) ∧
      rest ++ left = frames encode as' := by
  cases as with
  | nil =>
      have nothing : stream = [] := (List.append_eq_nil_iff.mp whole).1
      rw [nothing] at found
      exact absurd rfl found
  | cons a as =>
      have first : front (stream ++ left) =
          (.body (encode a), frames encode as) := by
        rw [whole, frames, List.flatMap_cons]
        exact front_frame (fits a (List.mem_cons_self ..)) _
      generalize piece : front stream = out at found
      obtain ⟨_ | _ | body, rest⟩ := out
      · exact absurd rfl found
      · rw [front_append_of_oversize piece left] at first
        cases first
      · rw [front_append_of_body piece left] at first
        obtain ⟨same, rest_same⟩ := Prod.mk.inj first
        cases same
        exact ⟨a, as, rest, rfl, rfl, rest_same⟩

/-- Where there is no whole frame there are no frames. -/
theorem frames_eq_nil {encode : α → List UInt8} {as : List α}
    (fits : ∀ a ∈ as, (encode a).length ≤ maxBody)
    (short : (front (frames encode as)).1 = .more) :
    as = [] := by
  cases as with
  | nil => rfl
  | cons a as =>
      rw [frames, List.flatMap_cons, Function.comp_apply,
        front_frame (fits a (List.mem_cons_self ..))] at short
      cases short

/-- Where frames begin other frames, their bodies begin the others. -/
theorem prefix_of_frames {bodies sent : List (List UInt8)}
    (short : ∀ b ∈ bodies, b.length ≤ maxBody)
    (fits : ∀ b ∈ sent, b.length ≤ maxBody)
    (begins : bodies.flatMap frame <+: sent.flatMap frame) :
    bodies <+: sent := by
  induction bodies generalizing sent with
  | nil => exact List.nil_prefix
  | cons b bodies ih =>
      obtain ⟨left, whole⟩ := begins
      have first : front ((b :: bodies).flatMap frame) =
          (.body b, bodies.flatMap frame) :=
        front_frame (short b List.mem_cons_self) _
      have whole : (b :: bodies).flatMap frame ++ left = frames id sent := whole
      obtain ⟨c, sent, rest, rfl, found, others⟩ :=
        front_frames fits (by rw [first]; exact Piece.noConfusion) whole
      rw [first] at found
      cases found
      obtain ⟨more, rfl⟩ := ih (fun b listed => short b (.tail _ listed))
        (fun b listed => fits b (.tail _ listed)) ⟨left, others⟩
      exact ⟨more, rfl⟩

/-! ## The splitter -/

namespace Splitter

/-- The stream from the point up to which it has been split: a header that has
been taken is still owed its body. -/
def owed (s : Splitter) (buffer : List UInt8) : List UInt8 :=
  match s.awaited with
  | some n => bigEndian 4 n ++ buffer
  | none => buffer

/-- The header that has been taken was not too long. -/
def IsSound (s : Splitter) : Prop := ∀ n ∈ s.awaited, n ≤ maxBody

theorem isSound_fresh : fresh.IsSound := by
  intro n awaited
  cases awaited

theorem owed_append (more : List UInt8) :
    s.owed (buffer ++ more) = s.owed buffer ++ more := by
  obtain ⟨_ | n⟩ := s <;> simp [owed]

/-- Taking a body is reading its frame. -/
theorem front_takeBody {n : Nat} (fits : n ≤ maxBody) (buffer : List UInt8) :
    front (bigEndian 4 n ++ buffer) =
        ((takeBody n buffer).1,
          (takeBody n buffer).2.1.owed (takeBody n buffer).2.2) ∧
      (takeBody n buffer).2.1.IsSound := by
  rw [front_header fits, takeBody]
  by_cases short : buffer.length < n
  · have cut : ¬ (buffer.take n).length = n := by
      rw [List.length_take]
      omega
    rw [if_pos short]
    simp only [if_neg cut]
    refine ⟨rfl, ?_⟩
    intro m awaited
    cases awaited
    exact fits
  · have whole : (buffer.take n).length = n := by
      rw [List.length_take]
      omega
    rw [if_neg short]
    simp only [if_pos whole]
    exact ⟨rfl, isSound_fresh⟩

/-- A splitter finds what stands at the front of the stream. -/
theorem front_owed (sound : s.IsSound) (buffer : List UInt8) :
    front (s.owed buffer) =
      ((s.next buffer).1, (s.next buffer).2.1.owed (s.next buffer).2.2) ∧
      (s.next buffer).2.1.IsSound := by
  obtain ⟨_ | n⟩ := s
  · unfold next
    simp only [owed]
    split
    case h_1 a b c d tail =>
        have header : bigEndian 4 (ofBigEndian [a, b, c, d]) = [a, b, c, d] :=
          bigEndian_ofBigEndian [a, b, c, d]
        by_cases long : maxBody < ofBigEndian [a, b, c, d]
        · simp only [if_pos long, front]
          exact ⟨trivial, sound⟩
        · simp only [if_neg long]
          have read := front_takeBody (Nat.le_of_not_lt long) tail
          rw [header] at read
          exact read
    case h_2 short =>
        refine ⟨?_, sound⟩
        rw [front]
        intro a b c d tail same
        exact short a b c d tail same
  · exact front_takeBody (sound n rfl) buffer

/-- A fresh splitter takes the frame of a body off its buffer,
and nothing more. -/
theorem next_frame (fits : body.length ≤ maxBody) (rest : List UInt8) :
    fresh.next (frame body ++ rest) = (.body body, fresh, rest) := by
  have small : body.length < byteRange 4 := Nat.lt_of_le_of_lt fits (by decide)
  have header : ofBigEndian (bigEndian 4 body.length) = body.length := by
    rw [ofBigEndian_bigEndian, Nat.mod_eq_of_lt small]
  have whole : takeBody body.length (body ++ rest) = (.body body, fresh, rest) := by
    simp [takeBody]
  rw [frame, List.append_assoc]
  simp only [bigEndian] at header ⊢
  simp only [List.cons_append, List.nil_append, next, fresh]
  rw [header, if_neg (Nat.not_lt.mpr fits)]
  exact whole

end Splitter

/-! ## Messages -/

/-- The results of a whole stream: a header that is too long ends it, and a frame
that is not complete is left. -/
def split (read : List UInt8 → Except Fault α) (stream : List UInt8) :
    List (Except CodecFault α) :=
  match _found : front stream with
  | (.more, _) => []
  | (.oversize, _) => [.error .oversizeHeader]
  | (.body body, rest) =>
    (match read body with
      | .ok a => .ok a
      | .error e => .error (.body e)) :: split read rest
termination_by stream.length
decreasing_by
  have shorter := length_of_front_body _found
  omega

theorem split_of_front_more (found : (front stream).1 = .more) :
    split read stream = [] := by
  rw [split]
  split <;> simp_all

theorem split_of_front_oversize (found : (front stream).1 = .oversize) :
    split read stream = [.error .oversizeHeader] := by
  rw [split]
  split <;> simp_all

theorem split_of_front_body (found : front stream = (.body body, rest)) :
    split read stream = (read body).mapError .body :: split read rest := by
  rw [split]
  split <;> rename_i other
  · rw [found] at other
    cases other
  · rw [found] at other
    cases other
  · rw [found] at other
    cases other
    cases read body <;> rfl

/-- The messages of a stream in front of the first fault. -/
def messages (read : List UInt8 → Except Fault α) (stream : List UInt8) : List α :=
  (Reception.untilFault (split read stream)).1

theorem messages_of_front_more (found : (front stream).1 = .more) :
    messages read stream = [] := by
  rw [messages, split_of_front_more found]
  rfl

theorem messages_of_front_oversize (found : front stream = (.oversize, rest)) :
    messages read stream = [] := by
  rw [messages, split_of_front_oversize (by rw [found])]
  rfl

theorem messages_of_front_body (found : front stream = (.body body, rest)) :
    messages read stream =
      match read body with
      | .ok a => a :: messages read rest
      | .error _ => [] := by
  rw [messages, split_of_front_body found]
  cases read body <;> rfl

@[simp] theorem messages_nil : messages read [] = [] := messages_of_front_more rfl

/-- More bytes only add messages. -/
theorem messages_prefix (read : List UInt8 → Except Fault α)
    (stream more : List UInt8) :
    messages read stream <+: messages read (stream ++ more) := by
  induction size : stream.length using Nat.strongRecOn generalizing stream with
  | ind n ih =>
      generalize found : front stream = out
      obtain ⟨_ | _ | body, rest⟩ := out
      · rw [messages_of_front_more (by rw [found])]
        exact List.nil_prefix
      · rw [messages_of_front_oversize found]
        exact List.nil_prefix
      · rw [messages_of_front_body found,
          messages_of_front_body (front_append_of_body found more)]
        have shorter := length_of_front_body found
        cases read body with
        | error e => exact List.nil_prefix
        | ok a =>
            exact List.prefix_cons_inj a |>.mpr (ih rest.length (by omega) rest rfl)

/-- Messages that can be read back are read back. -/
theorem messages_frames {encode : α → List UInt8} (stream : List UInt8)
    {as : List α}
    (readable : ∀ a ∈ as, (encode a).length ≤ maxBody ∧ read (encode a) = .ok a) :
    messages read (frames encode as ++ stream) = as ++ messages read stream := by
  induction as with
  | nil => rfl
  | cons a as ih =>
      obtain ⟨fits, back⟩ := readable a (List.mem_cons_self ..)
      rw [frames, List.flatMap_cons, List.append_assoc, Function.comp_apply,
        messages_of_front_body (front_frame fits _), back]
      have others := ih fun b listed => readable b (List.mem_cons_of_mem _ listed)
      simp only [List.cons_append]
      rw [← others]
      rfl

/-! ## What a decoder finds -/

/-- What a decoder finds at the front of a stream, and what it
leaves of the stream. -/
inductive Decodes (read : List UInt8 → Except Fault α) (stream : List UInt8) :
    Decoded α → List UInt8 → Prop
  | more {left} (short : (front stream).1 = .more) (same : left = stream) :
      Decodes read stream .more left
  | message {piece left a} (whole : front stream = (.body piece, left))
      (back : read piece = .ok a) :
      Decodes read stream (.message a) left
  | fault {f left} (found : (front stream).1 ≠ .more)
      (hidden : ∀ more, messages read (stream ++ more) = []) :
      Decodes read stream (.fault f) left

theorem decodes_of_decodeNext {out : Decoded α} (sound : s.IsSound)
    (found : decodeNext read s buffer = (out, s', rest)) :
    s'.IsSound ∧ Decodes read (s.owed buffer) out (s'.owed rest) := by
  obtain ⟨piece, sound⟩ := Splitter.front_owed sound buffer
  rw [decodeNext] at found
  generalize s.next buffer = next at *
  obtain ⟨_ | _ | body, next, left⟩ := next
  · cases found
    exact ⟨sound,
      .more (by rw [piece]) (rest_of_front piece fun _ => Piece.noConfusion)⟩
  · cases found
    -- the splitter looks at the header again and again
    refine ⟨sound, .fault (by rw [piece]; exact Piece.noConfusion) fun more => ?_⟩
    exact messages_of_front_oversize (front_append_of_oversize piece more)
  · simp only at found
    cases back : read body with
    | ok a =>
        rw [back] at found
        cases found
        exact ⟨sound, .message piece back⟩
    | error e =>
        rw [back] at found
        cases found
        refine ⟨sound, .fault (by rw [piece]; exact Piece.noConfusion)
          fun more => ?_⟩
        rw [messages_of_front_body (front_append_of_body piece more), back]

end ElementAgent.Wire
