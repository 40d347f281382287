import ElementAgent.Proofs.Wire.Chunks
import ElementAgent.Wire.Format

/-!
# Streams that break off

A stream that ends between two frames has come to its end; one that ends anywhere
else has been cut. Main statement (`end_told_apart`): a decoder that was fed a
stream, however it came, and has given all that it has, takes the end for a fault
wherever the stream breaks off inside a header or inside a body, and for nothing
unusual where it ends behind a frame. In one place the two look alike: right
behind the header of a body of which nothing has come. There the header has been
taken off the buffer, which is all that is looked at, and the end is not told from
one between two frames (`cut_behind_header`).
-/

namespace ElementAgent.Wire

open MessagePack (Fault)

variable {α : Type} {read : List UInt8 → Except Fault α} {s s' : Splitter}
  {buffer rest stream whole left left' : List UInt8}
  {results more : List (Except CodecFault α)} {k : Nat}

/-- What a decoder that was fed the chunks, and has given all that it has, answers
at the end of the stream. -/
def lastAnswer (read : List UInt8 → Except Fault α) (chunks : List (List UInt8)) :
    Decoded α :=
  let (_, s, buffer) := decodeChunks read .fresh [] chunks
  (decodeLast read s buffer).1

/-! ## Where a stream ends -/

/-- The stream consists of complete frames and nothing else. -/
def IsFramed (stream : List UInt8) : Prop :=
  ∃ bodies : List (List UInt8), (∀ b ∈ bodies, b.length ≤ maxBody) ∧
    stream = bodies.flatMap frame

/-- Less than a frame: less than a header, or the header of a body that may come
and less than that body. -/
def IsPartial (left : List UInt8) : Prop :=
  left.length < 4 ∨ ∃ n part, n ≤ maxBody ∧ part.length < n ∧
  left = bigEndian 4 n ++ part

/-- Behind complete frames the stream has `k` bytes of one more, and not
the whole of it. -/
def BreaksOff (stream : List UInt8) (k : Nat) : Prop :=
  ∃ whole left, IsFramed whole ∧ IsPartial left ∧ left.length = k ∧
    stream = whole ++ left

/-- A stream that starts with the header of a body that is too long. -/
def IsOver (left : List UInt8) : Prop :=
  ∃ n more, maxBody < n ∧ n < byteRange 4 ∧ left = bigEndian 4 n ++ more

/-- Behind complete frames the stream has the header of a body
that is too long. -/
def RunsOver (stream : List UInt8) : Prop :=
  ∃ whole left, IsFramed whole ∧ IsOver left ∧ stream = whole ++ left

theorem isFramed_nil : IsFramed [] := ⟨[], nofun, rfl⟩

theorem IsFramed.cons {body : List UInt8} (fits : body.length ≤ maxBody)
    (h : IsFramed stream) :
    IsFramed (frame body ++ stream) := by
  obtain ⟨bodies, short, rfl⟩ := h
  exact ⟨body :: bodies, List.forall_mem_cons.mpr ⟨fits, short⟩, rfl⟩

/-- Between two frames nothing of the next one has come. -/
theorem breaksOff_zero_iff : BreaksOff stream 0 ↔ IsFramed stream := by
  constructor
  · rintro ⟨whole, left, framed, -, nothing, rfl⟩
    rwa [List.length_eq_zero_iff.mp nothing, List.append_nil]
  · intro framed
    exact ⟨stream, [], framed, .inl (by decide), rfl, (List.append_nil stream).symm⟩

theorem IsPartial.front_eq (h : IsPartial left) : (front left).1 = .more := by
  rcases h with short | ⟨n, part, fits, short, rfl⟩
  · unfold front
    split
    · simp only [List.length_cons] at short
      omega
    · rfl
  · rw [front_header fits, if_pos short]

theorem IsOver.front_eq (h : IsOver left) : (front left).1 = .oversize := by
  obtain ⟨n, more, long, small, rfl⟩ := h
  have header : ofBigEndian (bigEndian 4 n) = n := by
    rw [ofBigEndian_bigEndian, Nat.mod_eq_of_lt small]
  simp only [bigEndian] at header
  simp only [bigEndian, List.cons_append, List.nil_append, front]
  rw [header, if_pos long]

theorem isBlocked_of_partial (h : IsPartial left) : IsBlocked left := by
  intro body
  rw [h.front_eq]
  exact Piece.noConfusion

theorem isBlocked_of_over (h : IsOver left) : IsBlocked left := by
  intro body
  rw [h.front_eq]
  exact Piece.noConfusion

/-- Where no complete frame comes, less than a frame comes or a header
that is too long. -/
theorem IsBlocked.partial_or_over (stuck : IsBlocked left) :
    IsPartial left ∨ IsOver left := by
  match left with
  | [] | [_] | [_, _] | [_, _, _] => exact .inl (.inl (by simp))
  | a :: b :: c :: d :: part =>
      have header : bigEndian 4 (ofBigEndian [a, b, c, d]) = [a, b, c, d] :=
        bigEndian_ofBigEndian [a, b, c, d]
      have small : ofBigEndian [a, b, c, d] < byteRange 4 :=
        ofBigEndian_lt [a, b, c, d]
      have starts : a :: b :: c :: d :: part =
          bigEndian 4 (ofBigEndian [a, b, c, d]) ++ part := by
        rw [header]
        rfl
      by_cases long : maxBody < ofBigEndian [a, b, c, d]
      · exact .inr ⟨_, part, long, small, starts⟩
      · have fits := Nat.le_of_not_lt long
        have found := front_header fits part
        rw [← starts] at found
        by_cases short : part.length < ofBigEndian [a, b, c, d]
        · exact .inl (.inr ⟨_, part, fits, short, starts⟩)
        · rw [if_neg short] at found
          exact absurd (congrArg Prod.fst found) (stuck _)

/-! ## What is left of a stream -/

namespace Splits

/-- Where a stream is blocked it goes on with what follows. -/
theorem trans (h : Splits read stream results left) {behind : List UInt8}
    (h' : Splits read (left ++ behind) more left') :
    Splits read (stream ++ behind) (results ++ more) left' := by
  induction h with
  | blocked _ => exact h'
  | body piece _ ih => exact .body (front_append_of_body piece behind) (ih h')

theorem exists_framed (h : Splits read stream results left) :
    ∃ whole, IsFramed whole ∧ stream = whole ++ left := by
  induction h with
  | blocked _ => exact ⟨[], isFramed_nil, rfl⟩
  | body piece _ ih =>
      obtain ⟨whole, framed, rfl⟩ := ih
      obtain ⟨rfl, fits⟩ := eq_of_front_body piece
      exact ⟨_, framed.cons fits, (List.append_assoc ..).symm⟩

end Splits

/-- What stands behind the complete frames of a stream is
determined by the stream. -/
theorem left_unique {whole' : List UInt8} (framed : IsFramed whole)
    (framed' : IsFramed whole') (stuck : IsBlocked left)
    (stuck' : IsBlocked left')
    (same : whole ++ left = whole' ++ left') :
    left = left' := by
  obtain ⟨bodies, short, rfl⟩ := framed
  obtain ⟨bodies', short', rfl⟩ := framed'
  induction bodies generalizing bodies' with
  | nil =>
      cases bodies' with
      | nil => exact same
      | cons b bodies' =>
          -- one of the two has a frame where the other has none
          refine absurd ?_ (stuck b)
          rw [← List.nil_append left]
          rw [List.flatMap_nil] at same
          rw [same, List.flatMap_cons, List.append_assoc,
            front_frame (short' b List.mem_cons_self)]
  | cons b bodies ih =>
      have first :=
        front_frame (short b List.mem_cons_self) (bodies.flatMap frame ++ left)
      rw [← List.append_assoc, ← List.flatMap_cons, same] at first
      cases bodies' with
      | nil => exact absurd (congrArg Prod.fst first) (stuck' b)
      | cons b' bodies' =>
          rw [List.flatMap_cons, List.append_assoc,
            front_frame (short' b' List.mem_cons_self)] at first
          obtain ⟨-, others⟩ := Prod.mk.inj first
          exact ih (fun b listed => short b (.tail _ listed)) bodies'
            (fun b listed => short' b (.tail _ listed)) others.symm

/-- Feeding chunks leaves what stands behind the complete frames of the stream. -/
theorem decodeChunks_splits (sound : s.IsSound) (stuck : IsBlocked (s.owed buffer))
    {chunks : List (List UInt8)} {found : List (Except CodecFault α)}
    (run : decodeChunks read s buffer chunks = (found, s', rest)) :
    s'.IsSound ∧ ∃ results,
    Splits read (s.owed buffer ++ chunks.flatten) results (s'.owed rest) := by
  induction chunks generalizing s buffer found with
  | nil =>
      cases run
      rw [List.flatten_nil, List.append_nil]
      exact ⟨sound, [], .blocked stuck⟩
  | cons chunk chunks ih =>
      generalize first : decodeAll read s (buffer ++ chunk) = out
      obtain ⟨now, s₁, buffer₁⟩ := out
      generalize others : decodeChunks read s₁ buffer₁ chunks = out
      obtain ⟨later, s₂, buffer₂⟩ := out
      simp only [decodeChunks, first, others] at run
      cases run
      obtain ⟨sound₁, results, splits, -⟩ := decodeAll_splits sound first
      obtain ⟨sound₂, more, splits₂⟩ := ih sound₁ splits.isBlocked others
      rw [Splitter.owed_append] at splits
      rw [List.flatten_cons, ← List.append_assoc]
      exact ⟨sound₂, results ++ more, splits.trans splits₂⟩

/-! ## The end of a stream -/

/-- A splitter that needs more bytes has less than a header, or has taken the
header and has less than its body. -/
theorem Splitter.next_eq_more (found : s.next buffer = (.more, s', rest)) :
    (s'.awaited = none ∧ rest.length < 4) ∨
    ∃ n, s'.awaited = some n ∧ rest.length < n := by
  have short {n : Nat} {bytes : List UInt8}
      (found : takeBody n bytes = (.more, s', rest)) :
      s'.awaited = some n ∧ rest.length < n := by
    unfold takeBody at found
    dsimp only at found
    split_ifs at found with whole
    · cases found
    · cases found
      rw [List.length_take] at whole
      exact ⟨rfl, by omega⟩
  obtain ⟨_ | n⟩ := s
  · unfold next at found
    dsimp only at found
    split at found
    case h_1 a b c d tail =>
        split_ifs at found
        · cases found
        · exact .inr ⟨_, short found⟩
    case h_2 few =>
        cases found
        refine .inl ⟨rfl, ?_⟩
        match buffer with
        | [] | [_] | [_, _] | [_, _, _] => simp
        | a :: b :: c :: d :: tail => exact absurd rfl (few a b c d tail)
  · exact .inr ⟨n, short found⟩

/-- The end of a stream in front of less than a frame: it is looked at only
whether bytes are left in the buffer, and of the first four bytes all may have
been taken off it, or none. -/
theorem decodeLast_of_partial (sound : s.IsSound) (h : IsPartial (s.owed buffer)) :
    (decodeLast read s buffer).1 =
      if (s.owed buffer).length = 0 ∨ (s.owed buffer).length = 4 then .more
      else .fault .leftover := by
  obtain ⟨piece, -⟩ := Splitter.front_owed sound buffer
  have short := h.front_eq
  rw [piece] at short
  generalize found : s.next buffer = next at piece short
  obtain ⟨_, s', rest⟩ := next
  cases short
  have same : s'.owed rest = s.owed buffer :=
    rest_of_front piece fun _ => Piece.noConfusion
  have answer : (decodeLast read s buffer).1 =
      if rest = [] then .more else .fault .leftover := by
    rw [decodeLast, decodeNext, found]
    cases rest <;> rfl
  rw [answer, ← same]
  congr 1
  rcases Splitter.next_eq_more found with ⟨awaited, few⟩ | ⟨n, awaited, few⟩
  · -- nothing has been taken
    have length : (s'.owed rest).length = rest.length := by
      rw [Splitter.owed, awaited]
    rw [length, ← List.length_eq_zero_iff]
    exact propext (by omega)
  · -- the header has been taken
    have length : (s'.owed rest).length = 4 + rest.length := by
      simp only [Splitter.owed, awaited, List.length_append, length_bigEndian]
    rw [length, ← List.length_eq_zero_iff]
    exact propext (by omega)

theorem decodeLast_of_over (sound : s.IsSound) (h : IsOver (s.owed buffer)) :
    (decodeLast read s buffer).1 = .fault .oversizeHeader := by
  obtain ⟨piece, -⟩ := Splitter.front_owed sound buffer
  have oversize := h.front_eq
  rw [piece] at oversize
  generalize found : s.next buffer = next at piece oversize
  obtain ⟨_, s', rest⟩ := next
  cases oversize
  rw [decodeLast, decodeNext, found]

/-- Every stream ends in one of the ways that the answers at its
end tell apart. -/
theorem lastAnswer_cases (read : List UInt8 → Except Fault α)
    (chunks : List (List UInt8)) :
    ∃ whole left, IsFramed whole ∧ chunks.flatten = whole ++ left ∧
      (IsPartial left ∧
          lastAnswer read chunks = (if left.length = 0 ∨
            left.length = 4 then .more else .fault .leftover) ∨
        IsOver left ∧ lastAnswer read chunks = .fault .oversizeHeader) := by
  unfold lastAnswer
  generalize run : decodeChunks read .fresh [] chunks = out
  obtain ⟨found, s, rest⟩ := out
  obtain ⟨sound, results, splits⟩ :=
    decodeChunks_splits Splitter.isSound_fresh isBlocked_nil run
  obtain ⟨whole, framed, flat⟩ := splits.exists_framed
  refine ⟨whole, s.owed rest, framed, flat, ?_⟩
  rcases splits.isBlocked.partial_or_over with short | oversize
  · exact .inl ⟨short, decodeLast_of_partial sound short⟩
  · exact .inr ⟨oversize, decodeLast_of_over sound oversize⟩

theorem breaksOff_iff (framed : IsFramed whole) (short : IsPartial left) :
    BreaksOff (whole ++ left) k ↔ left.length = k := by
  constructor
  · rintro ⟨whole', left', framed', short', count, same⟩
    rwa [left_unique framed framed' (isBlocked_of_partial short)
      (isBlocked_of_partial short') same]
  · intro count
    exact ⟨whole, left, framed, short, count, rfl⟩

/-- A stream that breaks off does not run over. -/
theorem not_runsOver (framed : IsFramed whole) (short : IsPartial left) :
    ¬RunsOver (whole ++ left) := by
  rintro ⟨whole', left', framed', oversize, same⟩
  have piece := oversize.front_eq
  rw [← left_unique framed framed' (isBlocked_of_partial short)
    (isBlocked_of_over oversize) same, short.front_eq] at piece
  cases piece

/-- A stream that runs over does not break off. -/
theorem not_breaksOff (framed : IsFramed whole) (oversize : IsOver left) :
    ¬BreaksOff (whole ++ left) k := by
  rintro ⟨whole', left', framed', short, -, same⟩
  exact not_runsOver framed' short ⟨whole, left, framed, oversize, same.symm⟩

/-- However a stream came, a decoder that has given all that it has finds nothing
unusual in its end just if the stream consists of complete frames, or breaks off
right behind a header. Anywhere else inside a frame the end is a fault, and so is
a header that is too long; and there is no other answer. -/
theorem end_told_apart (read : List UInt8 → Except Fault α)
    (chunks : List (List UInt8)) :
    (lastAnswer read chunks = .more ↔
      IsFramed chunks.flatten ∨ BreaksOff chunks.flatten 4) ∧
    (lastAnswer read chunks = .fault .leftover ↔
      ∃ k, k ≠ 0 ∧ k ≠ 4 ∧ BreaksOff chunks.flatten k) ∧
    (lastAnswer read chunks = .fault .oversizeHeader ↔ RunsOver chunks.flatten) ∧
    (lastAnswer read chunks = .more ∨ lastAnswer read chunks = .fault .leftover ∨
      lastAnswer read chunks = .fault .oversizeHeader) := by
  obtain ⟨whole, left, framed, flat, ends⟩ := lastAnswer_cases read chunks
  rw [flat, ← breaksOff_zero_iff]
  rcases ends with ⟨short, answer⟩ | ⟨oversize, answer⟩
  · have count (k : Nat) : BreaksOff (whole ++ left) k ↔ left.length = k :=
      breaksOff_iff framed short
    have within := not_runsOver framed short
    rw [answer, count, count]
    by_cases unnoticed : left.length = 0 ∨ left.length = 4
    · rw [if_pos unnoticed]
      refine ⟨iff_of_true rfl unnoticed, iff_of_false nofun ?_,
        iff_of_false nofun within, .inl rfl⟩
      rintro ⟨k, other, other', cut⟩
      rw [count] at cut
      omega
    · rw [if_neg unnoticed]
      refine ⟨iff_of_false nofun unnoticed, iff_of_true rfl ?_,
        iff_of_false nofun within, .inr (.inl rfl)⟩
      exact ⟨left.length, by omega, by omega, (count _).mpr rfl⟩
  · have whole_frames (k : Nat) : ¬BreaksOff (whole ++ left) k :=
      not_breaksOff framed oversize
    rw [answer]
    refine ⟨iff_of_false nofun (not_or.mpr ⟨whole_frames 0, whole_frames 4⟩),
      iff_of_false nofun ?_,
      iff_of_true rfl ⟨whole, left, framed, oversize, rfl⟩, .inr (.inr rfl)⟩
    rintro ⟨k, -, -, cut⟩
    exact whole_frames k cut

/-- The end of a stream that breaks off inside a header, and of one that breaks
off inside a body, in whatever pieces they came. -/
example : lastAnswer decodeReply [[0, 0], [0]] = .fault .leftover ∧
    lastAnswer decodeReply [[0, 0, 0, 2, 0x81], []] = .fault .leftover := ⟨rfl, rfl⟩

/-- Neither end notices that a stream breaks off behind the header of a
body of one byte. -/
theorem cut_behind_header :
    lastAnswer decodeReply [[0, 0, 0, 1]] = .more ∧
      lastAnswer decodeRequest [[0, 0], [0, 1]] = .more ∧
      ¬IsFramed [0, 0, 0, 1] := by
  refine ⟨rfl, rfl, fun framed => ?_⟩
  have short : IsPartial [0, 0, 0, 1] :=
    .inr ⟨1, [], by decide, by decide, by decide⟩
  have four : [(0 : UInt8), 0, 0, 1].length = 0 :=
    (breaksOff_iff isFramed_nil short).mp (breaksOff_zero_iff.mpr framed)
  cases four

end ElementAgent.Wire
