import ElementAgent.Proofs.Wire.Stream

/-!
# Frames do not depend on how bytes arrive

A stream comes in chunks, and a cut may fall anywhere: between frames, inside a
header, right behind it, inside a body. Main statement: a decoder that is fed the
chunks one after the other, and asked after each for all it has, gives the
results of the whole stream, however it is cut (`decodeChunks_eq_split`). A
header that is too long is not consumed, so it is found again with every later
chunk and counts once.
-/

namespace ElementAgent.Wire

open MessagePack (Fault)

variable {α : Type} {read : List UInt8 → Except Fault α} {s s' : Splitter}
  {body buffer rest stream left : List UInt8}
  {results found : List (Except CodecFault α)}

/-! ## Chunks -/

/-- The results of feeding chunks to a decoder that has `buffer` left, and what it
has left then. -/
def decodeChunks (read : List UInt8 → Except Fault α) :
    Splitter → (buffer : List UInt8) → (chunks : List (List UInt8)) →
      List (Except CodecFault α) × Splitter × List UInt8
  | s, buffer, [] => ([], s, buffer)
  | s, buffer, chunk :: chunks =>
    let (found, s, buffer) := decodeAll read s (buffer ++ chunk)
    let (others, s, buffer) := decodeChunks read s buffer chunks
    (found ++ others, s, buffer)

def isOversize : Except CodecFault α → Bool
  | .error .oversizeHeader => true
  | _ => false

/-- The results without those that only repeat that a header is too long. -/
def oversizeOnce : List (Except CodecFault α) → List (Except CodecFault α)
  | [] => []
  | r :: rs =>
      if isOversize r && rs.head?.any isOversize then oversizeOnce rs
      else r :: oversizeOnce rs

/-! ## Where decoding stops -/

/-- There is no complete frame in front of the stream. -/
def IsBlocked (stream : List UInt8) : Prop := ∀ body, (front stream).1 ≠ .body body

theorem isBlocked_nil : IsBlocked [] := fun _ => Piece.noConfusion

/-- Where there is no frame in front of the stream, nothing is taken off it. -/
theorem isBlocked_of_front {piece : Piece} (found : front stream = (piece, rest))
    (other : ∀ body, piece ≠ .body body) : rest = stream ∧ IsBlocked stream := by
  refine ⟨rest_of_front found other, ?_⟩
  intro body
  rw [found]
  exact other body

/-- A stream whose first results are known, up to where it is blocked. -/
inductive Splits (read : List UInt8 → Except Fault α) :
    List UInt8 → List (Except CodecFault α) → List UInt8 → Prop
  | blocked {left : List UInt8} (stuck : IsBlocked left) : Splits read left [] left
  | body {stream body rest left : List UInt8} {results : List (Except CodecFault α)}
      (whole : front stream = (.body body, rest))
      (others : Splits read rest results left) :
      Splits read stream ((read body).mapError .body :: results) left

namespace Splits

theorem isBlocked (h : Splits read stream results left) : IsBlocked left := by
  induction h with
  | blocked stuck => exact stuck
  | body _ _ ih => exact ih

/-- No result of a complete frame is a header that is too long. -/
theorem not_oversize (h : Splits read stream results left) :
    ∀ r ∈ results, isOversize r = false := by
  induction h with
  | blocked _ => simp
  | @body _ body _ _ _ _ _ ih =>
      intro r listed
      rcases List.mem_cons.mp listed with rfl | later
      · cases read body <;> rfl
      · exact ih r later

/-- What follows does not change the results, and goes on where the
stream was blocked. -/
theorem split_append (h : Splits read stream results left) (more : List UInt8) :
    split read (stream ++ more) = results ++ split read (left ++ more) := by
  induction h with
  | blocked _ => rfl
  | body whole _ ih =>
      rw [split_of_front_body (front_append_of_body whole more), ih,
        List.cons_append]

/-- A header that is too long blocks the stream for good. -/
theorem of_oversize (found : (front stream).1 = .oversize)
    (h : Splits read stream results left) :
    results = [] ∧ left = stream := by
  cases h with
  | blocked _ => exact ⟨rfl, rfl⟩
  | body whole _ =>
      rw [whole] at found
      cases found

end Splits

/-! ## Decoding a buffer -/

/-- With a step for every four bytes a decoder gets to where the
stream is blocked. -/
theorem decodeUpTo_splits (sound : s.IsSound) {steps : Nat}
    (enough : (s.owed buffer).length < 4 * steps)
    (run : decodeUpTo read steps s buffer = (found, s', rest)) :
    s'.IsSound ∧ ∃ results, Splits read (s.owed buffer) results (s'.owed rest) ∧
      found = results ++ split read (s'.owed rest) := by
  induction steps generalizing s buffer found with
  | zero => omega
  | succ steps ih =>
      obtain ⟨piece, sound⟩ := Splitter.front_owed sound buffer
      rw [decodeUpTo, decodeNext] at run
      generalize s.next buffer = next at *
      obtain ⟨_ | _ | body, next, left⟩ := next
      · cases run
        obtain ⟨same, stuck⟩ := isBlocked_of_front piece fun _ => Piece.noConfusion
        rw [same] at piece ⊢
        refine ⟨sound, [], .blocked stuck, ?_⟩
        rw [split_of_front_more (by rw [piece])]
        rfl
      · cases run
        obtain ⟨same, stuck⟩ := isBlocked_of_front piece fun _ => Piece.noConfusion
        rw [same] at piece ⊢
        refine ⟨sound, [], .blocked stuck, ?_⟩
        rw [split_of_front_oversize (by rw [piece])]
        rfl
      · -- a body takes four bytes at least off the stream, and one step
        have shorter : (next.owed left).length + 4 ≤ (s.owed buffer).length :=
          length_of_front_body piece
        have fewer : (next.owed left).length < 4 * steps := by omega
        generalize again : decodeUpTo read steps next left = out at run
        obtain ⟨others, s₂, rest₂⟩ := out
        have first : found = (read body).mapError .body :: others ∧ s₂ = s' ∧
            rest₂ = rest := by
          cases back : read body <;> simp only [back, again] at run <;>
            cases run <;>
            exact ⟨rfl, rfl, rfl⟩
        obtain ⟨rfl, rfl, rfl⟩ := first
        obtain ⟨sound', results, splits, all⟩ := ih (s := next) sound fewer again
        exact ⟨sound', _, .body piece splits, by rw [all, List.cons_append]⟩

theorem decodeAll_splits (sound : s.IsSound)
    (run : decodeAll read s buffer = (found, s', rest)) :
    s'.IsSound ∧ ∃ results, Splits read (s.owed buffer) results (s'.owed rest) ∧
      found = results ++ split read (s'.owed rest) := by
  refine decodeUpTo_splits sound ?_ run
  -- a header that has been taken counts four bytes
  have header : (s.owed buffer).length ≤ buffer.length + 4 := by
    obtain ⟨_ | n⟩ := s
    · exact Nat.le_add_right _ _
    · simp only [Splitter.owed, List.length_append, length_bigEndian]
      omega
  omega

/-! ## Decoding chunks -/

theorem oversizeOnce_append (clean : ∀ r ∈ results, isOversize r = false)
    (more : List (Except CodecFault α)) :
    oversizeOnce (results ++ more) = results ++ oversizeOnce more := by
  induction results with
  | nil => rfl
  | cons r rs ih =>
      have first : isOversize r = false := clean r (List.mem_cons_self ..)
      rw [List.cons_append, oversizeOnce,
        ih fun q later => clean q (List.mem_cons_of_mem _ later)]
      simp [first]

/-- While the stream is blocked by a header that is too long, every chunk gives
that result once more. -/
theorem oversizeOnce_again (stuck : IsBlocked stream) {chunk : List UInt8}
    (splits : Splits read (stream ++ chunk) results left)
    (more : List (Except CodecFault α)) :
    oversizeOnce (split read stream ++ (results ++ split read left ++ more)) =
      results ++ oversizeOnce (split read left ++ more) := by
  generalize piece : front stream = out at stuck
  obtain ⟨_ | _ | body, rest⟩ := out
  · rw [split_of_front_more (by rw [piece]), List.nil_append, List.append_assoc,
      oversizeOnce_append splits.not_oversize]
  · have still : (front (stream ++ chunk)).1 = .oversize := by
      rw [front_append_of_oversize piece chunk]
    obtain ⟨rfl, rfl⟩ := splits.of_oversize still
    rw [split_of_front_oversize (by rw [piece]), split_of_front_oversize still]
    rfl
  · exact absurd (congrArg Prod.fst piece) (stuck body)

theorem oversizeOnce_blocked (stuck : IsBlocked stream) :
    oversizeOnce (split read stream) = split read stream := by
  cases piece : (front stream).1 with
  | more =>
      rw [split_of_front_more piece]
      rfl
  | oversize =>
      rw [split_of_front_oversize piece]
      rfl
  | body body => exact absurd piece (stuck body)

/-- Feeding chunks goes on from where the stream was blocked to where it is
blocked in the end. -/
theorem decodeChunks_spec (sound : s.IsSound) (stuck : IsBlocked (s.owed buffer))
    {chunks : List (List UInt8)}
    (run : decodeChunks read s buffer chunks = (found, s', rest)) :
    s'.IsSound ∧ IsBlocked (s'.owed rest) ∧
      oversizeOnce (split read (s.owed buffer) ++ found) =
        split read (s.owed buffer ++ chunks.flatten) := by
  induction chunks generalizing s buffer found with
  | nil =>
      cases run
      refine ⟨sound, stuck, ?_⟩
      rw [List.append_nil, List.flatten_nil, List.append_nil]
      exact oversizeOnce_blocked stuck
  | cons chunk chunks ih =>
      generalize first : decodeAll read s (buffer ++ chunk) = out
      obtain ⟨results, s₁, buffer₁⟩ := out
      generalize others : decodeChunks read s₁ buffer₁ chunks = out
      obtain ⟨more, s₂, buffer₂⟩ := out
      simp only [decodeChunks, first, others] at run
      cases run
      obtain ⟨sound₁, results, splits, rfl⟩ := decodeAll_splits sound first
      obtain ⟨sound₂, stuck₂, once⟩ := ih sound₁ splits.isBlocked others
      refine ⟨sound₂, stuck₂, ?_⟩
      rw [Splitter.owed_append] at splits
      rw [oversizeOnce_again stuck splits, once, List.flatten_cons,
        ← List.append_assoc, splits.split_append]

/-- Where the stream is blocked a decoder needs more, or finds that a
header is too long. -/
theorem decodeNext_of_isBlocked (sound : s.IsSound)
    (stuck : IsBlocked (s.owed buffer)) :
    (decodeNext read s buffer).1 = .more ∨
    (decodeNext read s buffer).1 = .fault .oversizeHeader := by
  obtain ⟨piece, -⟩ := Splitter.front_owed sound buffer
  rw [decodeNext]
  generalize s.next buffer = next at *
  obtain ⟨_ | _ | body, next, left⟩ := next
  · exact .inl rfl
  · exact .inr rfl
  · exact absurd (congrArg Prod.fst piece) (stuck body)

/-- However a stream is cut into chunks, a fresh decoder that is asked after each
for all it has gives the results of the whole stream, each once, and is left where
it needs more or where a header is too long. -/
theorem decodeChunks_eq_split (read : List UInt8 → Except Fault α)
    (chunks : List (List UInt8)) :
    oversizeOnce (decodeChunks read .fresh [] chunks).1 =
      split read chunks.flatten ∧
      ((decodeNext read (decodeChunks read .fresh [] chunks).2.1
          (decodeChunks read .fresh [] chunks).2.2).1 = .more ∨
        (decodeNext read (decodeChunks read .fresh [] chunks).2.1
          (decodeChunks read .fresh [] chunks).2.2).1 =
            .fault .oversizeHeader) := by
  generalize run : decodeChunks read .fresh [] chunks = out
  obtain ⟨found, s, rest⟩ := out
  obtain ⟨sound, stuck, once⟩ :=
    decodeChunks_spec Splitter.isSound_fresh isBlocked_nil run
  refine ⟨?_, decodeNext_of_isBlocked sound stuck⟩
  have empty : split read (Splitter.fresh.owed []) = [] := split_of_front_more rfl
  rwa [empty] at once

/-- The header of a body of 65537 bytes, in two pieces, and a byte behind it. -/
example : (decodeChunks read .fresh [] [[0, 1, 0], [1], [7]]).1 =
    [.error .oversizeHeader, .error .oversizeHeader] := rfl

end ElementAgent.Wire
