import ElementAgent.Proofs.MessagePack.Metering
import ElementAgent.Proofs.MessagePack.Skipping

/-!
# What a log has to say

A value is a head with its elements behind it, and these are values again. `Walk`
goes through the values of a byte string from the first to the last, an element
behind the head that it belongs to, and says which log that gives: one entry for
each value, with the bytes that are left where it begins and the containers around
it. Where reading fails the walk ends, in a value or between two.

A walk tells what a log is worth, whoever kept it:

* **values take bytes**: each begins with fewer bytes left than the one before it,
  the first with no more than there are and the last with more than remain
  (`Walk.spaced`);
* **no more values than bytes**, whatever number of them was announced
  (`Spaced.length_add_le`);
* **no bytes but those**: what is left is an end of what there was
  (`Walk.suffix`).
-/

namespace ElementAgent.MessagePack

variable {t : Token} {head bytes mid rest content : List UInt8}
  {log inner : List Visit}
variable {ending : Option (List UInt8)} {depth low high n k size behind : Nat}

/-! ## Walks -/

/-- How many values follow a head as its elements. -/
def Token.elements : Token → Nat
  | .array count => count
  | .map count => 2 * count
  | _ => 0

/-- The log of single bytes of a byte string that are used one by one, `behind`
bytes following it. -/
inductive Used (depth behind : Nat) : (size : Nat) → List Visit → Prop
  | none {size : Nat} : Used depth behind size []
  | byte {size : Nat} {log : List Visit} (more : Used depth behind size log) :
      Used depth behind (size + 1) (⟨behind + (size + 1), depth, false⟩ :: log)

/-- `n` values are walked through, around which `depth` containers are open: they
stand in front of what is left in the end, or reading has failed somewhere in them
and nothing is. -/
inductive Walk : (depth n : Nat) → List UInt8 → List Visit →
    Option (List UInt8) → Prop
  | done {depth : Nat} {bytes : List UInt8} : Walk depth 0 bytes [] (some bytes)
  /-- Reading fails between two values. -/
  | stop {depth n : Nat} {bytes : List UInt8} : Walk depth n bytes [] none
  /-- Reading fails at a value. -/
  | broken {depth n : Nat} {bytes : List UInt8} (opens : Bool)
      (begun : bytes ≠ []) :
      Walk depth (n + 1) bytes [⟨bytes.length, depth, opens⟩] none
  /-- Reading fails in a container. -/
  | within {depth n : Nat} {t : Token} {head others : List UInt8}
      {inner : List Visit}
      (spelled : Spells t head) (container : t.isContainer = true)
      (elements : Walk (depth + 1) t.elements others inner none) :
      Walk depth (n + 1) (head ++ others)
        (⟨(head ++ others).length, depth, true⟩ :: inner) none
  /-- A value with its elements. -/
  | value {depth n : Nat} {t : Token} {head others mid : List UInt8}
      {inner log : List Visit}
      {ending : Option (List UInt8)} (spelled : Spells t head)
      (plain : ∀ size, t ≠ .ext size)
      (elements : Walk (depth + 1) t.elements others inner (some mid))
      (more : Walk depth n mid log ending) :
      Walk depth (n + 1) (head ++ others)
        (⟨(head ++ others).length, depth, t.isContainer⟩ :: (inner ++ log)) ending
  /-- An extension with its type byte and its content. -/
  | ext {depth n size : Nat} {head content others : List UInt8} {log : List Visit}
      {ending : Option (List UInt8)} (spelled : Spells (.ext size) head)
      (type : UInt8)
      (whole : content.length = size) (more : Walk depth n others log ending) :
      Walk depth (n + 1) (head ++ type :: (content ++ others))
        (⟨(head ++ type :: (content ++ others)).length, depth, true⟩ :: log) ending
  /-- A byte string of which bytes are used as values. -/
  | bin {depth n : Nat} {head content others : List UInt8} {inner log : List Visit}
      {ending : Option (List UInt8)} (spelled : Spells (.bin content) head)
      (used : Used depth others.length content.length inner)
      (more : Walk depth n others log ending) :
      Walk depth (n + 1) (head ++ others)
        (⟨(head ++ others).length, depth, false⟩ :: (inner ++ log)) ending

theorem Used.within (used : Used depth behind size log) :
    Used (depth + 1) behind size (log.map Visit.within) := by
  induction used with
  | none => exact .none
  | byte _ ih => exact .byte ih

/-- No container is opened in a byte string. -/
theorem Used.closed (used : Used depth behind size log) :
    ∀ v ∈ log, v.depth = depth ∧ v.opens = false := by
  induction used with
  | none => rintro _ ⟨⟩
  | byte _ ih => exact List.forall_mem_cons.mpr ⟨⟨rfl, rfl⟩, ih⟩

namespace Walk

/-- A value that has no elements. -/
theorem scalar (token : Token.read bytes = .ok (t, rest))
    (plain : t.isContainer = false) :
    Walk depth 1 bytes [⟨bytes.length, depth, false⟩] (some rest) := by
  obtain ⟨head, rfl, spelled⟩ := exists_spells token
  have none_within : t.elements = 0 := by
    cases t with
    | array count | map count => cases plain
    | _ => rfl
  have elements : Walk (depth + 1) t.elements rest [] (some rest) :=
    none_within ▸ done
  rw [← plain]
  exact value spelled (by rintro size rfl; cases plain) elements done

/-- Walks one after the other. -/
theorem append (first : Walk depth n bytes log (some mid)) {later : List Visit}
    (second : Walk depth k mid later ending) :
    Walk depth (n + k) bytes (log ++ later) ending := by
  generalize reached : some mid = stopped at first
  induction first with
  | done =>
      cases reached
      rwa [Nat.zero_add]
  | stop | broken | within => cases reached
  | value spelled plain elements more _ ih =>
      rw [List.cons_append, List.append_assoc, Nat.add_right_comm]
      exact value spelled plain elements (ih second reached)
  | ext spelled type whole more ih =>
      rw [List.cons_append, Nat.add_right_comm]
      exact ext spelled type whole (ih second reached)
  | bin spelled used more ih =>
      rw [List.cons_append, List.append_assoc, Nat.add_right_comm]
      exact bin spelled used (ih second reached)

/-- Where reading has failed there may have been more values to come. -/
theorem cut (walk : Walk depth n bytes log none) (k : Nat) :
    Walk depth (n + k) bytes log none := by
  generalize failed : none = ending at walk
  induction walk with
  | done => cases failed
  | stop => exact stop
  | broken opens begun =>
      rw [Nat.add_right_comm]
      exact broken opens begun
  | within spelled container elements =>
      rw [Nat.add_right_comm]
      exact within spelled container elements
  | value spelled plain elements more _ ih =>
      cases failed
      rw [Nat.add_right_comm]
      exact value spelled plain elements (ih rfl)
  | ext spelled type whole more ih =>
      cases failed
      rw [Nat.add_right_comm]
      exact ext spelled type whole (ih rfl)
  | bin spelled used more ih =>
      cases failed
      rw [Nat.add_right_comm]
      exact bin spelled used (ih rfl)

/-- The same walk inside of one more container. -/
theorem inside (walk : Walk depth n bytes log ending) :
    Walk (depth + 1) n bytes (log.map Visit.within) ending := by
  induction walk with
  | done => exact done
  | stop => exact stop
  | broken opens begun => exact broken opens begun
  | within spelled container elements ih => exact within spelled container ih
  | value spelled plain elements more inner ih =>
      rw [List.map_cons, List.map_append]
      exact value spelled plain inner ih
  | ext spelled type whole more ih => exact ext spelled type whole ih
  | bin spelled used more ih =>
      rw [List.map_cons, List.map_append]
      exact bin spelled used.within ih

end Walk

/-! ## Bytes -/

/-- The values of a log begin one behind the other, with `high` bytes left at most
and more than `low`. -/
structure Spaced (low high : Nat) (log : List Visit) : Prop where
  falling : log.Pairwise fun v w => w.left < v.left
  bounds : ∀ v ∈ log, low < v.left ∧ v.left ≤ high

namespace Spaced

theorem nil : Spaced low high [] := ⟨.nil, by rintro _ ⟨⟩⟩

/-- A value in front of others, at which more bytes are left than
at any of them. -/
theorem cons {left first : Nat} {opens : Bool} (others : Spaced low first log)
    (below : low ≤ first) (ahead : first < left) (above : left ≤ high) :
    Spaced low high (⟨left, depth, opens⟩ :: log) where
  falling := List.pairwise_cons.mpr
    ⟨fun w later => Nat.lt_of_le_of_lt (others.bounds w later).2 ahead,
      others.falling⟩
  bounds := List.forall_mem_cons.mpr
    ⟨⟨Nat.lt_of_le_of_lt below ahead, above⟩, fun w later =>
      ⟨(others.bounds w later).1,
        Nat.le_trans (others.bounds w later).2 (by omega)⟩⟩

/-- The second log goes on where the first one ends. -/
theorem append {later : List Visit} (first : Spaced k high log)
    (second : Spaced low k later) (below : low ≤ k)
    (above : k ≤ high) : Spaced low high (log ++ later) where
  falling := List.pairwise_append.mpr
    ⟨first.falling, second.falling, fun v earlier w listed =>
    Nat.lt_of_le_of_lt (second.bounds w listed).2 (first.bounds v earlier).1⟩
  bounds v listed := by
    rcases List.mem_append.mp listed with earlier | listed
    · exact ⟨Nat.lt_of_le_of_lt below (first.bounds v earlier).1,
        (first.bounds v earlier).2⟩
    · exact ⟨(second.bounds v listed).1,
        Nat.le_trans (second.bounds v listed).2 above⟩

/-- There are no more values than bytes. -/
theorem length_add_le (h : Spaced low high log) (le : low ≤ high) :
    log.length + low ≤ high := by
  induction log generalizing high with
  | nil => simpa using le
  | cons v log ih =>
      obtain ⟨first, falling⟩ := List.pairwise_cons.mp h.falling
      obtain ⟨above, below⟩ := h.bounds v List.mem_cons_self
      have others : Spaced low (v.left - 1) log :=
        ⟨falling, fun w later =>
          ⟨(h.bounds w (.tail _ later)).1, by have := first w later; omega⟩⟩
      have few := ih others (by omega)
      rw [List.length_cons]
      omega

end Spaced

/-- How many bytes are left in the end; none where reading failed. -/
def bytesLeft (ending : Option (List UInt8)) : Nat := ending.elim 0 List.length

theorem Spells.length_pos (spelled : Spells t head) : 0 < head.length := by
  cases spelled <;> simp

/-- A byte string's head has its content in it. -/
theorem Spells.length_lt_of_bin (spelled : Spells (.bin content) head) :
    content.length < head.length := by
  cases spelled with
  | bin form fits =>
      rw [List.length_cons, List.length_append]
      omega

theorem Used.spaced (used : Used depth behind size log) :
    Spaced behind (behind + size) log := by
  induction used with
  | none => exact .nil
  | byte _ ih => exact ih.cons (by omega) (by omega) (by omega)

namespace Walk

/-- What is left is the end of the bytes. -/
theorem suffix (walk : Walk depth n bytes log ending)
    (reached : ending = some rest) :
    rest <:+ bytes := by
  induction walk generalizing rest with
  | done =>
      cases reached
      exact List.suffix_refl _
  | stop | broken | within => cases reached
  | value spelled plain elements more inner ih =>
      exact (ih reached).trans ((inner rfl).trans (List.suffix_append _ _))
  | ext spelled type whole more ih =>
      refine (ih reached).trans (.trans ?_ (List.suffix_append _ _))
      exact (List.suffix_append _ _).trans (List.suffix_cons type _)
  | bin spelled used more ih => exact (ih reached).trans (List.suffix_append _ _)

theorem bytesLeft_le (walk : Walk depth n bytes log ending) :
    bytesLeft ending ≤ bytes.length := by
  cases ending with
  | none => exact Nat.zero_le _
  | some rest => exact (walk.suffix rfl).length_le

/-- Every value that is walked through takes at least one byte. -/
theorem spaced (walk : Walk depth n bytes log ending) :
    Spaced (bytesLeft ending) bytes.length log := by
  induction walk with
  | done | stop => exact .nil
  | broken opens begun =>
      exact Spaced.nil.cons (Nat.le_refl 0) (List.length_pos_iff.mpr begun)
        (Nat.le_refl _)
  | within spelled container elements ih =>
      have some_byte := spelled.length_pos
      refine ih.cons (Nat.zero_le _) ?_ (Nat.le_refl _)
      rw [List.length_append]
      omega
  | value spelled plain elements more inner ih =>
      have some_byte := spelled.length_pos
      have left := more.bytesLeft_le
      have within := (elements.suffix rfl).length_le
      refine (inner.append ih left within).cons (Nat.le_trans left within) ?_
        (Nat.le_refl _)
      rw [List.length_append]
      omega
  | ext spelled type whole more ih =>
      have left := more.bytesLeft_le
      refine ih.cons left ?_ (Nat.le_refl _)
      simp only [List.length_append, List.length_cons]
      omega
  | bin spelled used more ih =>
      have left := more.bytesLeft_le
      have taken := spelled.length_lt_of_bin
      refine (used.spaced.append ih left (Nat.le_add_right _ _)).cons (by omega) ?_
        (Nat.le_refl _)
      rw [List.length_append]
      omega

end Walk

end ElementAgent.MessagePack
