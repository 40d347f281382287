import ElementAgent.Proofs.MessagePack.Skipping
import ElementAgent.Proofs.Wire.Spellings

/-!
# Messages are values

A body that is read as a message starts with one MessagePack value, in which no
more than 1024 containers are open at once (`exists_value_of_decode`): what
follows it is not looked at, and nothing that the grammar does not know is
taken for a message.
-/

namespace ElementAgent.Wire

open MessagePack

variable {α : Type} {lookup health : Shape Reader α} {body : List UInt8}

theorem isPlain_variantOf : IsPlain variantOf where
  scalar {t x} value := by
    cases t with
    | array count | map count | ext size => cases value
    | _ => rfl
  shallow t := by
    cases t with
    | str name =>
        unfold variantOf
        dsimp only
        cases Text.Utf8.decode name <;> cases exchangeOfName? name <;>
          exact fun deep => nomatch deep
    | bin name =>
        unfold variantOf
        dsimp only
        cases exchangeOfName? name <;> exact fun deep => nomatch deep
    | unsigned n =>
        unfold variantOf
        dsimp only
        cases exchangeOfIndex? n <;> exact fun deep => nomatch deep
    | _ => nofun

/-- The name of a variant is a value. -/
theorem takesValue_readVariant (levels : Nat) : TakesValue levels readVariant :=
  takesValue_leaf isPlain_variantOf levels

/-- A message takes one value: the map, its key and what the key names. -/
theorem takesValue_readMessage (lookups : lookup.IsTight)
    (checks : health.IsTight) :
    TakesValue (maxLevels + 1) (readMessage lookup health) := by
  intro bytes a rest read
  obtain ⟨mid, head, entry⟩ := exists_map_of_readMessage read
  obtain ⟨x, behind, variant, value⟩ := bind_eq_ok_iff.mp entry
  have first := takesValue_readVariant maxLevels _ _ _ variant
  have second : skip Reader maxLevels behind = .ok ((), rest) := by
    cases x with
    | lookup => exact lookups _ _ _ _ value
    | health => exact checks _ _ _ _ value
  exact bind_eq_ok_iff.mpr
    ⟨_, mid, head, repeatRead_succ first (repeatRead_succ second rfl)⟩

theorem exists_value_of_fst {p : Reader α} {a : α} {levels : Nat}
    (takes : TakesValue levels p) (decoded : Prod.fst <$> p body = .ok a) :
    ∃ value rest, body = value ++ rest ∧ IsValue levels value ∧
      p body = .ok (a, rest) := by
  cases read : p body with
  | error e =>
      rw [read] at decoded
      cases decoded
  | ok out =>
      rw [read] at decoded
      cases decoded
      obtain ⟨value, whole, is⟩ := exists_value_of_skip (takes _ _ _ read)
      exact ⟨value, out.2, whole, is, rfl⟩

/-- What is read as a message is one value, whatever follows it. -/
theorem exists_value_of_decode :
    (∀ r, decodeRequest body = .ok r →
      ∃ value rest, body = value ++ rest ∧ IsValue (maxLevels + 1) value ∧
        readRequest Reader body = .ok (r, rest)) ∧
    ∀ r, decodeReply body = .ok r →
      ∃ value rest, body = value ++ rest ∧ IsValue (maxLevels + 1) value ∧
        readReply Reader body = .ok (r, rest) :=
  ⟨fun _ => exists_value_of_fst
      (takesValue_readMessage (Record.isTight isSound_lookup.tight)
        (Record.isTight isSound_health.tight)),
    fun _ => exists_value_of_fst
      (takesValue_readMessage (Record.isTight isSound_lookupReply.tight)
        (Record.isTight isSound_report.tight))⟩

end ElementAgent.Wire
