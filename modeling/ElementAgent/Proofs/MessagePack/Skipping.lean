import ElementAgent.Proofs.MessagePack.Values

/-!
# Only values are skipped

What the readers take is spelled by the grammar. Main statements:

* **heads**: a token is read from one of its spellings (`exists_spells`);
* **skipping** takes one value off the front of the bytes and nothing else, and no
  more containers are open in it than may be (`skip_eq_ok_iff`);
* **reading**: so does every shape that takes what would be skipped, records among
  them (`Shape.IsTight.exists_value`).
-/

namespace ElementAgent.MessagePack

variable {α : Type} {bytes rest : List UInt8} {levels n : Nat} {t : Token}

/-! ## Bytes and numbers -/

theorem takeBytes_eq_ok {short : Fault} {taken : List UInt8}
    (read : takeBytes short n bytes = .ok (taken, rest)) :
    taken.length = n ∧ bytes = taken ++ rest := by
  unfold takeBytes at read
  dsimp only at read
  split_ifs at read with whole
  cases read
  exact ⟨whole, (List.take_append_drop n bytes).symm⟩

theorem takeNat_eq_ok {width : Nat} (read : takeNat width bytes = .ok (n, rest)) :
    n < byteRange width ∧ bytes = bigEndian width n ++ rest := by
  obtain ⟨taken, first, rfl⟩ := map_eq_ok_iff.mp read
  obtain ⟨rfl, rfl⟩ := takeBytes_eq_ok first
  exact ⟨ofBigEndian_lt taken, by rw [bigEndian_ofBigEndian]⟩

/-- Two's complement of what was read is what was read. -/
theorem twosComplement_ofTwosComplement {width : Nat}
    (small : n < byteRange width) :
    -byteRange width ≤ 2 * ofTwosComplement width n ∧
      2 * ofTwosComplement width n < byteRange width ∧
      twosComplement width (ofTwosComplement width n) = n := by
  unfold ofTwosComplement twosComplement
  split_ifs with positive
  · refine ⟨by omega, by omega, ?_⟩
    rw [Int.emod_eq_of_lt (by omega) (by omega), Int.toNat_natCast]
  · refine ⟨by omega, by omega, ?_⟩
    rw [Int.sub_emod_right, Int.emod_eq_of_lt (by omega) (by omega),
      Int.toNat_natCast]

theorem takeInt_eq_ok {width : Nat} {i : Int}
    (read : takeInt width bytes = .ok (i, rest)) :
    -byteRange width ≤ 2 * i ∧ 2 * i < byteRange width ∧
      bytes = bigEndian width (twosComplement width i) ++ rest := by
  obtain ⟨n, first, rfl⟩ := map_eq_ok_iff.mp read
  obtain ⟨small, rfl⟩ := takeNat_eq_ok first
  obtain ⟨low, high, same⟩ := twosComplement_ofTwosComplement small
  exact ⟨low, high, by rw [same]⟩

/-- A content and its length in front of it. -/
theorem counted_eq_ok {width : Nat} {f : List UInt8 → Token}
    (read : (do return f (← takeContent (← takeNat width)) : Reader Token) bytes =
      .ok (t, rest)) :
    ∃ content, content.length < byteRange width ∧ t = f content ∧
      bytes = bigEndian width content.length ++ content ++ rest := by
  obtain ⟨n, mid, length, more⟩ := bind_eq_ok_iff.mp read
  obtain ⟨content, after, taken, last⟩ := bind_eq_ok_iff.mp more
  cases last
  obtain ⟨small, rfl⟩ := takeNat_eq_ok length
  obtain ⟨rfl, rfl⟩ := takeBytes_eq_ok taken
  exact ⟨content, small, rfl, (List.append_assoc ..).symm⟩

/-! ## Heads -/

/-- A byte in the row of markers that starts at `first`. -/
theorem ofNat_add_sub {b : UInt8} {first : Nat} (above : first ≤ b.toNat) :
    UInt8.ofNat (first + (b.toNat - first)) = b := by
  rw [Nat.add_sub_of_le above, UInt8.ofNat_toNat]

/-- A head that starts with the byte `b`, whatever the byte is called. -/
theorem exists_spells_cons {a b : UInt8} {tail : List UInt8}
    (spelled : Spells t (a :: tail)) (byte : a = b)
    (behind : bytes = tail ++ rest) :
    ∃ head, b :: bytes = head ++ rest ∧ Spells t head :=
  ⟨a :: tail, by rw [byte, behind]; rfl, spelled⟩

/-- A token is what its marker and the bytes behind it spell. -/
theorem exists_spells_ofMarker {b : UInt8}
    (read : Token.ofMarker (Marker.ofByte b) bytes = .ok (t, rest)) :
    ∃ head, b :: bytes = head ++ rest ∧ Spells t head := by
  have bound := b.toNat_lt
  revert read
  -- one case for each row of markers, in the order of their bytes
  fun_cases Marker.ofByte b <;> rename_i n row <;> intro read
  case case1 =>
    cases read
    exact exists_spells_cons (.fixPos row) UInt8.ofNat_toNat rfl
  case case2 =>
    cases read
    exact exists_spells_cons (.fixMap (by omega)) (ofNat_add_sub (by omega)) rfl
  case case3 =>
    cases read
    exact exists_spells_cons (.fixArray (by omega)) (ofNat_add_sub (by omega)) rfl
  case case4 =>
    obtain ⟨content, taken, rfl⟩ := map_eq_ok_iff.mp read
    obtain ⟨length, behind⟩ := takeBytes_eq_ok taken
    exact exists_spells_cons (.fixStr (by omega))
      (length ▸ ofNat_add_sub (by omega)) behind
  case case5 =>
    cases read
    exact exists_spells_cons .nil (UInt8.toNat_inj.mp row.symm) rfl
  case case6 => cases read
  case case7 =>
    cases read
    exact exists_spells_cons .no (UInt8.toNat_inj.mp row.symm) rfl
  case case8 =>
    cases read
    exact exists_spells_cons .yes (UInt8.toNat_inj.mp row.symm) rfl
  case case9 =>
    rw [Nat.one_shiftLeft] at read
    obtain ⟨content, fits, rfl, behind⟩ := counted_eq_ok read
    exact exists_spells_cons (.bin (by omega) fits)
      (ofNat_add_sub (by omega)) behind
  case case10 =>
    rw [Nat.one_shiftLeft] at read
    obtain ⟨size, length, rfl⟩ := map_eq_ok_iff.mp read
    obtain ⟨small, behind⟩ := takeNat_eq_ok length
    exact exists_spells_cons (.ext (by omega) small)
      (ofNat_add_sub (by omega)) behind
  case case11 =>
    obtain ⟨x, mid, bits, last⟩ := bind_eq_ok_iff.mp read
    cases last
    obtain ⟨small, behind⟩ := takeNat_eq_ok bits
    refine exists_spells_cons (.float32 _) (UInt8.toNat_inj.mp row.symm) ?_
    rwa [UInt32.toNat_ofNat_of_lt' small]
  case case12 =>
    obtain ⟨x, mid, bits, last⟩ := bind_eq_ok_iff.mp read
    cases last
    obtain ⟨small, behind⟩ := takeNat_eq_ok bits
    refine exists_spells_cons (.float64 _) (UInt8.toNat_inj.mp row.symm) ?_
    rwa [UInt64.toNat_ofNat_of_lt' small]
  case case13 =>
    rw [Nat.one_shiftLeft] at read
    obtain ⟨n, number, rfl⟩ := map_eq_ok_iff.mp read
    obtain ⟨small, behind⟩ := takeNat_eq_ok number
    exact exists_spells_cons (.unsigned (by omega) small)
      (ofNat_add_sub (by omega)) behind
  case case14 =>
    rw [Nat.one_shiftLeft] at read
    obtain ⟨i, number, rfl⟩ := map_eq_ok_iff.mp read
    obtain ⟨low, high, behind⟩ := takeInt_eq_ok number
    exact exists_spells_cons (.signed (by omega) low high)
      (ofNat_add_sub (by omega)) behind
  case case15 =>
    rw [Nat.one_shiftLeft] at read
    cases read
    exact exists_spells_cons (.fixExt (by omega)) (ofNat_add_sub (by omega)) rfl
  case case16 =>
    rw [Nat.one_shiftLeft] at read
    obtain ⟨content, fits, rfl, behind⟩ := counted_eq_ok read
    exact exists_spells_cons (.str (by omega) fits)
      (ofNat_add_sub (by omega)) behind
  case case17 =>
    rw [Nat.one_shiftLeft] at read
    obtain ⟨count, length, rfl⟩ := map_eq_ok_iff.mp read
    obtain ⟨small, behind⟩ := takeNat_eq_ok length
    exact exists_spells_cons (.array (by omega) small)
      (ofNat_add_sub (by omega)) behind
  case case18 =>
    rw [Nat.one_shiftLeft] at read
    obtain ⟨count, length, rfl⟩ := map_eq_ok_iff.mp read
    obtain ⟨small, behind⟩ := takeNat_eq_ok length
    exact exists_spells_cons (.map (by omega) small)
      (ofNat_add_sub (by omega)) behind
  case case19 =>
    cases read
    refine exists_spells_cons (.fixNeg (by omega) (by omega)) ?_ rfl
    have value : twosComplement 1 ((b.toNat : Int) - 256) = b.toNat := by
      show (((b.toNat : Int) - 256) % 256).toNat = b.toNat
      omega
    rw [byteRange, Nat.div_one, value, UInt8.ofNat_toNat]

/-- A token is read from one of its spellings. -/
theorem exists_spells (read : Token.read bytes = .ok (t, rest)) :
    ∃ head, bytes = head ++ rest ∧ Spells t head := by
  obtain ⟨m, mid, marker, token⟩ := bind_eq_ok_iff.mp read
  cases bytes with
  | nil => cases marker
  | cons b bytes =>
      cases marker
      exact exists_spells_ofMarker token

/-! ## Skipping -/

theorem exists_items {one : Reader Unit} {kind : List UInt8 → Prop}
    (each : ∀ bytes rest, one bytes = .ok ((), rest) →
      ∃ i, bytes = i ++ rest ∧ kind i)
    (read : repeatRead one n bytes = .ok ((), rest)) :
    ∃ items : List (List UInt8), items.length = n ∧ (∀ i ∈ items, kind i) ∧
      bytes = items.flatten ++ rest := by
  induction n generalizing bytes with
  | zero =>
      cases read
      exact ⟨[], rfl, by rintro _ ⟨⟩, rfl⟩
  | succ n ih =>
      obtain ⟨⟨⟩, mid, first, others⟩ := bind_eq_ok_iff.mp read
      obtain ⟨i, rfl, of_kind⟩ := each _ _ first
      obtain ⟨items, count, all, rfl⟩ := ih others
      refine ⟨i :: items, congrArg Nat.succ count,
        List.forall_mem_cons.mpr ⟨of_kind, all⟩, ?_⟩
      rw [List.flatten_cons, List.append_assoc]

/-- Twice as many values are as many pairs. -/
theorem exists_pairs {one : Reader Unit} {kind : List UInt8 → Prop}
    (each : ∀ bytes rest, one bytes = .ok ((), rest) →
      ∃ i, bytes = i ++ rest ∧ kind i)
    (read : repeatRead one (2 * n) bytes = .ok ((), rest)) :
    ∃ pairs : List (List UInt8 × List UInt8), pairs.length = n ∧
      (∀ p ∈ pairs, kind p.1 ∧ kind p.2) ∧
      bytes = pairs.flatMap pairBytes ++ rest := by
  induction n generalizing bytes with
  | zero =>
      cases read
      exact ⟨[], rfl, by rintro _ ⟨⟩, rfl⟩
  | succ n ih =>
      obtain ⟨⟨⟩, mid, first, more⟩ := bind_eq_ok_iff.mp read
      obtain ⟨⟨⟩, after, second, others⟩ := bind_eq_ok_iff.mp more
      obtain ⟨key, rfl, keyed⟩ := each _ _ first
      obtain ⟨value, rfl, valued⟩ := each _ _ second
      obtain ⟨pairs, count, all, rfl⟩ := ih others
      refine ⟨(key, value) :: pairs, congrArg Nat.succ count,
        List.forall_mem_cons.mpr ⟨⟨keyed, valued⟩, all⟩, ?_⟩
      rw [List.flatMap_cons, pairBytes, List.append_assoc, List.append_assoc]

/-- What is skipped is a value. -/
theorem exists_value_of_skip (read : skip Reader levels bytes = .ok ((), rest)) :
    ∃ value, bytes = value ++ rest ∧ IsValue levels value := by
  induction levels generalizing bytes rest with
  | zero =>
      obtain ⟨t, mid, first, last⟩ := bind_eq_ok_iff.mp read
      obtain ⟨head, rfl, spelled⟩ := exists_spells first
      cases plain : t.isContainer with
      | true =>
          rw [plain] at last
          cases last
      | false =>
          rw [plain] at last
          cases last
          exact ⟨head, rfl, .scalar spelled plain⟩
  | succ levels ih =>
      obtain ⟨t, mid, first, content⟩ := bind_eq_ok_iff.mp read
      obtain ⟨head, rfl, spelled⟩ := exists_spells first
      have each : ∀ bytes rest, skip Reader levels bytes = .ok ((), rest) →
          ∃ i, bytes = i ++ rest ∧ IsValue levels i := fun _ _ => ih
      cases t with
      | array n =>
          obtain ⟨items, count, values, rfl⟩ := exists_items each content
          exact ⟨head ++ items.flatten, (List.append_assoc ..).symm,
            .array items spelled count values⟩
      | map n =>
          obtain ⟨pairs, count, both, rfl⟩ := exists_pairs each content
          exact ⟨head ++ pairs.flatMap pairBytes, (List.append_assoc ..).symm,
            .map pairs spelled count (fun p listed => (both p listed).1)
              fun p listed => (both p listed).2⟩
      | ext size =>
          obtain ⟨kind, after, typed, more⟩ := bind_eq_ok_iff.mp content
          obtain ⟨inside, behind, whole, last⟩ := bind_eq_ok_iff.mp more
          cases last
          obtain ⟨-, rfl⟩ := takeNat_eq_ok typed
          obtain ⟨length, rfl⟩ := takeBytes_eq_ok whole
          exact ⟨head ++ UInt8.ofNat (kind / byteRange 0) :: inside,
            by simp [bigEndian],
            .ext spelled _ length⟩
      | _ =>
          cases content
          exact ⟨head, rfl, .scalar spelled rfl⟩

/-- Skipping takes one value in which no more containers are open than may be, and
nothing behind it. -/
theorem skip_eq_ok_iff :
    skip Reader levels bytes = .ok ((), rest) ↔
    ∃ value, bytes = value ++ rest ∧ IsValue levels value := by
  constructor
  · exact exists_value_of_skip
  · rintro ⟨value, rfl, whole⟩
    exact whole.reads_skip (Nat.le_refl levels) rest

/-- What is read by a shape is a value. -/
theorem Shape.IsTight.exists_value {s : Shape Reader α} {a : α} (h : s.IsTight)
    (read : s.read levels bytes = .ok (a, rest)) :
    ∃ value, bytes = value ++ rest ∧ IsValue levels value :=
  exists_value_of_skip (h levels _ _ _ read)

end ElementAgent.MessagePack
