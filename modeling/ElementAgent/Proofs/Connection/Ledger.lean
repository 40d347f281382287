import ElementAgent.Proofs.Call.Settled
import ElementAgent.Proofs.Connection.Traffic

/-!
# The ledger of a connection that is kept open

What is under way on a connection, with what its calls have come
to. Main statements:

* **numbers**: the requests of a run are numbered by their ids
  (`requests_numbered`), so that a reply that is owed names its request
  (`Askable.position`);
* **ledger**: every reply that came has settled the call of its request, and no
  other (`Ledger`);
* **runs**: every run keeps the ledger (`ledger_of_run`), as long as ids are not
  used twice and replies fit into frames.
-/

namespace ElementAgent.Connection

open Agent (Setup)
open AgentEnd (Fits)

/-! ## Requests -/

def IsNumbered (rs : List Request) : Prop :=
  ∀ n r, rs[n]? = some r → r.id = UInt64.ofNat n

theorem requests_numbered (ms : List Move) : IsNumbered (requests ms) := by
  induction ms using List.reverseRecOn with
  | nil =>
      intro n r never
      cases never
  | append_singleton ms m ih =>
      intro n r made
      rw [requests_concat] at made
      by_cases earlier : n < (requests ms).length
      · rw [List.getElem?_append_left earlier] at made
        exact ih n r made
      · rw [List.getElem?_append_right (Nat.le_of_not_lt earlier)] at made
        cases m with
        | lookup pid | health =>
            obtain ⟨last, same⟩ := List.getElem?_eq_some_iff.mp made
            simp only [Move.requests, List.length_singleton] at last
            have position : n - (requests ms).length = 0 := by omega
            simp only [Move.requests, position, List.getElem_cons_zero] at same
            have number : n = (requests ms).length := by omega
            rw [← same, number]
            rfl
        | controller m | agent m | drop | elapse ms => cases made

/-- What can be asked over one connection: no id is used twice, and the replies
fit into frames. -/
structure Askable (s : Setup) (made : List Request) : Prop where
  numbered : IsNumbered made
  few : made.length ≤ maxCalls
  fits : ∀ r ∈ s.replies 0 made, Fits r

namespace Askable

variable {s : Setup} {made : List Request}

theorem of_append {more : List Request} (h : Askable s (made ++ more)) :
    Askable s made := by
  refine ⟨?_, ?_, ?_⟩
  · intro n r listed
    have earlier : n < made.length := (List.getElem?_eq_some_iff.mp listed).1
    refine h.numbered n r ?_
    rw [List.getElem?_append_left earlier, listed]
  · have few := h.few
    rw [List.length_append] at few
    omega
  · exact fits_of_append h.fits

/-- Replies that are owed have ids of their own. -/
theorem ids_nodup (h : Askable s made) :
    ((s.replies 0 made).map Reply.id).Nodup := by
  rw [s.replies_ids, List.nodup_iff_injective_getElem]
  intro i j same
  have few := h.few
  have left := h.numbered i made[i] (List.getElem?_eq_getElem (by simpa using i.2))
  have right := h.numbered j made[j] (List.getElem?_eq_getElem (by simpa using j.2))
  simp only [List.getElem_map] at same
  have inside : i.1 < made.length := by simpa using i.2
  have inside' : j.1 < made.length := by simpa using j.2
  exact Fin.ext (id_inj (by omega) (by omega) (left.symm.trans (same.trans right)))

/-- A reply that is owed has the number of its request as id. -/
theorem position (h : Askable s made) {r : Reply} (owed : r ∈ s.replies 0 made) :
    ∃ q, made[r.id.toNat]? = some q ∧
      r = s.reply (lookupsOf (made.take r.id.toNat)) q := by
  obtain ⟨i, listed⟩ := List.mem_iff_getElem?.mp owed
  rw [s.getElem?_replies] at listed
  obtain ⟨q, asked, same⟩ := Option.map_eq_some_iff.mp listed
  have inside : i < made.length := (List.getElem?_eq_some_iff.mp asked).1
  have number : r.id.toNat = i := by
    have few := h.few
    rw [← same, s.reply_id, h.numbered i q asked]
    exact toNat_id (by omega)
  rw [number]
  refine ⟨q, asked, ?_⟩
  rw [← same, Nat.zero_add]

end Askable

/-! ## The ledger -/

/-- The traffic on a connection that is kept open, whose table has settled the
calls for which replies came. -/
structure Ledger (s : Setup) (c : Connection) (made asked : List Request)
    (out got : List Reply) :
    Prop extends Traffic s c made asked out got where
  table : c.near.side.calls.Settled made got

variable {s : Setup} {c : Connection} {made asked : List Request}
  {out got : List Reply}

/-- No reply is taken twice. -/
theorem Traffic.out_nodup (h : Traffic s c made asked out got)
    (ask : Askable s made) :
    (out.map Reply.id).Nodup := by
  obtain ⟨some, same, earlier⟩ := h.out_subperm
  have ids := ask.ids_nodup.sublist (earlier.map Reply.id)
  exact ((same.map Reply.id).nodup_iff).mp ids

/-- A reply settles the call of its request. -/
theorem Traffic.settles {t : CallTable} {r : Reply}
    (h : Traffic s c made asked out (got ++ [r]))
    (ask : Askable s made) (table : t.Settled made got) :
    (t.receive r).Settled made (got ++ [r]) := by
  obtain ⟨unheard, next, -⟩ := h.down
  obtain ⟨q, asked, reply⟩ := ask.position (h.owed (r := r) (by simp [next]))
  refine table.receive ask.few asked ?_ ?_ ?_
  · intro g came same
    have nodup := h.out_nodup ask
    rw [next, List.append_assoc, List.map_append] at nodup
    refine (List.nodup_append.mp nodup).2.2 g.id
      (List.mem_map_of_mem came) r.id ?_ same
    simp
  · rw [reply, s.reply_exchange]
  · rw [reply, s.reply_isRejected]

/-- A move leaves a table with which every reply has settled its call. -/
theorem Traffic.settled {t t' : CallTable} {more : List Request} {came : List Reply}
    (h : Traffic s c (made ++ more) asked out (got ++ came))
    (ask : Askable s (made ++ more)) (table : t.Settled made got)
    (moved : Tabled t t' more came) :
    t'.Settled (made ++ more) (got ++ came) := by
  cases moved with
  | kept => simpa using table
  | call r _ =>
      have few := ask.few
      rw [List.length_append, List.length_singleton] at few
      rw [List.append_nil]
      exact table.issue (by omega) r
  | reply r =>
      rw [List.append_nil] at h ask ⊢
      exact h.settles ask table

variable {ms : List Move} {up down : Nat}

/-- Every run on a connection that is kept open keeps the ledger. -/
theorem ledger_of_run [s.IsDecided]
    (run : ms.foldlM (step? s) (fresh s up down) = some c) (kept : .drop ∉ ms)
    (ask : Askable s (requests ms)) :
    ∃ asked out got, Ledger s c (requests ms) asked out got := by
  obtain ⟨asked, out, got, traffic, table⟩ :=
    traffic_of_run (P := fun t made got => Askable s made → t.Settled made got)
      (fun _ => .start)
      (fun _ traffic moved table ask =>
        traffic.settled ask (table ask.of_append) moved) run kept ask.fits
  exact ⟨asked, out, got, { traffic with table := table ask }⟩

/-- Induction over the runs on a connection that is kept open. A step may use the
ledger in front of it. -/
theorem induct [s.IsDecided] {P : List Move → Connection → Prop}
    (init : P [] (fresh s up down))
    (keep : ∀ ms c m c' asked out got, Ledger s c (requests ms) asked out got →
      Askable s (requests ms ++ m.requests (requests ms).length) → m ≠ .drop →
      c.step? s m = some c' →
      P ms c → P (ms ++ [m]) c') :
    ∀ {ms c}, ms.foldlM (step? s) (fresh s up down) = some c → .drop ∉ ms →
      Askable s (requests ms) →
      P ms c := by
  intro ms c run
  refine Run.induct (P := fun ms c => .drop ∉ ms → Askable s (requests ms) → P ms c)
    (fun _ _ => init) ?_ run
  intro ms c m c' run ih step kept ask
  rw [requests_concat] at ask
  have keeps : .drop ∉ ms := fun listed => kept (List.mem_append_left _ listed)
  have last : m ≠ .drop := by
    rintro rfl
    exact kept (by simp)
  obtain ⟨asked, out, got, ledger⟩ := ledger_of_run run keeps ask.of_append
  exact keep ms c m c' asked out got ledger ask last step (ih keeps ask.of_append)

end ElementAgent.Connection
