import Msgq.Writing
import Msgq.Receiving

/-! Whole calls of subscribers while a send stands between two accesses. -/
namespace Msgq
open ByteMemory FramedRecords Traces

/-- Wherever the writer stands, the owner of a flagged slot has a position to
read on from. -/
structure Attended (U : UidSource) (size : Nat) (s : State) (lap sent : List Bytes) (writer : Pc) : Prop where
  roster : Roster U s
  ok : (Moment.mk s.q lap sent writer).Ok size
  spot : ∀ h id, Owns s h id → s.q.readValids id = true →
    (Moment.mk s.q lap sent writer).Stands .spot size id (s.q.readPointers id)

/-- No assertion fails, and what is received was sent. -/
def Pass.Honest (sent : List Bytes) : Pass → Prop
  | .message _ b => b ∈ sent
  | .garbage _ | .unregistered => False
  | .evicted | .invalid | .empty | .lapped _ | .wrapped _ | .skipped _ _ | .noMemory _ | .torn _ _ => True

section calls
variable {U : UidSource} {size : Nat} {s t : State} {lap sent : List Bytes} {writer : Pc} {h id : Nat}

/-- A call that changes no slot but the caller's own. -/
theorem Attended.own_slot (A : Attended U size s lap sent writer) (own : Owns s h id) (same : SameRegistry s t)
    (hd : t.q.data = s.q.data) (hw : t.q.writePointer = s.q.writePointer)
    (valids : ∀ i, i ≠ id → t.q.readValids i = s.q.readValids i)
    (pointers : ∀ i, i ≠ id → t.q.readPointers i = s.q.readPointers i)
    (position : t.q.readValids id = true →
      (Moment.mk s.q lap sent writer).Stands .spot size id (t.q.readPointers id)) :
    Attended U size t lap sent writer := by
  refine ⟨?_, A.ok.congr hd hw (A.ok.writes.congr hd hw), ?_⟩
  · exact A.roster.keep (fun _ => by rw [same.handle]) (fun _ => by rw [same.handle]) same.drawn.ge
  · intro h' id' own' valid
    have before : Owns s h' id' := same.owns.mp own'
    refine Moment.Stands.congr (M := ⟨s.q, lap, sent, writer⟩) ?_ hd hw rfl rfl fun _ => rfl
    by_cases mine : id' = id
    · subst mine
      exact position valid
    · rw [valids id' mine] at valid
      rw [pointers id' mine]
      exact A.spot h' id' before valid

theorem Attended.resetReader (A : Attended U size s lap sent writer) (own : Owns s h id) :
    Attended U size (s.setQueue (Msgq.resetReader s.q id)) lap sent writer := by
  refine A.own_slot own (sameRegistry_resetReader s id) rfl rfl ?_ ?_ ?_
  · exact fun i other => Function.update_of_ne other _ _
  · exact fun i other => Function.update_of_ne other _ _
  · intro _
    have stored : (s.setQueue (Msgq.resetReader s.q id)).q.readPointers id = s.q.writePointer :=
      Function.update_self ..
    rw [stored]
    exact A.ok.loaded id

theorem Attended.setReadPointer (A : Attended U size s lap sent writer) (own : Owns s h id) {v : Nat}
    (position : (Moment.mk s.q lap sent writer).Stands .spot size id v) :
    Attended U size (s.setQueue (Msgq.setReadPointer s.q id v)) lap sent writer := by
  refine A.own_slot own (sameRegistry_setReadPointer s id v) rfl rfl (fun _ _ => rfl) ?_ ?_
  · exact fun i other => Function.update_of_ne other _ _
  · intro _
    have stored : (s.setQueue (Msgq.setReadPointer s.q id v)).q.readPointers id = v := Function.update_self ..
    rw [stored]
    exact position

theorem Attended.initSubscriber (A : Attended U size s lap sent writer) (h : Nat) :
    Attended U size (Msgq.initSubscriber U s h) lap sent writer := by
  obtain ⟨hw, -, hd⟩ := initSubscriber_same (U := U) s h
  refine ⟨initSubscriber_roster A.roster h, A.ok.congr hd hw (A.ok.writes.congr hd hw), ?_⟩
  intro h' id own valid
  refine Moment.Stands.congr (M := ⟨s.q, lap, sent, writer⟩) ?_ hd hw rfl rfl fun _ => rfl
  by_cases same : h' = h
  · subst same
    obtain rfl := own.slot_unique (initSubscriber_owns s h')
    rw [(initSubscriber_slot s h').2.2]
    exact A.ok.loaded _
  · obtain ⟨before, -, -, valids, pointers⟩ := initSubscriber_owner_ne A.roster same own
    rw [pointers]
    exact A.spot h' id before (valids ▸ valid)

/-- One pass of a receive by a registered handle. -/
theorem recvPass_attended (A : Attended U size s lap sent writer) (hsize : size < 0xFFFFFFFF) (alloc : Bool)
    (registered : (s.handle h).readerId ≠ none) :
    (recvPass U size alloc h s).1.Honest sent ∧ Attended U size (recvPass U size alloc h s).2 lap sent writer ∧
      ((recvPass U size alloc h s).2.handle h).readerId ≠ none := by
  cases hid : (s.handle h).readerId with
  | none => exact absurd hid registered
  | some id =>
      by_cases huid : (s.handle h).readUidLocal = s.q.readUids id
      swap
      · rw [recvPass_evicted hid huid]
        refine ⟨trivial, A.initSubscriber h, ?_⟩
        rw [initSubscriber_readerId]
        exact Option.some_ne_none _
      have own : Owns s h id := ⟨hid, huid⟩
      cases hv : s.q.readValids id with
      | false =>
          rw [recvPass_invalid own hv]
          exact ⟨trivial, A.resetReader own, registered⟩
      | true =>
          by_cases hr : s.q.readOffset id = s.q.writeOffset
          · rw [recvPass_empty own hv hr]
            exact ⟨trivial, A, registered⟩
          have either : (writer.guard size s.q.writeOffset id).2 = 0 ∨ size ≤ (writer.guard size s.q.writeOffset id).1 :=
            guard_either writer
          rcases Stands.read (A.spot h id own hv) (A.ok.view _) A.ok.lap either hr with
            ⟨m, mem, ⟨record, room⟩, aligned, next⟩ | ⟨mark, next⟩
          · have room : s.q.readOffset id + span m.length + 8 < size := room
            have words : unpack64 (pack64 (s.q.readCycles id) (s.q.readOffset id + span m.length)) =
                (s.q.readCycles id, s.q.readOffset id + span m.length) :=
              Prod.ext (unpack64_pack64_fst (readCycles_lt s.q id)) (unpack64_pack64_snd (by omega))
            have past : Attended U size (pastRecord s id m) lap sent writer := by
              apply A.setReadPointer own
              rw [Moment.Stands, Placed, words]
              exact next
            rw [recvPass_record U alloc own hv hr record (A.ok.nonempty m mem) aligned room.le hsize]
            split_ifs
            · exact ⟨trivial, past, registered⟩
            · exact ⟨trivial, A, registered⟩
            · exact ⟨mem, past, registered⟩
          · rw [recvPass_wrapped own hv hr mark]
            refine ⟨trivial, A.setReadPointer own ?_, registered⟩
            rw [Moment.Stands, Placed, turn_pointer]
            exact next

theorem recv_attended {alloc : Bool} {fuel : Nat} {passes : List Pass} (A : Attended U size s lap sent writer)
    (hsize : size < 0xFFFFFFFF) (registered : (s.handle h).readerId ≠ none)
    (run : msgRecv U size alloc h fuel s = some (passes, t)) :
    (∀ k ∈ passes, k.Honest sent) ∧ Attended U size t lap sent writer := by
  have all := loop_invariant (I := fun ks u => (∀ k ∈ ks, k.Honest sent) ∧ Attended U size u lap sent writer ∧
    (u.handle h).readerId ≠ none) ?_ ⟨by simp, A, registered⟩ run
  · exact ⟨all.1, all.2.1⟩
  · rintro ks u ⟨honest, A', registered'⟩
    obtain ⟨one, kept, still⟩ := recvPass_attended A' hsize alloc registered'
    refine ⟨?_, kept, still⟩
    intro k mem
    rcases List.mem_append.mp mem with old | new
    · exact honest k old
    · exact List.mem_singleton.mp new ▸ one

theorem ready_attended {fuel : Nat} {passes : List ReadyPass} (A : Attended U size s lap sent writer)
    (run : msgReady U h fuel s = some (passes, t)) : Attended U size t lap sent writer := by
  refine loop_invariant (I := fun _ u => Attended U size u lap sent writer) ?_ A run
  intro ks u A'
  unfold readyPass
  cases hid : (u.handle h).readerId with
  | none => exact A'
  | some id =>
      dsimp only
      split_ifs with huid hv
      · exact A'.initSubscriber h
      · exact A'.resetReader ⟨hid, not_not.mp huid⟩
      · exact A'

end calls

end Msgq
