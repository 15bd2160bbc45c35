import Msgq.Receiving

/-! Readers followed by the log. As long as no send wraps over a tracked reader,
the messages it has ahead are its unread messages of the log. -/
namespace Msgq
open ByteMemory FramedRecords Traces

/-- The tracked handles have exactly their unread messages ahead. -/
structure Followed (L : Laps) (P : Nat → Prop) (U : UidSource) (size : Nat) (s : State)
    (lap : List Bytes) (front : Nat) (b : Spec) : Prop where
  tracked : Tracked L P U size s lap front (Broadcast.unread b)
  nonempty : ∀ m ∈ b.sent, m ≠ []
  valid : ∀ h, P h → Broadcast.Valid b h

section calls
variable {L : Laps} {P : Nat → Prop} {U : UidSource} {size : Nat} {s t : State} {lap : List Bytes}
  {front : Nat} {b : Spec} {h id : Nat} {alloc : Bool}

/-- A pass moves the cursor as the log has it. -/
theorem Follows.unread {g : Nat → List Bytes} {p : Pass} (f : Follows h (Broadcast.unread b) g p) :
    g = Broadcast.unread (Spec.pass h b p) := by
  cases p with
  | evicted | invalid | lapped | torn => exact f.trans (Broadcast.unread_seek b h).symm
  | skipped =>
      obtain ⟨m, rest, ahead, -, rfl⟩ := f
      rw [Spec.pass, Broadcast.unread_skip, ahead, List.tail_cons]
  | message =>
      obtain ⟨rest, ahead, rfl⟩ := f
      rw [Spec.pass, Broadcast.unread_advance, ahead, List.tail_cons]
  | unregistered | empty | wrapped | noMemory => exact f
  | garbage => exact f.elim

theorem Follows.valid {g : Nat → List Bytes} {p : Pass} {h' : Nat}
    (f : Follows h (Broadcast.unread b) g p) (v : Broadcast.Valid b h') :
    Broadcast.Valid (Spec.pass h b p) h' := by
  cases p with
  | evicted | invalid | lapped | torn => exact Broadcast.seek_valid v h
  | skipped =>
      obtain ⟨m, rest, ahead, -, -⟩ := f
      exact Broadcast.skip_valid v (by simp [ahead])
  | message =>
      obtain ⟨rest, ahead, -⟩ := f
      exact Broadcast.advance_valid v (by simp [ahead])
  | unregistered | empty | wrapped | noMemory => exact v
  | garbage => exact f.elim

theorem Spec.pass_sent (h : Nat) (b : Spec) (p : Pass) : (Spec.pass h b p).sent = b.sent := by
  cases p <;> rfl

theorem Spec.readyPass_sent (h : Nat) (b : Spec) (p : ReadyPass) :
    (Spec.readyPass h b p).sent = b.sent := by
  cases p <;> rfl

theorem Followed.unread_nonempty (F : Followed L P U size s lap front b) :
    ∀ m ∈ Broadcast.unread b h, m ≠ [] :=
  fun m hm => F.nonempty m (Broadcast.mem_sent_of_unread hm)

theorem Followed.recvPass (alloc : Bool) (hsize : size < 0xFFFFFFFF) (F : Followed L P U size s lap front b) (h : Nat) :
    Followed L P U size (recvPass U size alloc h s).2 lap front
      (Spec.pass h b (recvPass U size alloc h s).1) := by
  by_cases hP : P h
  · obtain ⟨-, g, follows, tracked⟩ := recvPass_tracked alloc hsize (Nat.le_succ _) F.tracked hP F.unread_nonempty
    refine ⟨follows.unread ▸ tracked, ?_, fun h' hP' => follows.valid (F.valid h' hP')⟩
    rw [Spec.pass_sent]
    exact F.nonempty
  · have other : ∀ h', P h' → h' ≠ h := by
      rintro h' hP' rfl
      exact hP hP'
    refine ⟨?_, ?_, ?_⟩
    · apply ((recvPass_onePass s).untracked F.tracked hP).congr
      intro h' hP'
      exact (Spec.pass_same (other h' hP') b _).unread
    · rw [Spec.pass_sent]
      exact F.nonempty
    · intro h' hP'
      exact (Spec.pass_same (other h' hP') b _).valid (F.valid h' hP')

theorem Followed.recv {fuel : Nat} {passes : List Pass} (hsize : size < 0xFFFFFFFF)
    (F : Followed L P U size s lap front b) (run : msgRecv U size alloc h fuel s = some (passes, t)) :
    Quiet s t ∧ Followed L P U size t lap front (passes.foldl (Spec.pass h) b) := by
  refine loop_invariant
    (I := fun ks u => Quiet s u ∧ Followed L P U size u lap front (ks.foldl (Spec.pass h) b))
    ?_ ⟨.rfl, F⟩ run
  rintro ks u ⟨quiet, F'⟩
  refine ⟨quiet.trans (recvPass_onePass u).quiet, ?_⟩
  rw [List.foldl_append]
  exact F'.recvPass alloc hsize h

theorem Followed.readyPass (F : Followed L P U size s lap front b) (h : Nat) :
    Followed L P U size (readyPass U h s).2 lap front (Spec.readyPass h b (readyPass U h s).1) := by
  obtain ⟨g, tracked, same⟩ := readyPass_tracked (h := h) F.tracked
  refine ⟨?_, ?_, ?_⟩
  · have : g = Broadcast.unread (Spec.readyPass h b (Msgq.readyPass U h s).1) := by
      rw [same]
      cases (Msgq.readyPass U h s).1 with
      | evicted | invalid => exact (Broadcast.unread_seek b h).symm
      | unregistered | answer => rfl
    exact this ▸ tracked
  · rw [Spec.readyPass_sent]
    exact F.nonempty
  · intro h' hP
    cases (Msgq.readyPass U h s).1 with
    | evicted | invalid => exact Broadcast.seek_valid (F.valid h' hP) h
    | unregistered | answer => exact F.valid h' hP

theorem Followed.ready {fuel : Nat} {passes : List ReadyPass} (F : Followed L P U size s lap front b)
    (run : msgReady U h fuel s = some (passes, t)) :
    Quiet s t ∧ Followed L P U size t lap front (passes.foldl (Spec.readyPass h) b) := by
  refine loop_invariant
    (I := fun ks u => Quiet s u ∧ Followed L P U size u lap front (ks.foldl (Spec.readyPass h) b))
    ?_ ⟨.rfl, F⟩ run
  rintro ks u ⟨quiet, F'⟩
  refine ⟨quiet.trans (readyPass_onePass u).quiet, ?_⟩
  rw [List.foldl_append]
  exact F'.readyPass h

/-- Every call but an accepted send, whoever makes it. -/
theorem Followed.call {G : Segment} {e : Event} (F : Followed L P U G.size s lap front b)
    (step : Step U G s e t) (silent : e.sent? = none) :
    t.q.writePointer = s.q.writePointer ∧ Followed L P U G.size t lap front (Spec.event b e) := by
  cases step with
  | initPublisher h => exact ⟨rfl, F.tracked.initPublisher h front _, F.nonempty, F.valid⟩
  | initSubscriber h =>
      refine ⟨(initSubscriber_same s h).1, ?_, F.nonempty, fun h' hP => Broadcast.seek_valid (F.valid h' hP) h⟩
      rw [Spec.event, Broadcast.unread_seek]
      exact F.tracked.initSubscriber h
  | refused _ => exact ⟨rfl, F⟩
  | aborted _ => exact ⟨rfl, F⟩
  | sent _ => cases silent
  | recv run =>
      obtain ⟨quiet, F'⟩ := F.recv G.small run
      exact ⟨quiet.writePointer, F'⟩
  | ready run =>
      obtain ⟨quiet, F'⟩ := F.ready run
      exact ⟨quiet.writePointer, F'⟩

theorem Followed.mono (F : Followed L P U size s lap front b) {front' : Nat} (le : front' ≤ front) :
    Followed L P U size s lap front' b := by
  refine ⟨⟨F.tracked.registry, F.tracked.ok.claim front', ?_⟩, F.nonempty, F.valid⟩
  intro h id hP own valid
  rcases F.tracked.at_slot h id hP own valid with here | ⟨cycles, beyond, rest⟩
  · exact Or.inl here
  · exact Or.inr ⟨cycles, le.trans beyond, rest⟩

/-- A send that wraps over no tracked reader. -/
theorem Followed.send {m : Msg} (hsize : size < 0xFFFFFFFF)
    (F : Followed L P U size s lap s.q.writeOffset b) (fits : Fits size m.data)
    (hturn : mustWrap size s.q m.data.length = true → L.turn s.q.writeCycles ∧ L.closed s.q.writeOffset)
    (clear : ∀ h id, P h → Owns s h id → s.q.readValids id = true →
      ¬ WrapsOver L (s.q.view size lap s.q.writeOffset) (mustWrap size s.q m.data.length) (s.q.readPointers id)
        (Broadcast.unread b h)) :
    Followed L P U size (s.setQueue (sendQueue size s.q m.data))
      (sentLap (mustWrap size s.q m.data.length) lap m.data) (sendQueue size s.q m.data).writeOffset
      (Broadcast.push b m.data) := by
  refine ⟨F.tracked.send hsize (le_refl size) fits ?_, ?_, fun h hP => Broadcast.push_valid (F.valid h hP) m.data⟩
  · intro h id hP own kept
    rw [Broadcast.unread_push (F.valid h hP)]
    have valid := ((sendQueue_readValids hsize F.tracked.ok fits (F.tracked.registry.below h id own)).mp kept).1
    rcases F.tracked.send_position hsize fits hturn hP own kept with position | wraps
    · exact position
    · exact absurd wraps (clear h id hP own valid)
  · intro x hx
    rcases List.mem_append.mp hx with hx | hx
    · exact F.nonempty x hx
    · rw [List.mem_singleton.mp hx]
      exact m.nonempty

end calls

/-! Whether a handle conflates never changes. -/

section conflating
variable {U : UidSource} {G : Segment} {conflate : Nat → Bool} {past : List Event} {s t : State}

theorem step_conflate {e : Event} (step : Step U G s e t) (h : Nat) :
    (t.handle h).readConflate = (s.handle h).readConflate := by
  cases step with
  | initPublisher h' =>
      by_cases same : h = h'
      · subst same
        simp [initPublisher]
      · rw [initPublisher_handle_ne s same]
  | initSubscriber h' => exact initSubscriber_conflate s h' h
  | sent | refused | aborted => rfl
  | recv run => exact (quiet_recv run).readConflate h
  | ready run => exact (quiet_ready run).readConflate h

theorem run_conflate (run : Run (Step U G) (State.fresh conflate) past s) (h : Nat) :
    (s.handle h).readConflate = conflate h :=
  run.invariant (I := fun _ s => (s.handle h).readConflate = conflate h) rfl
    fun _ _ _ _ _ same step => (step_conflate step h).trans same

end conflating

end Msgq
