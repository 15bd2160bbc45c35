import Msgq.Lapped

/-! When an empty answer is true. Receive and ready compare offsets only, so a
subscriber of an older lap that stands at the write offset is told that there is
nothing to read. -/
namespace Msgq
open ByteMemory FramedRecords Traces

section passes
variable {L : Laps} {P : Nat → Prop} {U : UidSource} {size : Nat} {s t : State} {lap : List Bytes}
  {front : Nat} {b : Spec} {h id : Nat} {alloc : Bool}

/-- No pass of a receive skips the newest message. -/
theorem Followed.pass_fresh (hsize : size < 0xFFFFFFFF) (F : Followed L P U size s lap front b)
    (started : lap = [] → ∀ e, ¬ L.closed e) (hP : P h) (fresh : Broadcast.Fresh b h) (h' : Nat) :
    Broadcast.Fresh (Spec.pass h' b (Msgq.recvPass U size alloc h' s).1) h := by
  by_cases same : h' = h
  swap
  · exact (Spec.pass_same (Ne.symm same) b _).fresh fresh
  subst same
  have F' := F.recvPass alloc hsize h'
  cases pass : Msgq.recvPass U size alloc h' s with
  | mk k u =>
      rw [pass] at F'
      cases k with
      | evicted | invalid | lapped | torn => exact Broadcast.seek_fresh b h'
      | message => exact Broadcast.advance_fresh b h'
      | skipped p n =>
          obtain ⟨-, id, own, hv, hr⟩ := recvPass_skipped pass
          exact fun none => absurd none (F'.tracked.ahead_ne hP own hv hr started)
      | unregistered | empty | wrapped | garbage | noMemory => exact fresh

theorem Followed.call_fresh {G : Segment} {e : Event} (F : Followed L P U G.size s lap front b)
    (started : lap = [] → ∀ e, ¬ L.closed e) (hP : P h) (fresh : Broadcast.Fresh b h)
    (step : Step U G s e t) : Broadcast.Fresh (Spec.event b e) h := by
  cases step with
  | initPublisher => exact fresh
  | initSubscriber h' =>
      by_cases same : h = h'
      · subst same
        exact Broadcast.seek_fresh b h
      · exact (Broadcast.seek_same b same).fresh fresh
  | refused => exact fresh
  | aborted => exact fresh
  | sent => exact Broadcast.push_fresh (F.valid h hP) _
  | recv run =>
      rename_i h' alloc fuel passes
      refine (loop_invariant
        (I := fun ks u => Followed L P U G.size u lap front (ks.foldl (Spec.pass h') b) ∧
          Broadcast.Fresh (ks.foldl (Spec.pass h') b) h) ?_ ⟨F, fresh⟩ run).2
      rintro ks u ⟨F', fresh'⟩
      rw [List.foldl_append]
      exact ⟨F'.recvPass alloc G.small h', F'.pass_fresh G.small started hP fresh' h'⟩
  | ready run =>
      rename_i h' fuel passes
      refine loop_invariant
        (I := fun ks _ => Broadcast.Fresh (ks.foldl (Spec.readyPass h') b) h) ?_ fresh run
      intro ks u fresh'
      rw [List.foldl_append]
      by_cases same : h = h'
      · subst same
        cases (Msgq.readyPass U h u).1 with
        | evicted | invalid => exact Broadcast.seek_fresh _ h
        | unregistered | answer => exact fresh'
      · exact (Spec.readyPass_same same _ _).fresh fresh'

/-- A receive that starts away from the write offset does not return empty-handed. -/
theorem Tracked.recv_not_empty {g : Nat → List Bytes} {fuel : Nat} {passes : List Pass}
    (hsize : size < 0xFFFFFFFF) (T : Tracked L P U size s lap (s.q.writeOffset + 1) g) (hP : P h)
    (own : Owns s h id) (hv : s.q.readValids id = true) (nonempty : ∀ m ∈ g h, m ≠ [])
    (hr : s.q.readOffset id ≠ s.q.writeOffset) (started : lap = [] → ∀ e, ¬ L.closed e)
    (run : msgRecv U size alloc h fuel s = some (passes, t)) : passes.getLast? ≠ some .empty := by
  let I : List Pass → State → Prop := fun _ u =>
    (∃ g', Tracked L P U size u lap (u.q.writeOffset + 1) g' ∧ ∀ m ∈ g' h, m ≠ []) ∧
      Owns u h id ∧ u.q.readValids id = true ∧ u.q.readOffset id ≠ u.q.writeOffset
  have keep : ∀ ks u, I ks u → (Msgq.recvPass U size alloc h u).1.again = true →
      I (ks ++ [(Msgq.recvPass U size alloc h u).1]) (Msgq.recvPass U size alloc h u).2 := by
    rintro ks u ⟨⟨g', T', nonempty'⟩, own', hv', hr'⟩ more
    refine ⟨?_, (T'.owner_pass alloc hsize hP own' hv' nonempty' hr' started).2 more⟩
    obtain ⟨-, g'', follows, T''⟩ := recvPass_tracked alloc hsize (Nat.le_succ _) T' hP nonempty'
    have off : (Msgq.recvPass U size alloc h u).2.q.writeOffset = u.q.writeOffset := by
      rw [Queue.writeOffset, Queue.writeOffset, (recvPass_onePass u).quiet.writePointer]
    rw [off]
    exact ⟨g'', T'', follows.nonempty nonempty'⟩
  obtain ⟨ws, u, rfl, -, -, ⟨g', T', nonempty'⟩, own', hv', hr'⟩ :=
    loop_ends keep ⟨⟨g, T, nonempty⟩, own, hv, hr⟩ run
  rw [List.getLast?_concat]
  intro empty
  exact (T'.owner_pass alloc hsize hP own' hv' nonempty' hr' started).1 (Option.some.inj empty)

/-- An owner of a valid slot is answered at once. -/
theorem msgReady_owner {fuel : Nat} {passes : List ReadyPass} (own : Owns s h id)
    (hv : s.q.readValids id = true) (run : msgReady U h fuel s = some (passes, t)) :
    passes = [.answer (s.q.readOffset id != s.q.writeOffset)] := by
  have pass : readyPass U h s = (.answer (s.q.readOffset id != s.q.writeOffset), s) := by
    simp [Msgq.readyPass, own.1, own.2, hv]
  exact congrArg Prod.fst (loop_unique run (loop_done 0 pass rfl))

end passes

section runs
variable {U : UidSource} {G : Segment} {conflate : Nat → Bool} {past : List Event} {s : State} {h id : Nat}

theorem fresh_of_neverMet (run : Run (Where U G (NeverMet G h)) (State.fresh conflate) past s) :
    Broadcast.Fresh (spec past) h := by
  refine run.invariant (I := fun past _ => Broadcast.Fresh (spec past) h) (Broadcast.empty_fresh h) ?_
  intro past s e t before fresh step
  rw [spec_append]
  exact (followed_of_neverMet before).call_fresh (sentLaps_started past) rfl fresh step.1

theorem caught_up_of_offset (run : Run (Where U G (NeverMet G h)) (State.fresh conflate) past s)
    (own : Owns s h id) (valid : s.q.readValids id = true) (hr : s.q.readOffset id = s.q.writeOffset) :
    Broadcast.unheard (spec past) h = [] := by
  have F := followed_of_neverMet run
  apply fresh_of_neverMet run
  rcases F.tracked.at_slot h id rfl own valid with here | back
  · exact (here.nil_iff F.tracked.ok).mpr hr
  · have beyond : s.q.writeOffset + 1 ≤ s.q.readOffset id := back.2.1
    omega

/-- No false empty, for a subscriber that no send ends at while it stands in an
older lap: when receive or ready answers 0, nothing was sent after the last
message it received, or after it registered or was last reset. -/
theorem empty_only_when_caught_up
    (run : Run (Where U G (NeverMet G h)) (State.fresh conflate) past s) (own : Owns s h id)
    (valid : s.q.readValids id = true) :
    (∀ alloc fuel passes t, msgRecv U G.size alloc h fuel s = some (passes, t) →
      passes.getLast? = some .empty → Broadcast.unheard (spec past) h = []) ∧
    (∀ fuel passes t, msgReady U h fuel s = some (passes, t) →
      passes.getLast? = some (.answer false) → Broadcast.unheard (spec past) h = []) := by
  have F := followed_of_neverMet run
  by_cases hr : s.q.readOffset id = s.q.writeOffset
  · have caught := caught_up_of_offset run own valid hr
    exact ⟨fun _ _ _ _ _ _ => caught, fun _ _ _ _ _ => caught⟩
  constructor
  · intro alloc fuel passes t returned empty
    exact absurd empty (F.tracked.recv_not_empty G.small rfl own valid F.unread_nonempty hr
      (sentLaps_started past) returned)
  · intro fuel passes t returned no
    rw [msgReady_owner own valid returned] at no
    simp [hr] at no

/-- The condition is exact: a subscriber that a send meets is told that there is
nothing to read, with at least the new message unread. -/
theorem met_reader_sees_nothing {h' : Nat} {m : Msg} {q : Queue} {ret : Int} {signalled : List Nat}
    (run : Run (Where U G (NeverMet G h)) (State.fresh conflate) past s)
    (accepted : msgSend G.size s.q (s.handle h') m.data = .sent q ret signalled)
    (meets : Meets G.size h s m.data.length) :
    (∀ alloc, msgRecv U G.size alloc h 1 (s.setQueue q) = some ([.empty], s.setQueue q)) ∧
      Broadcast.unread (Spec.event (spec past) (.sent h' m (mustWrap G.size s.q m.data.length))) h ≠ [] := by
  have F := followed_of_neverMet run
  have ok := F.tracked.ok
  obtain ⟨-, rfl, fits⟩ := msgSend_sent accepted
  obtain ⟨id, own, valid, hr, hc⟩ := meets
  rw [record_stop G.small ok fits] at hr
  constructor
  · intro alloc
    have own' : Owns (s.setQueue (sendQueue G.size s.q m.data)) h id :=
      (sameRegistry_sendQueue _ s m.data).owns.mpr own
    have kept : (sendQueue G.size s.q m.data).readValids id = true := by
      refine (sendQueue_readValids G.small ok fits (F.tracked.registry.below h id own)).mpr ⟨valid, ?_, ?_⟩
      · rintro hw ⟨beyond, -⟩
        have := mustWrap_offset G.small fits hw
        simp only [recordOffset, hw, if_true] at hr
        omega
      · rintro ⟨-, inside, -⟩
        omega
    have at_end : (sendQueue G.size s.q m.data).readOffset id = (sendQueue G.size s.q m.data).writeOffset := by
      rw [sendQueue_writeOffset G.small ok fits, ← hr, Queue.readOffset, sendQueue_readPointers]
      rfl
    exact loop_done 0 (recvPass_empty own' kept at_end) rfl
  · rw [Spec.event, Broadcast.unread_push (F.valid h rfl)]
    simp

end runs

/-- The calls up to a send that ends at a subscriber of an older lap. -/
def meetingCalls : List Call :=
  [.initPublisher 0, .initSubscriber 1, .send 0 (byteMsg 1), .recv 1 true, .send 0 (byteMsg 2),
    .send 0 (byteMsg 3)]

theorem false_empty : ∃ past s,
    script (fun _ _ => True) blankState meetingCalls = some (past, s) ∧
    Run (Step countingUids tinySegment) blankState past s ∧
    (Owns s 1 0 ∧ s.q.readValids 0 = true ∧
      (msgRecv countingUids 48 true 1 1 s).map Prod.fst = some [.empty] ∧
      (msgReady countingUids 1 1 s).map Prod.fst = some [.answer false] ∧
      Broadcast.unheard (spec past) 1 = [[2], [3]]) := by
  obtain ⟨past, s, ends, run, shows⟩ := script_shows (fun _ _ => True)
    blankState meetingCalls (p := fun past s => Owns s 1 0 ∧ s.q.readValids 0 = true ∧
      (msgRecv countingUids 48 true 1 1 s).map Prod.fst = some [.empty] ∧
      (msgReady countingUids 1 1 s).map Prod.fst = some [.answer false] ∧
      Broadcast.unheard (spec past) 1 = [[2], [3]]) (by decide +kernel)
  exact ⟨past, s, ends, run_of_where run, shows⟩

theorem empty_only_when_caught_up_rounds : ∃ past s,
    Run (Where countingUids tinySegment (NeverMet tinySegment 1)) blankState past s ∧ Owns s 1 1 ∧
    s.q.readValids 1 = true ∧ wrapCount past = 2 ∧ receivedBy 1 past = [[1], [0], [1], [2], [3]] ∧
    (∀ alloc fuel passes t, msgRecv countingUids tinySegment.size alloc 1 fuel s = some (passes, t) →
      passes.getLast? = some .empty → Broadcast.unheard (spec past) 1 = []) ∧
    (∀ fuel passes t, msgReady countingUids 1 fuel s = some (passes, t) →
      passes.getLast? = some (.answer false) → Broadcast.unheard (spec past) 1 = []) := by
  -- a second reader is left behind, and a starting publisher resets both
  obtain ⟨past, s, -, run, own, valid, wraps, received⟩ := script_shows (NeverMet tinySegment 1) blankState
    ([.initPublisher 0, .initSubscriber 1, .initSubscriber 2, .send 0 (byteMsg 1), .recv 1 true, .initPublisher 0,
      .initSubscriber 2, .initSubscriber 1] ++ inTurns 4)
    (p := fun past s => Owns s 1 1 ∧ s.q.readValids 1 = true ∧ wrapCount past = 2 ∧
      receivedBy 1 past = [[1], [0], [1], [2], [3]]) (by decide +kernel)
  exact ⟨past, s, run, own, valid, wraps, received, empty_only_when_caught_up run own valid⟩

end Msgq
