import Msgq.Trails

/-! Receive against receive: a conflating receive beside the receives that drain
the queue, and a receive behind a call of ready. -/
namespace Msgq
open ByteMemory FramedRecords Traces

/-- The same state with the conflate flag of one handle set to `c`. -/
def State.conflating (s : State) (h : Nat) (c : Bool) : State :=
  s.setHandle h { s.handle h with readConflate := c }

/-- One receive after the other, up to and with the first that returns 0. -/
inductive Drain (U : UidSource) (size h : Nat) : State → List Bytes → State → Prop
  | nothing {s t fuel passes} : msgRecv U size true h fuel s = some (passes, t) →
      passes.getLast? = some .empty → Drain U size h s [] t
  | more {s t u fuel passes m ms} : msgRecv U size true h fuel s = some (passes, t) →
      returned passes = some m → Drain U size h t ms u → Drain U size h s (m :: ms) u

section drains
variable {U : UidSource} {size : Nat} {s t : State} {h id marks r n : Nat} {m : Bytes} {ms : List Bytes}

@[simp] theorem conflating_q (s : State) (h : Nat) (c : Bool) : (s.conflating h c).q = s.q := rfl

@[simp] theorem conflating_flag (s : State) (h : Nat) (c : Bool) :
    ((s.conflating h c).handle h).readConflate = c := by
  simp [State.conflating, State.setHandle]

theorem conflating_owns {c : Bool} : Owns (s.conflating h c) h id ↔ Owns s h id := by
  simp [Owns, State.conflating, State.setHandle]

theorem conflating_readerId (s : State) (h : Nat) (c : Bool) :
    ((s.conflating h c).handle h).readerId = (s.handle h).readerId := by
  simp [State.conflating, State.setHandle]

theorem conflating_initSubscriber (s : State) (h : Nat) (c : Bool) :
    initSubscriber U (s.conflating h c) h = (initSubscriber U s h).conflating h c := by
  simp [initSubscriber, State.conflating, State.setHandle]
  exact ⟨rfl, rfl⟩

theorem returned_cons (k : Pass) {passes : List Pass} {last : Pass} (h : passes.getLast? = some last) :
    (k :: passes).getLast? = some last ∧ returned (k :: passes) = returned passes := by
  have same : (k :: passes).getLast? = passes.getLast? := by
    cases passes with
    | nil => cases h
    | cons p ps => exact List.getLast?_cons_cons
  exact ⟨same.trans h, congrArg (Option.bind · Pass.message?) same⟩

/-- A pass that goes round again belongs to the first receive of the drain. -/
theorem Drain.again {k : Pass} (one : recvPass U size true h s = (k, t)) (more : k.again = true)
    {u : State} (drain : Drain U size h t ms u) : Drain U size h s ms u := by
  cases drain with
  | nothing run empty => exact .nothing (loop_again one more run) (returned_cons k empty).1
  | more run got rest =>
      obtain ⟨last, hl⟩ := loop_last run
      exact .more (loop_again one more run) ((returned_cons k hl).2.trans got) rest

/-- The drain of a state leads where one conflating receive does, and that
returns the last message of the drain. -/
def Agree (U : UidSource) (size h : Nat) (s : State) (ms : List Bytes) : Prop :=
  ∃ t : State, Drain U size h (s.conflating h false) ms (t.conflating h false) ∧
    ∃ fuel passes, msgRecv U size true h fuel (s.conflating h true) = some (passes, t.conflating h true) ∧
      returned passes = ms.getLast? ∧ (passes.getLast? = some .empty ↔ ms = [])

theorem agree_empty (at_end : ∀ c, recvPass U size true h (s.conflating h c) = (.empty, s.conflating h c)) :
    Agree U size h s [] :=
  ⟨s, .nothing (loop_done 0 (at_end false) rfl) rfl, 1, _, loop_done 0 (at_end true) rfl, rfl, by simp⟩

theorem agree_again {k : Pass} (more : k.again = true)
    (one : ∀ c, recvPass U size true h (s.conflating h c) = (k, t.conflating h c))
    (rest : Agree U size h t ms) : Agree U size h s ms := by
  obtain ⟨u, drain, fuel, passes, run, got, empty⟩ := rest
  obtain ⟨last, hl⟩ := loop_last run
  obtain ⟨hl', same⟩ := returned_cons k hl
  refine ⟨u, drain.again (one false) more, fuel + 1, _, loop_again (one true) more run, ?_, ?_⟩
  · exact same.trans got
  · rw [hl', ← hl]
    exact empty

/-- Over a record that is not the last one the conflating receive goes on; the
last one it returns. -/
theorem agree_record (plain : recvPass U size true h (s.conflating h false) = (.message r m, t.conflating h false))
    (last : ms = [] → recvPass U size true h (s.conflating h true) = (.message r m, t.conflating h true) ∧
      recvPass U size true h (t.conflating h true) = (.empty, t.conflating h true))
    (more : ms ≠ [] → recvPass U size true h (s.conflating h true) = (.skipped r n, t.conflating h true))
    (rest : Agree U size h t ms) : Agree U size h s (m :: ms) := by
  obtain ⟨u, drain, fuel, passes, run, got, empty⟩ := rest
  have drained : Drain U size h (s.conflating h false) (m :: ms) (u.conflating h false) :=
    .more (loop_done 0 plain rfl) rfl drain
  refine ⟨u, drained, ?_⟩
  cases ms with
  | nil =>
      obtain ⟨one, stop⟩ := last rfl
      have same := congrArg Prod.snd (loop_unique run (loop_done 0 stop rfl))
      refine ⟨1, [.message r m], ?_, rfl, by simp⟩
      rw [show u.conflating h true = t.conflating h true from same]
      exact loop_done 0 one rfl
  | cons x xs =>
      obtain ⟨k, hl⟩ := loop_last run
      obtain ⟨hl', same⟩ := returned_cons (.skipped r n) hl
      refine ⟨fuel + 1, _, loop_again (more (List.cons_ne_nil x xs)) rfl run, ?_, ?_⟩
      · rw [same, got, List.getLast?_cons_cons]
      · rw [hl', ← hl, empty]
        simp

theorem OnTrail.agree (U : UidSource) (hsize : size < 0xFFFFFFFF) (walk : OnTrail size s h id ms marks) :
    Agree U size h s ms := by
  refine OnTrail.induct (motive := fun s ms _ => Agree U size h s ms) hsize ?_ ?_ ?_ walk
  · intro s own valid at_end
    exact agree_empty fun c => recvPass_empty (conflating_owns.mpr own) valid at_end
  · intro s m rest marks own valid away found nonempty dvd room walk ih
    have one := fun c => recvPass_record U true (s := s.conflating h c) (conflating_owns.mpr own) valid
      away found nonempty dvd room.le hsize
    have next : (pastRecord s id m).q.readOffset id = s.q.readOffset id + span m.length :=
      pastRecord_readOffset (by omega)
    have at_end : rest = [] ↔ s.q.readOffset id + span m.length = s.q.writeOffset := by
      rw [walk.trail.nil_iff, next]
      rfl
    refine agree_record (r := s.q.readOffset id) (n := m.length) ?_ ?_ ?_ ih
    · rw [one false, conflating_flag]
      simp
      rfl
    · intro none
      have stop := at_end.mp none
      constructor
      · rw [one true, if_neg fun both => both.2 stop]
        simp
        rfl
      · exact recvPass_empty (conflating_owns.mpr walk.own) walk.valid (next.trans stop)
    · intro some_left
      have go : s.q.readOffset id + span m.length ≠ s.q.writeOffset := mt at_end.mpr some_left
      rw [one true, if_pos ⟨conflating_flag s h true, go⟩]
      rfl
  · intro s ms marks own valid away found _ ih
    exact agree_again (k := .wrapped (s.q.readOffset id)) rfl
      (fun c => recvPass_wrapped (conflating_owns.mpr own) valid away found) ih

/-- A subscriber that starts again finds nothing, conflating or not. -/
theorem agree_restarts (U : UidSource) (size : Nat) (registered : (s.handle h).readerId = some id)
    (restarts : ∀ id, Owns s h id → s.q.readValids id = false) : Agree U size h s [] := by
  by_cases huid : (s.handle h).readUidLocal = s.q.readUids id
  · have own : Owns s h id := ⟨registered, huid⟩
    refine agree_again (k := .invalid) (t := s.setQueue (resetReader s.q id)) rfl ?_ (agree_empty ?_)
    · intro c
      exact recvPass_invalid (conflating_owns.mpr own) (restarts id own)
    · intro c
      apply recvPass_empty (conflating_owns.mpr ((sameRegistry_resetReader s id).owns.mpr own))
      · simp [State.setQueue, resetReader]
      · simp [State.setQueue, resetReader, Queue.readOffset, Queue.writeOffset]
  · obtain ⟨-, valid, word⟩ := initSubscriber_slot (U := U) s h
    refine agree_again (k := .evicted) (t := initSubscriber U s h) rfl ?_ (agree_empty ?_)
    · intro c
      rw [← conflating_initSubscriber]
      apply recvPass_evicted ((conflating_readerId s h c).trans registered)
      simpa [State.conflating, State.setHandle] using huid
    · intro c
      apply recvPass_empty (conflating_owns.mpr (initSubscriber_owns s h)) valid
      rw [conflating_q, Queue.readOffset, word, Queue.writeOffset, (initSubscriber_same s h).1]

theorem conflating_self (s : State) (h : Nat) : s.conflating h (s.handle h).readConflate = s := by
  simp [State.conflating, State.setHandle]

/-- One receive, with its own flag, from where a drain finds `ms`. -/
theorem Agree.recv (A : Agree U size h s ms) : ∃ fuel passes t,
    msgRecv U size true h fuel s = some (passes, t) ∧
      ((∃ m, returned passes = some m) ↔ ms ≠ []) := by
  obtain ⟨u, drain, fuel, passes, run, got, -⟩ := A
  rw [← conflating_self s h]
  cases (s.handle h).readConflate with
  | true =>
      refine ⟨fuel, passes, _, run, ?_⟩
      rw [got]
      constructor
      · rintro ⟨m, last⟩ none
        rw [none] at last
        cases last
      · exact fun some_left => ⟨_, List.getLast?_eq_some_getLast some_left⟩
  | false =>
      cases drain with
      | nothing run' empty => exact ⟨_, _, _, run', by simp [returned, empty, Pass.message?]⟩
      | more run' got' => exact ⟨_, _, _, run', by simp [got']⟩

end drains

/-! Reachable states. -/

section runs
variable {U : UidSource} {G : Segment} {conflate : Nat → Bool} {past : List Event} {s : State} {h id : Nat}

theorem agree_reachable (run : Run (Step U G) (State.fresh conflate) past s) (few : wrapCount past < 2 ^ 32)
    (registered : (s.handle h).readerId = some id) : ∃ ms, Remains G.size s h ms ∧ Agree U G.size h s ms := by
  rcases (intactRun run few).reads_or_restarts h with ⟨id, ms, marks, walk, -⟩ | restarts
  · exact ⟨ms, .reader walk, walk.agree U G.small⟩
  · exact ⟨[], .restarts restarts, agree_restarts U G.size registered restarts⟩

/-- A conflating receive is a drain that keeps the last message: it returns 0
where the drain finds nothing, the last message of the drain otherwise, and both
leave the same segment and the same handles. -/
theorem conflating_receive_is_drain (run : Run (Step U G) (State.fresh conflate) past s)
    (few : wrapCount past < 2 ^ 32) (registered : (s.handle h).readerId = some id) : ∃ ms t,
    Drain U G.size h (s.conflating h false) ms (State.conflating t h false) ∧
      ∃ fuel passes, msgRecv U G.size true h fuel (s.conflating h true) = some (passes, t.conflating h true) ∧
        returned passes = ms.getLast? ∧ (passes.getLast? = some .empty ↔ ms = []) := by
  obtain ⟨ms, -, t, drain, rest⟩ := agree_reachable run few registered
  exact ⟨ms, t, drain, rest⟩

/-- A conflating and a plain receive behind a wrap, with one message unread. -/
theorem conflating_receive_is_drain_wrapped : ∃ past s,
    Run (Step countingUids tinySegment) blankState past s ∧ ∃ ms t,
    Drain countingUids tinySegment.size 1 (s.conflating 1 false) ms (State.conflating t 1 false) ∧
      ∃ fuel passes,
        msgRecv countingUids tinySegment.size true 1 fuel (s.conflating 1 true) = some (passes, t.conflating 1 true) ∧
        returned passes = ms.getLast? ∧ (passes.getLast? = some .empty ↔ ms = []) := by
  obtain ⟨past, s, -, run, few, registered⟩ := script_shows (fun _ _ => True) blankState wrappingCalls
    (p := fun past s => wrapCount past < 2 ^ 32 ∧ (s.handle 1).readerId = some 0) (by decide +kernel)
  exact ⟨past, s, run_of_where run, conflating_receive_is_drain (run_of_where run) few registered⟩

theorem sent_fits (run : Run (Step U G) (State.fresh conflate) past s) : ∀ m ∈ sentOf past, Fits G.size m := by
  refine run.invariant (I := fun past _ => ∀ m ∈ sentOf past, Fits G.size m) (by simp) ?_
  intro past s e t _ fits step m mem
  rw [sentOf_append, List.mem_append] at mem
  rcases mem with mem | mem
  · exact fits m mem
  · cases step with
    | sent accepted =>
        rw [sentOf_singleton, Event.sent?, Option.toList_some, List.mem_singleton] at mem
        exact mem ▸ (msgSend_sent accepted).2.2
    | initPublisher | initSubscriber | refused | aborted | recv | ready =>
        simp [Event.sent?] at mem

/-- What a receive returns was sent, so it has a positive size. -/
theorem returned_positive {alloc : Bool} {fuel : Nat} {passes : List Pass} {t : State} {m : Bytes}
    (run : Run (Step U G) (State.fresh conflate) past s) (few : wrapCount past < 2 ^ 32)
    (returns : msgRecv U G.size alloc h fuel s = some (passes, t)) (got : returned passes = some m) :
    0 < toInt m.length := by
  have few' : wrapCount (past ++ [.recv h passes]) < 2 ^ 32 := by simpa [wrapCount, Event.wraps] using few
  have received : m ∈ receivedBy h (past ++ [.recv h passes]) := by
    obtain ⟨k, last, hk⟩ := Option.bind_eq_some_iff.mp got
    rw [receivedBy_append, receivedBy_singleton]
    apply List.mem_append_right
    rw [Event.receivedBy, if_pos rfl]
    exact List.mem_filterMap.mpr ⟨k, List.mem_of_getLast? last, hk⟩
  obtain ⟨-, -, g, intact⟩ := intactRun (run.snoc (.recv returns)) few'
  have sent := (intact.order h).subset (List.mem_append_left _ received)
  exact (sent_fits run m (by simpa [Event.sent?] using sent)).positive G.small

/-- Ready predicts the receive behind it and does not disturb it. -/
theorem ready_predicts_receive (run : Run (Step U G) (State.fresh conflate) past s)
    (few : wrapCount past < 2 ^ 32) (registered : (s.handle h).readerId = some id) :
    ∃ fuel readyPasses u answer, msgReady U h fuel s = some (readyPasses, u) ∧
      readyPasses.getLast? = some (.answer answer) ∧
      ∃ fuel' passes passes' t, msgRecv U G.size true h fuel' u = some (passes, t) ∧
        msgRecv U G.size true h fuel' s = some (passes', t) ∧ passes.getLast? = passes'.getLast? ∧
        (answer = true ↔ ∃ m, returned passes = some m ∧ 0 < toInt m.length) := by
  rcases (intactRun run few).reads_or_restarts h with ⟨id, ms, marks, walk, -⟩ | restarts
  · have own := walk.own
    have valid := walk.valid
    have trail := walk.trail
    obtain ⟨fuel, passes, t, returns, something⟩ := (walk.agree U G.small).recv
    have one : readyPass U h s = (.answer (s.q.readOffset id != s.q.writeOffset), s) := by
      simp [Msgq.readyPass, own.1, own.2, valid]
    refine ⟨1, _, s, _, loop_done 0 one rfl, rfl, fuel, passes, passes, t, returns, returns, rfl, ?_⟩
    rw [bne_iff_ne, ne_eq, ← trail.nil_iff]
    constructor
    · intro unread
      obtain ⟨m, got⟩ := something.mpr unread
      exact ⟨m, got, returned_positive run few returns got⟩
    · rintro ⟨m, got, _⟩
      exact something.mp ⟨m, got⟩
  · obtain ⟨k, rk, u, id', first, one, ready, own, valid, at_end⟩ := restarts_first U registered restarts
    have answer : readyPass U h u = (.answer false, u) := by
      simp [Msgq.readyPass, own.1, own.2, valid, at_end]
    have stop : ∀ n, msgRecv U G.size true h (n + 1) u = some ([.empty], u) :=
      fun n => loop_done n (recvPass_empty own valid at_end) rfl
    refine ⟨2, [rk, .answer false], u, false, ?_, rfl, 2, [.empty], [k, .empty], u, stop 1, ?_, rfl, ?_⟩
    · rcases first with ⟨-, rfl⟩ | ⟨-, rfl⟩
      · exact loop_again ready rfl (loop_done 0 answer rfl)
      · exact loop_again ready rfl (loop_done 0 answer rfl)
    · rcases first with ⟨rfl, -⟩ | ⟨rfl, -⟩
      · exact loop_again (one G.size true) rfl (stop 0)
      · exact loop_again (one G.size true) rfl (stop 0)
    · simp [returned, Pass.message?]

/-- Ready finds the reader parked on a wrap tag, with a message behind it. -/
theorem ready_predicts_receive_wrapped : ∃ past s,
    Run (Step countingUids tinySegment) blankState past s ∧
    ∃ fuel readyPasses u answer, msgReady countingUids 1 fuel s = some (readyPasses, u) ∧
      readyPasses.getLast? = some (.answer answer) ∧
      ∃ fuel' passes passes' t, msgRecv countingUids tinySegment.size true 1 fuel' u = some (passes, t) ∧
        msgRecv countingUids tinySegment.size true 1 fuel' s = some (passes', t) ∧
        passes.getLast? = passes'.getLast? ∧
        (answer = true ↔ ∃ m, returned passes = some m ∧ 0 < toInt m.length) := by
  obtain ⟨past, s, -, run, few, registered⟩ := script_shows (fun _ _ => True) blankState wrappingCalls
    (p := fun past s => wrapCount past < 2 ^ 32 ∧ (s.handle 1).readerId = some 0) (by decide +kernel)
  exact ⟨past, s, run_of_where run, ready_predicts_receive (run_of_where run) few registered⟩

end runs

end Msgq
