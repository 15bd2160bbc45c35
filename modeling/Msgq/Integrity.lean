import Msgq.Following

/-! What every subscriber receives, over whole runs with publisher restarts,
evictions and readers that fall any number of laps behind. -/
namespace Msgq
open ByteMemory FramedRecords Traces

/-- Everything a handle received, followed by what it has ahead, is a
subsequence of what was sent. -/
structure Intact (U : UidSource) (size : Nat) (s : State) (sent : List Bytes)
    (received : Nat → List Bytes) (lap : List Bytes) (front : Nat) (g : Nat → List Bytes) : Prop where
  tracked : Tracked looseLaps (fun _ => True) U size s lap front g
  order : ∀ h, (received h ++ g h).Sublist sent
  nonempty : ∀ m ∈ sent, m ≠ []

section calls
variable {U : UidSource} {size bound : Nat} {s t : State} {sent lap : List Bytes}
  {received : Nat → List Bytes} {front : Nat} {g : Nat → List Bytes}

theorem sublist_clear {g : Nat → List Bytes} (order : ∀ h, (received h ++ g h).Sublist sent)
    (h h' : Nat) : (received h' ++ Function.update g h [] h').Sublist sent := by
  by_cases same : h' = h
  · subst same
    rw [Function.update_self, List.append_nil]
    exact (List.sublist_append_left _ _).trans (order h')
  · rw [Function.update_of_ne same]
    exact order h'

theorem Intact.initPublisher (I : Intact U size s sent received lap front g) (h front' : Nat) :
    Intact U size (initPublisher U s h) sent received lap front' g :=
  ⟨I.tracked.initPublisher h front' g, I.order, I.nonempty⟩

theorem Intact.initSubscriber (I : Intact U size s sent received lap front g) (h : Nat) :
    Intact U size (initSubscriber U s h) sent received lap front (Function.update g h []) :=
  ⟨I.tracked.initSubscriber h, sublist_clear I.order h, I.nonempty⟩

/-- The received messages after some passes of one receive. -/
def deliver (received : Nat → List Bytes) (h : Nat) (passes : List Pass) : Nat → List Bytes :=
  fun h' => received h' ++ (Event.recv h passes).receivedBy h'

theorem deliver_snoc (received : Nat → List Bytes) (h : Nat) (passes : List Pass) (p : Pass) :
    deliver received h (passes ++ [p]) = deliver (deliver received h passes) h [p] := by
  funext h'
  unfold deliver Event.receivedBy
  dsimp only
  split_ifs <;> simp

theorem deliver_silent {p : Pass} (hp : p.message? = none) (received : Nat → List Bytes) (h : Nat) :
    deliver received h [p] = received := by
  funext h'
  simp [deliver, Event.receivedBy, hp]

theorem deliver_message (received : Nat → List Bytes) (h p : Nat) (m : Bytes) :
    deliver received h [.message p m] h = received h ++ [m] := by
  simp [deliver, Event.receivedBy, Pass.message?]

theorem follows_order {h : Nat} {p : Pass} {g g' : Nat → List Bytes} (f : Follows h g g' p)
    (order : ∀ h, (received h ++ g h).Sublist sent) (h' : Nat) :
    (deliver received h [p] h' ++ g' h').Sublist sent := by
  by_cases same : h' = h
  swap
  · have hg := f.other same
    simpa [deliver, Event.receivedBy, Ne.symm same, hg] using order h'
  subst same
  cases p with
  | message q m =>
      obtain ⟨rest, hg, rfl⟩ := f
      rw [deliver_message, Function.update_self, List.append_assoc, List.singleton_append, ← hg]
      exact order h'
  | skipped q n =>
      obtain ⟨m, rest, hg, -, rfl⟩ := f
      have drop : (received h' ++ rest).Sublist (received h' ++ g h') := by
        rw [hg]
        exact (List.Sublist.refl _).append (List.sublist_cons_self m rest)
      rw [deliver_silent rfl, Function.update_self]
      exact drop.trans (order h')
  | evicted | invalid | lapped | torn =>
      obtain rfl := f
      rw [deliver_silent rfl]
      exact sublist_clear order h' h'
  | unregistered | empty | wrapped | noMemory =>
      obtain rfl := f
      rw [deliver_silent rfl]
      exact order h'
  | garbage => exact f.elim

/-- A whole receive: no assertion fails and every access lies in the ring. -/
theorem Intact.recv {h fuel : Nat} {alloc : Bool} {passes : List Pass} (hsize : size < 0xFFFFFFFF)
    (reach : bound ≤ size + 1) (I : Intact U bound s sent received lap front g)
    (run : msgRecv U size alloc h fuel s = some (passes, t)) :
    Quiet s t ∧ (∀ p, Pass.garbage p ∉ passes) ∧ (∀ p ∈ passes, ∀ x ∈ p.ranges, x.1 + x.2 < bound) ∧
      ∃ g', Intact U bound t sent (deliver received h passes) lap front g' := by
  have keep := loop_invariant
    (I := fun ks u => Quiet s u ∧ (∀ p, Pass.garbage p ∉ ks) ∧
      (∀ p ∈ ks, ∀ x ∈ p.ranges, x.1 + x.2 < bound) ∧
      ∃ g', Intact U bound u sent (deliver received h ks) lap front g')
    ?_ ?_ run
  · exact keep
  · rintro ks u ⟨quiet, clean, bounds, g', I'⟩
    have nonempty : ∀ m ∈ g' h, m ≠ [] := fun m hm =>
      I'.nonempty m ((I'.order h).subset (List.mem_append_right _ hm))
    obtain ⟨ranges, g'', follows, tracked⟩ :=
      recvPass_tracked alloc hsize reach I'.tracked trivial nonempty
    refine ⟨quiet.trans (recvPass_onePass u).quiet, ?_, ?_, g'', tracked, ?_, I'.nonempty⟩
    · intro p hp
      rcases List.mem_append.mp hp with hp | hp
      · exact clean p hp
      · rw [← List.mem_singleton.mp hp] at follows
        exact follows
    · intro p hp
      rcases List.mem_append.mp hp with hp | hp
      · exact bounds p hp
      · rw [List.mem_singleton.mp hp]
        exact ranges
    · rw [deliver_snoc]
      exact follows_order follows I'.order
  · refine ⟨.rfl, by simp, by simp, g, ?_⟩
    have : deliver received h [] = received := by
      funext h'
      simp [deliver, Event.receivedBy]
    rw [this]
    exact I

theorem Intact.ready {h fuel : Nat} {passes : List ReadyPass}
    (I : Intact U size s sent received lap front g)
    (run : msgReady U h fuel s = some (passes, t)) :
    Quiet s t ∧ ∃ g', Intact U size t sent received lap front g' := by
  refine loop_invariant
    (I := fun _ u => Quiet s u ∧ ∃ g', Intact U size u sent received lap front g')
    ?_ ⟨.rfl, g, I⟩ run
  rintro ks u ⟨quiet, g', I'⟩
  refine ⟨quiet.trans (readyPass_onePass u).quiet, ?_⟩
  obtain ⟨g'', tracked, hg⟩ := readyPass_tracked (h := h) I'.tracked
  refine ⟨g'', tracked, ?_, I'.nonempty⟩
  split at hg <;> subst hg
  · exact sublist_clear I'.order h
  · exact sublist_clear I'.order h
  · exact I'.order
  · exact I'.order

theorem Intact.send {m : Msg} (hsize : size < 0xFFFFFFFF) (inside : size ≤ bound)
    (I : Intact U bound s sent received lap s.q.writeOffset g) (fits : Fits size m.data)
    (hturn : mustWrap size s.q m.data.length = true → s.q.writeCycles + 1 < 2 ^ 32) :
    ∃ g', Intact U bound (s.setQueue (sendQueue size s.q m.data)) (sent ++ [m.data]) received
      (sentLap (mustWrap size s.q m.data.length) lap m.data) (sendQueue size s.q m.data).writeOffset g' := by
  -- every handle keeps what it had ahead or, wrapped over, is left with the new message alone
  have each : ∀ h, ∃ ahead : List Bytes, (received h ++ ahead).Sublist (sent ++ [m.data]) ∧
      ∀ id, Owns s h id → (sendQueue size s.q m.data).readValids id = true →
        AtWord looseLaps ((s.q.view bound lap s.q.writeOffset).send (mustWrap size s.q m.data.length) m.data)
          (s.q.readPointers id) ahead := by
    intro h
    have keeps : (received h ++ (g h ++ [m.data])).Sublist (sent ++ [m.data]) := by
      rw [← List.append_assoc]
      exact (I.order h).append (List.Sublist.refl _)
    by_cases lapped : ∃ id, Owns s h id ∧ WrapsOver looseLaps (s.q.view bound lap s.q.writeOffset)
        (mustWrap size s.q m.data.length) (s.q.readPointers id) (g h)
    · obtain ⟨id, own, hw, hr, back⟩ := lapped
      have hoff := mustWrap_offset hsize fits hw
      refine ⟨[m.data], ?_, ?_⟩
      · exact ((List.Sublist.refl _).append (List.sublist_append_right _ _)).trans keeps
      · intro id' own' _
        obtain rfl := own'.slot_unique own
        rw [hw]
        exact back.send_wrap_at hr (looseLaps_stay back.1 (hturn hw)) trivial hoff.le
    · refine ⟨g h ++ [m.data], keeps, ?_⟩
      intro id own kept
      rcases I.tracked.send_position hsize fits (fun hw => ⟨hturn hw, trivial⟩) trivial own kept with position | wraps
      · exact position
      · exact absurd ⟨id, own, wraps⟩ lapped
  choose g' order positions using each
  refine ⟨g', I.tracked.send hsize inside fits (fun h id _ => positions h id), order, ?_⟩
  intro x hx
  rcases List.mem_append.mp hx with hx | hx
  · exact I.nonempty x hx
  · rw [List.mem_singleton.mp hx]
    exact m.nonempty

/-- No assertion of the call fails, and all it reads lies in the segment. -/
def Event.Sound (size : Nat) : Event → Prop
  | .recv _ passes => (∀ p, Pass.garbage p ∉ passes) ∧ ∀ p ∈ passes, ∀ x ∈ p.ranges, x.1 + x.2 ≤ size
  | .initPublisher _ | .initSubscriber _ _ | .sent _ _ _ | .refused _ _ | .aborted _ _ | .ready _ _ => True

/-- Any call of a handle that sees no less than the ring and sends no further.
Where the front may be ahead of the write offset nothing is sent, and a starting
publisher brings it back. -/
theorem Intact.step {G : Segment} {e : Event} (I : Intact U bound s sent received lap front g)
    (step : Step U G s e t) (reads : (s.handle e.caller).readerId ≠ none → bound ≤ G.size + 1)
    (sends : ∀ data, e.sent? = some data → G.size ≤ bound ∧ front = s.q.writeOffset ∧
      (e.wraps = true → s.q.writeCycles + 1 < 2 ^ 32)) :
    e.Sound G.size ∧ t.q.writeCycles = s.q.writeCycles + (if e.wraps then 1 else 0) ∧
      ∃ front' g', Intact U bound t (sent ++ e.sent?.toList) (fun h => received h ++ e.receivedBy h)
        (e.lap lap) front' g' ∧
        (front = s.q.writeOffset ∨ (∃ h, e = .initPublisher h) → front' = t.q.writeOffset) := by
  have still : ∀ {word : Nat}, word = s.q.writePointer →
      (unpack64 word).1 = s.q.writeCycles ∧ (unpack64 word).2 = s.q.writeOffset := by
    rintro word rfl
    exact ⟨rfl, rfl⟩
  cases step with
  | initPublisher h =>
      refine ⟨trivial, rfl, s.q.writeOffset, g, ?_, fun _ => rfl⟩
      simpa [Event.sent?, Event.receivedBy, Event.lap] using I.initPublisher h s.q.writeOffset
  | initSubscriber h =>
      obtain ⟨hcyc, hoff⟩ := still (initSubscriber_same (U := U) s h).1
      refine ⟨trivial, hcyc, front, Function.update g h [], ?_, ?_⟩
      · simpa [Event.sent?, Event.receivedBy, Event.lap] using I.initSubscriber h
      · rintro (same | ⟨_, other⟩)
        · exact same.trans hoff.symm
        · cases other
  | refused _ =>
      refine ⟨trivial, rfl, front, g, by simpa [Event.sent?, Event.receivedBy, Event.lap] using I, ?_⟩
      rintro (same | ⟨_, other⟩)
      · exact same
      · cases other
  | aborted _ =>
      refine ⟨trivial, rfl, front, g, by simpa [Event.sent?, Event.receivedBy, Event.lap] using I, ?_⟩
      rintro (same | ⟨_, other⟩)
      · exact same
      · cases other
  | ready run =>
      obtain ⟨quiet, g', I'⟩ := I.ready run
      obtain ⟨hcyc, hoff⟩ := still quiet.writePointer
      refine ⟨trivial, hcyc, front, g', by simpa [Event.sent?, Event.receivedBy, Event.lap] using I', ?_⟩
      rintro (same | ⟨_, other⟩)
      · exact same.trans hoff.symm
      · cases other
  | @recv h alloc fuel passes _ run =>
      by_cases hid : (s.handle h).readerId = none
      · obtain ⟨rfl, rfl⟩ := recv_unregistered hid run
        refine ⟨⟨by simp, by simp [Pass.ranges]⟩, rfl, front, g, ?_, ?_⟩
        · change Intact U bound _ (sent ++ []) (deliver received h [.unregistered]) lap front g
          rw [List.append_nil, deliver_silent rfl]
          exact I
        · rintro (same | ⟨_, other⟩)
          · exact same
          · cases other
      have wide : bound ≤ G.size + 1 := reads hid
      obtain ⟨quiet, clean, bounds, g', I'⟩ := I.recv G.small wide run
      obtain ⟨hcyc, hoff⟩ := still quiet.writePointer
      refine ⟨⟨clean, fun p mem x hx => Nat.lt_succ_iff.mp ((bounds p mem x hx).trans_le wide)⟩, hcyc, front, g', ?_, ?_⟩
      · change Intact U bound t (sent ++ []) (deliver received _ _) lap front g'
        rw [List.append_nil]
        exact I'
      rintro (same | ⟨_, other⟩)
      · exact same.trans hoff.symm
      · cases other
  | sent accepted =>
      rename_i h m q ret signalled
      obtain ⟨-, rfl, fits⟩ := msgSend_sent accepted
      obtain ⟨inside, rfl, hturn⟩ := sends m.data rfl
      obtain ⟨g', I'⟩ := I.send G.small inside fits hturn
      refine ⟨trivial, ?_, (sendQueue G.size s.q m.data).writeOffset, g', ?_, fun _ => rfl⟩
      swap
      · simpa [Event.sent?, Event.receivedBy, Event.lap] using I'
      change (sendQueue G.size s.q m.data).writeCycles = _
      rw [sendQueue_writeCycles, recordCycles, Event.wraps]
      split_ifs with hw
      · exact nextCycle_eq (hturn hw)
      · rfl

end calls

/-! Runs. -/

section runs
variable {U : UidSource} {G : Segment} {conflate : Nat → Bool} {past : List Event} {s : State}

/-- The writer's cycle counter counts the wraps, and every subscriber is intact. -/
def IntactRun (U : UidSource) (G : Segment) (past : List Event) (s : State) : Prop :=
  s.q.writeCycles = wrapCount past ∧ (∀ e ∈ past, e.Sound G.size) ∧
    ∃ g, Intact U G.size s (sentOf past) (fun h => receivedBy h past) (sinceWrap past) s.q.writeOffset g

theorem intact_fresh (U : UidSource) (size : Nat) (conflate : Nat → Bool) :
    Intact U size (State.fresh conflate) [] (fun _ => []) [] (State.fresh conflate).q.writeOffset
      fun _ => [] := by
  refine ⟨⟨registry_fresh U conflate, ⟨rfl, Or.inl rfl⟩, ?_⟩, fun _ => List.Sublist.refl _, by simp⟩
  intro h id _ own
  cases own.1

theorem fresh_writeCycles (conflate : Nat → Bool) : (State.fresh conflate).q.writeCycles = 0 := by
  simp [State.fresh, Queue.zero, Queue.writeCycles, unpack64]

theorem intactRun_step {e : Event} {t : State} (I : IntactRun U G past s)
    (few : wrapCount (past ++ [e]) < 2 ^ 32) (step : Step U G s e t) : IntactRun U G (past ++ [e]) t := by
  obtain ⟨hcycles, sound, g, intact⟩ := I
  have count : wrapCount (past ++ [e]) = wrapCount past + (if e.wraps then 1 else 0) := by
    simp [wrapCount, List.countP_append, List.countP_singleton]
  obtain ⟨here, hcyc, front, g', intact', same⟩ := intact.step step (fun _ => Nat.le_succ _) fun _ _ => ⟨le_refl _, rfl, fun hw => by
    rw [count, if_pos hw, ← hcycles] at few
    exact few⟩
  obtain rfl := same (Or.inl rfl)
  refine ⟨by rw [hcyc, hcycles, count], ?_, g', ?_⟩
  · intro e' he'
    rcases List.mem_append.mp he' with he' | he'
    · exact sound e' he'
    · rw [List.mem_singleton.mp he']
      exact here
  · simpa [sinceWrap_append] using intact'

theorem intactRun (run : Run (Step U G) (State.fresh conflate) past s) (few : wrapCount past < 2 ^ 32) :
    IntactRun U G past s := by
  refine run.invariant (I := fun past s => wrapCount past < 2 ^ 32 → IntactRun U G past s)
    (fun _ => ⟨fresh_writeCycles conflate, by simp, _, intact_fresh U G.size conflate⟩) ?_ few
  intro past s e t _ ih step few
  have : wrapCount past < 2 ^ 32 := by
    rw [wrapCount_append] at few
    omega
  exact intactRun_step (ih this) few step

/-- Integrity and order of delivery: no size assertion of a receive ever fails,
and what one subscriber receives is a subsequence of what was sent. -/
theorem received_subsequence_of_sent (run : Run (Step U G) (State.fresh conflate) past s)
    (few : wrapCount past < 2 ^ 32) :
    (∀ h passes, Event.recv h passes ∈ past → ∀ p, Pass.garbage p ∉ passes) ∧
      ∀ h, (receivedBy h past).Sublist (sentOf past) := by
  obtain ⟨-, sound, g, intact⟩ := intactRun run few
  refine ⟨fun h passes mem => (sound _ mem).1, ?_⟩
  intro h
  exact (List.sublist_append_left _ _).trans (intact.order h)

end runs

theorem received_subsequence_of_sent_wrapped : ∃ past s,
    Run (Step countingUids tinySegment) blankState past s ∧ receivedBy 1 past = [[1], [2]] ∧
    (∀ h passes, Event.recv h passes ∈ past → ∀ p, Pass.garbage p ∉ passes) ∧
      ∀ h, (receivedBy h past).Sublist (sentOf past) := by
  obtain ⟨past, s, -, run, got, few⟩ := script_shows (fun _ _ => True) blankState
    [.initPublisher 0, .initSubscriber 1, .send 0 (byteMsg 1), .recv 1 true, .send 0 (byteMsg 2),
      .recv 1 true, .send 0 (byteMsg 3)]
    (p := fun past _ => receivedBy 1 past = [[1], [2]] ∧ wrapCount past < 2 ^ 32) (by decide +kernel)
  exact ⟨past, s, run_of_where run, got, received_subsequence_of_sent (run_of_where run) few⟩

end Msgq
