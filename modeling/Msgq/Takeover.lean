import Msgq.Superseding
import Msgq.Integrity

/-! Takeovers that do no harm: no send stores into the ring behind another send's
stores. -/
namespace Msgq
open ByteMemory FramedRecords Traces Turns

/-- No assertion of a receive failed, and what it returned had been sent. -/
def TakeoverEvent.Honest (sent : List Bytes) : TakeoverEvent → Prop
  | .subscriber (.recv _ passes) => ∀ k ∈ passes, k.Honest sent
  | .subscriber _ | .publisher _ _ => True

/-- Between any two accesses a subscriber can read on, and each current send can
go on writing as if no other send were under way. -/
structure Fenced (U : UidSource) (size : Nat) (v : Watched) (lap sent : List Bytes) : Prop where
  fits : ∀ p m, (v.endpoint.proc p).pc = .send m .numReaders → Fits size m.data
  small : v.endpoint.shared.q.writePointer < 2 ^ 64
  rest : Attended U size (stateOf v.endpoint) lap sent .idle
  writers : ∀ p, v.current p → (v.endpoint.proc p).pc.writing = true →
    Attended U size (stateOf v.endpoint) lap sent (v.endpoint.proc p).pc

section worlds
variable {U : UidSource} {G : Segment} {size : Nat} {w w' : Endpoint} {v v' : Watched} {s' : Shared} {P' : Process}
  {p : Nat} {e : Note} {lap sent : List Bytes} {writer : Pc}

/-- Where a send may write there is less to read on from than where nobody writes. -/
theorem Attended.rest (A : Attended U size (stateOf w) lap sent writer) :
    Attended U size (stateOf w) lap sent .idle := by
  refine ⟨A.roster, A.ok.congr rfl rfl trivial, ?_⟩
  intro h id own valid
  have room : w.shared.q.writeOffset ≤ size := by
    have := A.ok.ring.room
    simp only [Queue.view, stateOf] at this
    omega
  exact Placed.relax (A.spot h id own valid) (guard_front writer room) (Nat.zero_le _)

/-- An access that leaves the ring alone is nothing to any writer. -/
theorem Attended.withdraw (A : Attended U size (stateOf w) lap sent writer)
    (W : Withdraws w.shared (w.proc p) s' P') (I : Aside w.shared e s') :
    Attended U size (stateOf (w.set p s' P')) lap sent writer := by
  obtain ⟨roster, owners⟩ := W.roster A.roster
  refine ⟨roster, A.ok.congr I.data I.writePointer (A.ok.writes.congr I.data I.writePointer), ?_⟩
  intro h id own valid
  have kept := A.spot h id (owners h id own) (W.valids id valid)
  refine Moment.Stands.congr (M := ⟨w.shared.q, lap, sent, writer⟩) ?_ I.data I.writePointer rfl rfl fun _ => rfl
  change Moment.Stands _ _ _ _ (s'.q.readPointers id)
  rw [W.pointers]
  exact kept

/-- A send that counts every slot in use may write. -/
theorem Attended.load {m : Msg} (A : Attended U size (stateOf w) lap sent .idle) (fits : Fits size m.data) :
    Attended U size (stateOf w) lap sent (.send m .numReaders) := by
  refine ⟨A.roster, A.ok.congr rfl rfl fits, ?_⟩
  intro h id own valid
  exact (A.spot h id own valid).congr rfl rfl rfl rfl fun _ => rfl

/-- An access of a send that may write. -/
theorem Attended.send {m : Msg} {k : SendPc} {alloc : Bool}
    (A : Attended U size (stateOf w) lap sent (.send m k)) (hsize : size < 0xFFFFFFFF)
    (small : w.shared.q.writePointer < 2 ^ 64) (stands : (w.proc p).pc = .send m k)
    (counted : k = .numReaders → Counted (stateOf w))
    (one : access U size alloc w.shared (w.proc p) = some (e, s', P'))
    (few : e = .wrapped → w.shared.q.writeCycles + 1 < 2 ^ 32) :
    Attended U size (stateOf (w.set p s' P')) (e.lap lap) (e.sent sent) P'.pc ∧
      w.shared.q.writePointer ≤ s'.q.writePointer ∧ s'.q.writePointer < 2 ^ 64 ∧
      s'.q.writeCycles = if e = .wrapped then nextCycle w.shared.q.writeCycles else w.shared.q.writeCycles := by
  obtain ⟨roster, ok, spot⟩ := A
  generalize here : w.proc p = P at one stands
  obtain ⟨H, pc⟩ := P
  cases stands
  obtain ⟨rfl, rfl, rfl⟩ := access_send one
  have W : Withdraws w.shared (w.proc p) ⟨(sendStep size m w.shared.q H k).1, w.shared.drawn⟩
      ⟨H, (sendStep size m w.shared.q H k).2.1⟩ := here ▸ sendStep_withdraws size w.shared.drawn m w.shared.q H k
  have after : ((Moment.mk w.shared.q lap sent (.send m k)).after (sendStep size m w.shared.q H k)).Ok size :=
    ok.send hsize rfl
  have advances : w.shared.q.writePointer ≤ (sendStep size m w.shared.q H k).1.writePointer ∧
      (sendStep size m w.shared.q H k).1.writePointer < 2 ^ 64 := ok.advances hsize rfl small few
  have cycles : (sendStep size m w.shared.q H k).1.writeCycles =
      if (sendStep size m w.shared.q H k).2.2 = .wrapped then nextCycle w.shared.q.writeCycles
      else w.shared.q.writeCycles := ok.cycles hsize rfl
  obtain ⟨roster', owners⟩ := W.roster roster
  refine ⟨⟨roster', after, ?_⟩, advances.1, advances.2, cycles⟩
  intro h id own valid
  have before := owners h id own
  obtain ⟨pointers, flags⟩ := sendStep_slots size m w.shared.q H k
  obtain ⟨valid', drop⟩ := flags id valid
  have unharmed : Unharmed .spot size (Moment.mk w.shared.q lap sent (.send m k)) m k id (w.shared.q.readPointers id) := by
    refine ⟨fun load => counted load h id before valid', ?_, drop⟩
    rintro x rfl passed clear
    exact ok.passed rfl passed clear
  have moved : ((Moment.mk w.shared.q lap sent (.send m k)).after (sendStep size m w.shared.q H k)).Stands .spot size id
      (w.shared.q.readPointers id) := (spot h id before valid').send ok hsize rfl unharmed few
  change Moment.Stands _ _ _ _ ((sendStep size m w.shared.q H k).1.readPointers id)
  rw [pointers]
  exact moved

/-- A whole call of a subscriber. -/
theorem Attended.subscriber {ev : Event} {t : State} (A : Attended U G.size (stateOf w) lap sent writer)
    (subscribes : ev.Subscribes (stateOf w)) (step : Step U G (stateOf w) ev t) :
    Attended U G.size t lap sent writer ∧ (TakeoverEvent.subscriber ev).Honest sent ∧
      t.q.writePointer = w.shared.q.writePointer := by
  cases step with
  | initPublisher | sent | refused | aborted => exact subscribes.elim
  | initSubscriber h => exact ⟨A.initSubscriber h, trivial, (initSubscriber_same (stateOf w) h).1⟩
  | recv run =>
      obtain ⟨honest, kept⟩ := recv_attended A G.small subscribes run
      exact ⟨kept, honest, (quiet_recv run).writePointer⟩
  | ready run => exact ⟨ready_attended A run, trivial, (quiet_ready run).writePointer⟩

/-- What a move leaves of the loads still to come. -/
theorem fits_set (fits : ∀ p m, (w.proc p).pc = .send m .numReaders → Fits size m.data)
    (mine : ∀ m, P'.pc = .send m .numReaders → Fits size m.data) :
    ∀ p' m, ((w.set p s' P').proc p').pc = .send m .numReaders → Fits size m.data := by
  intro p' m stands
  by_cases same : p' = p
  · subst same
    rw [set_self] at stands
    exact mine m stands
  · rw [set_ne w same] at stands
    exact fits p' m stands

/-- A move of a publisher that leaves the ring alone. -/
theorem Fenced.aside {current : Nat → Prop} (F : Fenced U size ⟨w, current⟩ lap sent)
    (W : Withdraws w.shared (w.proc p) s' P') (I : Aside w.shared e s') (calm : (w.proc p).pc.stores = false)
    (loads : ∀ m, P'.pc = .send m .numReaders → Fits size m.data)
    (mine : ((w.proc p).pc.counts = true → Counted (stateOf w)) →
      ((w.proc p).pc.counts = false → current p) → P'.pc.writing = true →
      Attended U size (stateOf (w.set p s' P')) lap sent P'.pc) :
    Fenced U size ⟨w.set p s' P', (Watched.mk w current).watch (.publisher p e)⟩ lap sent := by
  refine ⟨fits_set F.fits loads, I.writePointer.symm ▸ F.small, F.rest.withdraw W I, ?_⟩
  intro p' now writes
  simp only [Watched.watch, calm, Bool.false_eq_true, if_false] at now
  by_cases same : p' = p
  · subst same
    simp only [set_self, and_true] at now writes ⊢
    refine mine (fun counts => ?_) (fun other => ?_) writes
    · rwa [if_pos counts] at now
    · rwa [if_neg (by simpa using other)] at now
  · rw [if_neg fun both => same both.2] at now
    simp only [set_ne w same] at writes ⊢
    exact (F.writers p' now writes).withdraw W I

/-- One move of a publisher. -/
theorem Fenced.publisher {current : Nat → Prop} {k : Choice} (F : Fenced U G.size ⟨w, current⟩ lap sent)
    (may : publishes (w.proc p) k = true) (one : next U G.size w.shared (w.proc p) k = some (e, s', P'))
    (sound : (w.proc p).pc.stores = true → current p)
    (few : e = .wrapped → w.shared.q.writeCycles + 1 < 2 ^ 32) :
    Fenced U G.size ⟨w.set p s' P', (Watched.mk w current).watch (.publisher p e)⟩ (e.lap lap) (e.sent sent) ∧
      w.shared.q.writePointer ≤ s'.q.writePointer ∧
      s'.q.writeCycles = if e = .wrapped then nextCycle w.shared.q.writeCycles else w.shared.q.writeCycles := by
  have W := publishes_withdraws may one
  rcases publishes_cases may one with ⟨m, k, alloc, stands, one⟩ | ⟨other, starts⟩
  · have loads : ∀ m', P'.pc = .send m' .numReaders → Fits G.size m'.data := by
      intro m' now
      obtain ⟨-, -, rfl⟩ := access_stands stands one
      exact sendStep_loads now
    cases hs : k.stores with
    | true =>
        -- a current send stores, and every other send has to start over
        have stores : (w.proc p).pc.stores = true := by rw [stands]; exact hs
        have writing := F.writers p (sound stores) (writing_of_stores stores)
        obtain ⟨mine, advances, small, cycles⟩ := (stands ▸ writing).send G.small F.small stands
          (fun counts => by subst counts; cases hs) one few
        refine ⟨⟨fits_set F.fits loads, small, mine.rest, ?_⟩, advances, cycles⟩
        intro p' now writes
        simp only [Watched.watch, stores, if_true] at now
        obtain ⟨rfl, -⟩ := now
        simp only [set_self]
        exact mine
    | false =>
        have calm : (w.proc p).pc.stores = false := by rw [stands]; exact hs
        have I : Aside w.shared e s' := by
          obtain ⟨rfl, rfl, -⟩ := access_stands stands one
          exact sendStep_aside hs
        have quiet := I.note
        subst quiet
        refine ⟨F.aside W I calm loads ?_, I.writePointer.ge,
          congrArg (fun v => (unpack64 v).1) I.writePointer⟩
        intro counted current writes
        have busy : k = .numReaders ∨ (Pc.send m k).writing = true := by
          obtain ⟨-, -, rfl⟩ := access_stands stands one
          exact sendStep_writes writes
        have before : Attended U G.size (stateOf w) lap sent (.send m k) := by
          rcases busy with rfl | writing
          · exact F.rest.load (F.fits p m stands)
          · rw [← stands] at writing ⊢
            exact F.writers p (current (counts_of_writing writing)) writing
        refine (before.send G.small F.small stands (fun counts => counted ?_) one few).1
        rw [stands, counts]
        rfl
  · have calm : (w.proc p).pc.stores = false ∧ (w.proc p).pc.counts = false := by
      cases stands : (w.proc p).pc with
      | send m k => exact absurd stands (other m k)
      | _ => exact ⟨rfl, rfl⟩
    have quiet := starts.aside.note
    subst quiet
    refine ⟨F.aside W starts.aside calm.1 (fun m now => absurd now (starts.loads m)) ?_,
      starts.aside.writePointer.ge, congrArg (fun v => (unpack64 v).1) starts.aside.writePointer⟩
    intro _ _ writes
    rw [starts.writing] at writes
    cases writes

/-- One move of a publisher or one call of a subscriber. -/
theorem Fenced.step {ev : TakeoverEvent} (F : Fenced U G.size v lap sent) (one : WatchedStep U G v ev v')
    (few : ev.move.2 = .wrapped → v.endpoint.shared.q.writeCycles + 1 < 2 ^ 32) :
    Fenced U G.size v' (ev.move.2.lap lap) (ev.move.2.sent sent) ∧ ev.Honest sent ∧
      v.endpoint.shared.q.writePointer ≤ v'.endpoint.shared.q.writePointer ∧
      v'.endpoint.shared.q.writeCycles =
        if ev.move.2 = .wrapped then nextCycle v.endpoint.shared.q.writeCycles
        else v.endpoint.shared.q.writeCycles := by
  obtain ⟨w, current⟩ := v
  obtain ⟨w', current'⟩ := v'
  obtain ⟨step, same, sound⟩ := one
  cases same
  cases step with
  | subscriber subscribes idle step =>
      obtain ⟨rest, honest, pointer⟩ := F.rest.subscriber subscribes step
      refine ⟨⟨F.fits, ?_, rest, ?_⟩, honest, pointer.ge, congrArg (fun v => (unpack64 v).1) pointer⟩
      · exact pointer.symm ▸ F.small
      · exact fun p now writes => ((F.writers p now writes).subscriber subscribes step).1
  | publisher may one =>
      obtain ⟨F', advances, cycles⟩ := F.publisher may one sound few
      exact ⟨F', trivial, advances, cycles⟩

end worlds

/-! Runs. -/

section runs
variable {U : UidSource} {G : Segment} {conflate : Nat → Bool} {past : List TakeoverEvent} {v w : Watched}

structure Guarded (U : UidSource) (G : Segment) (past : List TakeoverEvent) (v : Watched) : Prop where
  fenced : Fenced U G.size v (lapIn (past.map TakeoverEvent.move)) (publishedIn (past.map TakeoverEvent.move))
  cycles : v.endpoint.shared.q.writeCycles = wrapsIn (past.map TakeoverEvent.move)
  honest : ∀ e ∈ past, e.Honest (publishedIn (past.map TakeoverEvent.move))

theorem guarded_start (U : UidSource) (G : Segment) (conflate : Nat → Bool) :
    Guarded U G [] (State.fresh conflate).endpoint.watched := by
  have rest : Attended U G.size (stateOf (State.fresh conflate).endpoint) [] [] .idle := by
    refine ⟨(registry_fresh U conflate).roster, ?_, ?_⟩
    · exact ⟨⟨rfl, Or.inl rfl⟩, List.nil_subset _, fun m mem => (List.not_mem_nil mem).elim, trivial⟩
    · intro h id own
      cases own.1
  refine ⟨⟨?_, Nat.two_pow_pos 64, rest, ?_⟩, fresh_writeCycles conflate, by simp⟩
  · intro p m stands
    cases stands
  · intro p current
    cases current

theorem TakeoverEvent.Honest.mono {sent sent' : List Bytes} {e : TakeoverEvent} (h : e.Honest sent)
    (more : sent ⊆ sent') : e.Honest sent' := by
  cases e with
  | publisher p e => trivial
  | subscriber e =>
      cases e with
      | recv h' passes =>
          intro k mem
          have one : k.Honest sent := h k mem
          cases k with
          | message n b => exact more one
          | garbage | unregistered => exact one
          | evicted | invalid | empty | lapped | wrapped | skipped | noMemory | torn => trivial
      | initPublisher | initSubscriber | sent | refused | aborted | ready => trivial

theorem Guarded.step {e : TakeoverEvent} {v' : Watched} (I : Guarded U G past v) (step : WatchedStep U G v e v')
    (few : wrapsIn ((past ++ [e]).map TakeoverEvent.move) < 2 ^ 32) :
    Guarded U G (past ++ [e]) v' ∧ v.endpoint.shared.q.writePointer ≤ v'.endpoint.shared.q.writePointer := by
  have wraps : wrapsIn ((past ++ [e]).map TakeoverEvent.move) =
      wrapsIn (past.map TakeoverEvent.move) + if e.move.2 = .wrapped then 1 else 0 := by
    rw [List.map_append]
    exact wrapsIn_snoc _ _
  have published : publishedIn ((past ++ [e]).map TakeoverEvent.move) =
      e.move.2.sent (publishedIn (past.map TakeoverEvent.move)) := by
    rw [List.map_append]
    exact publishedIn_snoc _ _
  have lap : lapIn ((past ++ [e]).map TakeoverEvent.move) = e.move.2.lap (lapIn (past.map TakeoverEvent.move)) := by
    rw [List.map_append]
    exact lapIn_snoc _ _
  have more := e.move.2.subset_sent (publishedIn (past.map TakeoverEvent.move))
  rw [wraps] at few
  obtain ⟨fenced, honest, advances, cycles⟩ := I.fenced.step step fun wrapped => by
    rw [if_pos wrapped] at few
    rw [I.cycles]
    omega
  refine ⟨⟨?_, ?_, ?_⟩, advances⟩
  · rw [published, lap]
    exact fenced
  · rw [cycles, wraps, I.cycles]
    split_ifs with wrapped
    · rw [if_pos wrapped] at few
      exact nextCycle_eq few
    · rfl
  · intro e' mem
    rw [published]
    rcases List.mem_append.mp mem with old | new
    · exact (I.honest e' old).mono more
    · rw [List.mem_singleton.mp new]
      exact honest.mono more

theorem wrapsIn_le (past : List TakeoverEvent) (e : TakeoverEvent) :
    wrapsIn (past.map TakeoverEvent.move) ≤ wrapsIn ((past ++ [e]).map TakeoverEvent.move) := by
  rw [List.map_append, wrapsIn, wrapsIn, List.countP_append]
  exact Nat.le_add_right _ _

theorem guarded (run : WatchedRun U G (State.fresh conflate).endpoint.watched past v)
    (few : wrapsIn (past.map TakeoverEvent.move) < 2 ^ 32) : Guarded U G past v := by
  refine run.invariant
    (I := fun past v => wrapsIn (past.map TakeoverEvent.move) < 2 ^ 32 → Guarded U G past v) ?_ ?_ few
  · intro _
    exact guarded_start U G conflate
  · intro past v e v' _ ih step few
    exact ((ih ((wrapsIn_le past e).trans_lt few)).step step few).1

theorem pointer_le {before after : List TakeoverEvent}
    (first : WatchedRun U G (State.fresh conflate).endpoint.watched before v) (second : WatchedRun U G v after w)
    (few : wrapsIn ((before ++ after).map TakeoverEvent.move) < 2 ^ 32) :
    v.endpoint.shared.q.writePointer ≤ w.endpoint.shared.q.writePointer := by
  induction second with
  | nil => exact le_refl _
  | @snoc after u e w run one ih =>
      rw [← List.append_assoc] at few
      have earlier := (wrapsIn_le (before ++ after) e).trans_lt few
      have so_far := guarded (first.append run) earlier
      exact (ih earlier).trans (so_far.step one few).2

/-- As long as every send that stores into the ring is current, takeovers do no
harm wherever they fall: what a subscriber receives is one published message, no
assertion of a receive fails, and the write pointer never decreases. -/
theorem takeover_intact (run : WatchedRun U G (State.fresh conflate).endpoint.watched past w)
    (few : wrapsIn (past.map TakeoverEvent.move) < 2 ^ 32) :
    (∀ h passes, TakeoverEvent.subscriber (.recv h passes) ∈ past →
      (∀ n b, Pass.message n b ∈ passes → ∃ p m, TakeoverEvent.publisher p (.published m) ∈ past ∧ m.data = b) ∧
        (∀ n, Pass.garbage n ∉ passes) ∧ Pass.unregistered ∉ passes) ∧
      ∀ before after v, past = before ++ after →
        WatchedRun U G (State.fresh conflate).endpoint.watched before v → WatchedRun U G v after w →
        v.endpoint.shared.q.writePointer ≤ w.endpoint.shared.q.writePointer := by
  constructor
  · intro h passes received
    have honest : ∀ k ∈ passes, k.Honest (publishedIn (past.map TakeoverEvent.move)) :=
      (guarded run few).honest _ received
    refine ⟨?_, fun n mem => honest _ mem, fun mem => honest _ mem⟩
    intro n b mem
    obtain ⟨p, m, published, same⟩ := mem_publishedIn (honest _ mem)
    obtain ⟨e, was, moved⟩ := List.mem_map.mp published
    refine ⟨p, m, ?_, same⟩
    cases e with
    | publisher p' e' =>
        cases moved
        exact was
    | subscriber e' => cases moved
  · rintro before after v rfl first second
    exact pointer_le first second few

end runs

/-- The first publisher stops for good before its copy, the second one behind its
loads; each time the next one takes over and sends. -/
def successionActions : List Action :=
  .turn 0 (.call .initPublisher) :: turns 0 53 ++ .call (.initSubscriber 2) ::
    .turn 0 (.call (.send (byteMsg 1))) :: turns 0 5 ++
  .turn 1 (.call .initPublisher) :: turns 1 53 ++ .call (.recv 2 true) ::
    .turn 1 (.call (.send (byteMsg 2))) :: turns 1 8 ++
    .turn 1 (.call (.send (filledMsg 8 3 nine_bytes_small))) :: turns 1 5 ++ .call (.recv 2 true) :: turns 1 4 ++
    .call (.recv 2 true) :: .turn 1 (.call (.send (byteMsg 5))) :: turns 1 4 ++
  .turn 3 (.call .initPublisher) :: turns 3 53 ++ .call (.recv 2 true) ::
    .turn 3 (.call (.send (byteMsg 4))) :: turns 3 8 ++ [.call (.recv 2 true)]

theorem takeover_intact_stopped : ∃ past w,
    WatchedRun countingUids ⟨96, by decide⟩ (State.fresh fun _ => false).endpoint.watched past w ∧
      TakeoverEvent.subscriber (.recv 2 [.message 0 [2]]) ∈ past ∧
      TakeoverEvent.subscriber (.recv 2 [.message 16 [3, 0, 0, 0, 0, 0, 0, 0, 0]]) ∈ past ∧
      TakeoverEvent.subscriber (.recv 2 [.message 40 [4]]) ∈ past ∧
      (∀ h passes, TakeoverEvent.subscriber (.recv h passes) ∈ past →
        (∀ n b, Pass.message n b ∈ passes → ∃ p m, TakeoverEvent.publisher p (.published m) ∈ past ∧ m.data = b) ∧
          (∀ n, Pass.garbage n ∉ passes) ∧ Pass.unregistered ∉ passes) ∧
        ∀ before after v, past = before ++ after →
          WatchedRun countingUids ⟨96, by decide⟩ (State.fresh fun _ => false).endpoint.watched before v →
          WatchedRun countingUids ⟨96, by decide⟩ v after w →
          v.endpoint.shared.q.writePointer ≤ w.endpoint.shared.q.writePointer := by
  obtain ⟨past, w, -, run, few, first, second, third⟩ := act_shows ⟨96, by decide⟩ Unsuperseded
    (State.fresh fun _ => false).endpoint successionActions
    (fun past _ => wrapsIn (past.map TakeoverEvent.move) < 2 ^ 32 ∧
      TakeoverEvent.subscriber (.recv 2 [.message 0 [2]]) ∈ past ∧
      TakeoverEvent.subscriber (.recv 2 [.message 16 [3, 0, 0, 0, 0, 0, 0, 0, 0]]) ∈ past ∧
      TakeoverEvent.subscriber (.recv 2 [.message 40 [4]]) ∈ past) (by decide +kernel)
  obtain ⟨v, -, watched⟩ := unsuperseded_current run
  exact ⟨past, v, watched, first, second, third, takeover_intact watched few⟩

/-! The condition is not met by the code: a send that has loaded the write
pointer goes on after the takeover. -/

/-- The first publisher stands before its copy while the second starts and sends
nine bytes at the same offset; then the first goes on, up to its final store. -/
def mixingActions : List Action :=
  .turn 0 (.call .initPublisher) :: turns 0 53 ++ .turn 0 (.call (.send (byteMsg 1))) :: turns 0 4 ++
  .turn 1 (.call .initPublisher) :: turns 1 53 ++ .call (.initSubscriber 2) ::
  .turn 1 (.call (.send (filledMsg 8 2 nine_bytes_small))) :: turns 1 9 ++ turns 0 1 ++ [.call (.recv 2 true)]

theorem takeover_mixes : ∃ past v e w,
    perform (act ⟨96, by decide⟩) (fun _ _ => True) (State.fresh fun _ => false).endpoint mixingActions = some (past, v) ∧
      TakeoverRun countingUids ⟨96, by decide⟩ (fun _ _ => True) (State.fresh fun _ => false).endpoint past v ∧
      wrapsIn (past.map TakeoverEvent.move) = 0 ∧
      TakeoverEvent.subscriber (.recv 2 [.message 0 [1, 0, 0, 0, 0, 0, 0, 0, 0]]) ∈ past ∧
      [1, 0, 0, 0, 0, 0, 0, 0, 0] ∉ mixingActions.filterMap Action.message? ∧
      TakeoverStep countingUids ⟨96, by decide⟩ v e w ∧ w.shared.q.writePointer < v.shared.q.writePointer := by
  obtain ⟨past, v, ends, run, few, got, falls⟩ := act_shows ⟨96, by decide⟩ (fun _ _ => True)
    (State.fresh fun _ => false).endpoint mixingActions
    (fun past v => wrapsIn (past.map TakeoverEvent.move) = 0 ∧
      TakeoverEvent.subscriber (.recv 2 [.message 0 [1, 0, 0, 0, 0, 0, 0, 0, 0]]) ∈ past ∧
      (act ⟨96, by decide⟩ v (.turn 0 (.go true))).any
        (fun r => r.2.shared.q.writePointer < v.shared.q.writePointer) = true) (by decide +kernel)
  obtain ⟨⟨e, w⟩, one, less⟩ := (Option.any_eq_true _ _).mp falls
  exact ⟨past, v, e, w, ends, run, few, got, by decide, act_step one, of_decide_eq_true less⟩

end Msgq
