import Msgq.Publishers

/-! Sends that store into the ring behind another send's stores, and who is to
blame: a run without them is one in which a superseded publisher stores nothing. -/
namespace Msgq
open ByteMemory FramedRecords Traces Turns

/-- Every slot in use is counted. -/
def Counted (s : State) : Prop := ∀ h id, Owns s h id → s.q.readValids id = true → id < s.q.numReaders

/-- An endpoint under observation: a process is current while what its send has
loaded holds of the ring. -/
structure Watched where
  endpoint : Endpoint
  current : Nat → Prop

/-- A store into the ring leaves no other send current; the load of num_readers
makes a send current if every slot in use was counted. -/
def Watched.watch (v : Watched) : TakeoverEvent → Nat → Prop
  | .subscriber _, p' => v.current p'
  | .publisher p _, p' =>
      if (v.endpoint.proc p).pc.stores then p' = p ∧ v.current p'
      else if (v.endpoint.proc p).pc.counts ∧ p' = p then Counted (stateOf v.endpoint)
      else v.current p'

/-- A send that stores into the ring is current. -/
def StoresCurrent (v : Watched) : TakeoverEvent → Prop
  | .publisher p _ => (v.endpoint.proc p).pc.stores = true → v.current p
  | .subscriber _ => True

structure WatchedStep (U : UidSource) (G : Segment) (v : Watched) (e : TakeoverEvent) (v' : Watched) : Prop where
  step : TakeoverStep U G v.endpoint e v'.endpoint
  current : v'.current = v.watch e
  stores : StoresCurrent v e

/-- Runs in which every send that stores into the ring is current. -/
abbrev WatchedRun (U : UidSource) (G : Segment) (v : Watched) (past : List TakeoverEvent) (v' : Watched) : Prop :=
  Run (WatchedStep U G) v past v'

def Endpoint.watched (w : Endpoint) : Watched := ⟨w, fun _ => False⟩

/-- The uid of an initialisation behind its store of write_uid. -/
def Pc.sweeps : Pc → Option Nat
  | .initPublisher uid (.numReaders) | .initPublisher uid (.valid _) | .initPublisher uid (.readUid _) => some uid
  | .initPublisher _ .writeUid | .idle | .failed | .publisherUid | .subscriberUid _ | .initSubscriber _ _ _
  | .resetReader _ _ _ _ | .get _ _ _ | .recv _ _ _ | .send _ _ => none

/-- A publisher whose uid is no longer in write_uid stores nothing: no byte of the
ring and no write pointer in a send, and nothing behind its uid in a start. -/
def Unsuperseded (w : Endpoint) : TakeoverEvent → Prop
  | .publisher p _ => ((w.proc p).pc.stores = true → isPublisher w.shared.q (w.proc p).handle = true) ∧
      ∀ uid ∈ (w.proc p).pc.sweeps, uid = w.shared.q.writeUid
  | .subscriber _ => True

instance (w : Endpoint) : ∀ e, Decidable (Unsuperseded w e)
  | .publisher p _ => inferInstanceAs (Decidable (((w.proc p).pc.stores = true →
      isPublisher w.shared.q (w.proc p).handle = true) ∧ ∀ uid ∈ (w.proc p).pc.sweeps, uid = w.shared.q.writeUid))
  | .subscriber _ => isTrue trivial

/-- The uids a process drew as a publisher and may still store or compare. -/
inductive Process.Holds (P : Process) (u : Nat) : Prop
  | started : P.handle.writeUidLocal = some u → Holds P u
  | starting (k : PublisherPc) : P.pc = .initPublisher u k → Holds P u

/-- The slots that a starting publisher has yet to clear. -/
def PublisherPc.ahead (id : Nat) : PublisherPc → Prop
  | .writeUid => False
  | .numReaders => True
  | .valid i | .readUid i => i ≤ id

/-- Each uid has one holder; a slot in use is counted, or the starting publisher
is still to clear it; and the active publisher's send is current. -/
structure Succession (U : UidSource) (v : Watched) : Prop where
  roster : Roster U (stateOf v.endpoint)
  drawn : ∀ p u, (v.endpoint.proc p).Holds u → ∃ j < v.endpoint.shared.drawn, u = U.draw j
  holder : ∀ p p' u, (v.endpoint.proc p).Holds u → (v.endpoint.proc p').Holds u → p = p'
  counted : ∀ h id, Owns (stateOf v.endpoint) h id → id < v.endpoint.shared.q.numReaders ∨
    ∃ p k, (v.endpoint.proc p).pc = .initPublisher v.endpoint.shared.q.writeUid k ∧ k.ahead id
  current : ∀ p, isPublisher v.endpoint.shared.q (v.endpoint.proc p).handle = true →
    (v.endpoint.proc p).pc.writing = true → v.current p

/-- What a move of a publisher does to the slots and to write_uid. -/
inductive Sweeping (s : Shared) (P : Process) (s' : Shared) (P' : Process) : Prop
  | keep : s'.q.numReaders = s.q.numReaders → s'.q.readUids = s.q.readUids → s'.q.writeUid = s.q.writeUid →
      (∀ u k, P.pc = .initPublisher u k → ∃ k', P'.pc = .initPublisher u k' ∧ ∀ id, k.ahead id → k'.ahead id) →
      Sweeping s P s' P'
  | take (u : Nat) : P.Holds u → s'.q.writeUid = u → P'.pc = .initPublisher u .numReaders → Sweeping s P s' P'
  | clear (u : Nat) : P.pc = .initPublisher u .numReaders → s'.q.readUids = s.q.readUids →
      s'.q.writeUid = s.q.writeUid → P'.pc = .initPublisher u (.valid 0) → Sweeping s P s' P'
  | sweep (u i : Nat) : P.pc = .initPublisher u (.readUid i) → s'.q.numReaders = s.q.numReaders →
      s'.q.readUids = Function.update s.q.readUids i 0 → s'.q.writeUid = s.q.writeUid →
      (P'.pc = .initPublisher u (.valid (i + 1)) ∨ NUM_READERS ≤ i + 1) → Sweeping s P s' P'

section publishers
variable {U : UidSource} {size : Nat} {s s' : Shared} {P P' : Process} {k : Choice} {e : Note}

theorem publishes_withdraws (may : publishes P k = true) (one : next U size s P k = some (e, s', P')) :
    Withdraws s P s' P' := by
  rcases publishes_cases may one with ⟨m, k, alloc, stands, one⟩ | ⟨-, starts⟩
  · obtain ⟨rfl, rfl, rfl⟩ := access_stands stands one
    obtain ⟨H, pc⟩ := P
    cases stands
    exact sendStep_withdraws size s.drawn m s.q H k
  · exact starts.withdraws

theorem publishes_sweeping (may : publishes P k = true) (one : next U size s P k = some (e, s', P')) :
    Sweeping s P s' P' := by
  obtain ⟨H, pc⟩ := P
  cases k with
  | call c =>
      cases pc with
      | idle =>
          cases one
          exact .keep rfl rfl rfl fun u k same => by cases same
      | _ => cases one
  | go alloc =>
      cases pc with
      | idle | failed => cases one
      | subscriberUid | initSubscriber | resetReader | get | recv => cases may
      | publisherUid =>
          cases one
          exact .keep rfl rfl rfl fun u k same => by cases same
      | send m k =>
          have sent : access U size alloc s ⟨H, .send m k⟩ = some (e, s', P') := one
          obtain ⟨rfl, rfl, rfl⟩ := access_send sent
          obtain ⟨count, uids, uid⟩ := sendStep_keeps size m s.q H k
          exact .keep count uids uid fun u k same => by cases same
      | initPublisher u k =>
          cases k with
          | writeUid =>
              cases one
              exact .take u (.starting .writeUid rfl) rfl rfl
          | numReaders =>
              cases one
              exact .clear u rfl rfl rfl rfl
          | valid i =>
              cases one
              refine .keep rfl rfl rfl ?_
              rintro u k ⟨⟩
              exact ⟨.readUid i, rfl, fun _ => id⟩
          | readUid i =>
              simp only [next, access, initPublisherStep] at one
              split_ifs at one with more
              · cases one
                exact .sweep u i rfl rfl rfl rfl (Or.inl rfl)
              · cases one
                exact .sweep u i rfl rfl rfl rfl (Or.inr (not_lt.mp more))

/-- A uid that a publisher holds behind a move was its own, or it was drawn. -/
theorem publishes_holds {u : Nat} (may : publishes P k = true) (one : next U size s P k = some (e, s', P'))
    (holds : P'.Holds u) : P.Holds u ∨ u = U.draw s.drawn ∧ s.drawn < s'.drawn := by
  obtain ⟨H, pc⟩ := P
  cases k with
  | call c =>
      cases pc with
      | idle =>
          cases one
          cases holds with
          | started own => exact Or.inl (.started own)
          | starting k stands =>
              cases c with
              | initPublisher | send => cases stands
              | initSubscriber | recv | ready => cases may
      | _ => cases one
  | go alloc =>
      cases pc with
      | idle | failed => cases one
      | subscriberUid | initSubscriber | resetReader | get | recv => cases may
      | publisherUid =>
          cases one
          cases holds with
          | started own => exact Or.inl (.started own)
          | starting k stands =>
              cases stands
              exact Or.inr ⟨rfl, Nat.lt_succ_self _⟩
      | send m k =>
          have sent : access U size alloc s ⟨H, .send m k⟩ = some (e, s', P') := one
          obtain ⟨rfl, rfl, rfl⟩ := access_send sent
          cases holds with
          | started own => exact Or.inl (.started own)
          | starting k' stands =>
              have goes : SenderGoes m (sendStep size m s.q H k).2.1 := sendStep_goes k
              rw [show (sendStep size m s.q H k).2.1 = .initPublisher u k' from stands] at goes
              cases goes
      | initPublisher uid k =>
          left
          cases k with
          | writeUid | numReaders | valid =>
              cases one
              cases holds with
              | started own => exact .started own
              | starting k' stands =>
                  cases stands
                  exact .starting _ rfl
          | readUid i =>
              simp only [next, access, initPublisherStep] at one
              split_ifs at one with more
              · cases one
                cases holds with
                | started own => exact .started own
                | starting k' stands =>
                    cases stands
                    exact .starting _ rfl
              · cases one
                cases holds with
                | started own =>
                    cases own
                    exact .starting _ rfl
                | starting k' stands => cases stands

end publishers

section worlds
variable {U : UidSource} {G : Segment} {size : Nat} {w : Endpoint} {current : Nat → Prop} {s' : Shared} {P' : Process}
  {p : Nat} {k : Choice} {e : Note}

/-- The active publisher holds the uid in write_uid. -/
theorem holds_of_active {q : Queue} {P : Process} (active : isPublisher q P.handle = true) : P.Holds q.writeUid :=
  .started (by simpa [isPublisher] using active)

/-- The slots in use are still counted, or still to be cleared. -/
theorem Succession.counted_publisher (S : Succession U ⟨w, current⟩) (may : publishes (w.proc p) k = true)
    (one : next U size w.shared (w.proc p) k = some (e, s', P')) (ok : Unsuperseded w (.publisher p e)) {h id : Nat}
    (own : Owns (stateOf (w.set p s' P')) h id) : id < s'.q.numReaders ∨
      ∃ p' k, ((w.set p s' P').proc p').pc = .initPublisher s'.q.writeUid k ∧ k.ahead id := by
  obtain ⟨roster, owners⟩ := (publishes_withdraws may one).roster S.roster
  have before := S.counted h id (owners h id own)
  cases publishes_sweeping may one with
  | keep count uids uid ahead =>
      rw [count, uid]
      refine before.imp_right ?_
      rintro ⟨p', k', stands, later⟩
      by_cases same : p' = p
      · subst same
        obtain ⟨k'', now, more⟩ := ahead _ _ stands
        exact ⟨p', k'', by rw [set_self]; exact now, more id later⟩
      · exact ⟨p', k', by rw [set_ne w same]; exact stands, later⟩
  | take u holds uid stands => exact Or.inr ⟨p, .numReaders, by rw [set_self, uid]; exact stands, trivial⟩
  | clear u was uids uid stands =>
      have mine : u = w.shared.q.writeUid := ok.2 u (by rw [was]; rfl)
      exact Or.inr ⟨p, .valid 0, by rw [set_self, uid, ← mine]; exact stands, Nat.zero_le id⟩
  | sweep u i was count uids uid next =>
      have mine : u = w.shared.q.writeUid := ok.2 u (by rw [was]; rfl)
      rw [count, uid]
      refine before.imp_right ?_
      rintro ⟨p', k', stands, later⟩
      have same : p' = p := S.holder p' p _ (.starting k' stands) (.starting _ (mine ▸ was))
      subst same
      have here : k' = .readUid i := by
        rw [was] at stands
        cases stands
        rfl
      subst here
      have later : i ≤ id := later
      have other : id ≠ i := by
        rintro rfl
        obtain ⟨j, -, drawn⟩ := roster.locals h id own.1
        have zero : s'.q.readUids id = 0 := by rw [uids, Function.update_self]
        exact U.nonzero j ((drawn.symm.trans own.2).trans zero)
      have bound := roster.ids h id own.1
      rcases next with more | last
      · exact ⟨p', .valid (i + 1), by rw [set_self, ← mine]; exact more, show i + 1 ≤ id by omega⟩
      · omega

/-- An active publisher that is writing is current, whoever moved. -/
theorem Succession.current_publisher (S : Succession U ⟨w, current⟩) (may : publishes (w.proc p) k = true)
    (one : next U size w.shared (w.proc p) k = some (e, s', P')) (ok : Unsuperseded w (.publisher p e)) {p' : Nat}
    (active : isPublisher s'.q ((w.set p s' P').proc p').handle = true)
    (writes : ((w.set p s' P').proc p').pc.writing = true) :
    (Watched.mk w current).watch (.publisher p e) p' := by
  by_cases same : p' = p
  · subst same
    rw [set_self] at active writes
    rcases publishes_cases may one with ⟨m, k, alloc, stands, one⟩ | ⟨-, starts⟩
    · obtain ⟨rfl, rfl, rfl⟩ := access_stands stands one
      obtain ⟨-, -, uid⟩ := sendStep_keeps size m w.shared.q (w.proc p').handle k
      have before : isPublisher w.shared.q (w.proc p').handle = true := by rwa [isPublisher, uid] at active
      rcases sendStep_writes writes with rfl | writing
      · have counted : Counted (stateOf w) := by
          intro h id own _
          refine (S.counted h id own).resolve_right ?_
          rintro ⟨a, k, starting, -⟩
          obtain rfl := S.holder a p' _ (.starting k starting) (holds_of_active before)
          rw [stands] at starting
          cases starting
        simpa [Watched.watch, stands, Pc.stores, SendPc.stores, Pc.counts] using counted
      · rw [← stands] at writing
        have now := S.current p' before writing
        simp only [Watched.watch, counts_of_writing writing, Bool.false_eq_true, false_and, if_false]
        split_ifs
        · exact ⟨trivial, now⟩
        · exact now
    · rw [starts.writing] at writes
      cases writes
  · rw [set_ne w same] at active writes
    have uid : s'.q.writeUid = w.shared.q.writeUid := by
      cases publishes_sweeping may one with
      | keep count uids uid ahead => exact uid
      | clear u was uids uid stands => exact uid
      | sweep u i was count uids uid next => exact uid
      | take u holds uid stands =>
          exact absurd (S.holder p' p u (uid ▸ holds_of_active active) holds) same
    have before : isPublisher w.shared.q (w.proc p').handle = true := by rwa [isPublisher, uid] at active
    have now := S.current p' before writes
    simp only [Watched.watch]
    split_ifs with stores both
    · exact absurd (S.holder p' p _ (holds_of_active before) (holds_of_active (ok.1 stores))) same
    · exact absurd both.2 same
    · exact now

theorem Succession.publisher (S : Succession U ⟨w, current⟩) (may : publishes (w.proc p) k = true)
    (one : next U size w.shared (w.proc p) k = some (e, s', P')) (ok : Unsuperseded w (.publisher p e)) :
    Succession U ⟨w.set p s' P', (Watched.mk w current).watch (.publisher p e)⟩ := by
  obtain ⟨roster, owners⟩ := (publishes_withdraws may one).roster S.roster
  have older : ∀ p' u, ((w.set p s' P').proc p').Holds u →
      (w.proc p').Holds u ∨ p' = p ∧ u = U.draw w.shared.drawn ∧ w.shared.drawn < s'.drawn := by
    intro p' u holds
    by_cases same : p' = p
    · subst same
      rw [set_self] at holds
      exact (publishes_holds may one holds).imp_right fun fresh => ⟨rfl, fresh⟩
    · rw [set_ne w same] at holds
      exact Or.inl holds
  refine ⟨roster, ?_, ?_, ?_, ?_⟩
  · intro p' u holds
    rcases older p' u holds with old | ⟨-, rfl, more⟩
    · obtain ⟨j, hj, same⟩ := S.drawn p' u old
      exact ⟨j, hj.trans_le (publishes_withdraws may one).drawn, same⟩
    · exact ⟨_, more, rfl⟩
  · intro a b u ha hb
    rcases older a u ha with old | ⟨rfl, rfl, -⟩
    · rcases older b u hb with old' | ⟨-, rfl, -⟩
      · exact S.holder a b u old old'
      · exact absurd rfl (draw_fresh (S.drawn a _ old))
    · rcases older b _ hb with old | ⟨rfl, -, -⟩
      · exact absurd rfl (draw_fresh (S.drawn b _ old))
      · rfl
  · exact fun h id own => S.counted_publisher may one ok own
  · exact fun p' active writes => S.current_publisher may one ok active writes

/-- The slots in use are counted but for those to come, and no uid is drawn again. -/
structure Peopling (U : UidSource) (drawn : Nat) (later : Nat → Prop) (s : State) : Prop where
  roster : Roster U s
  drawn : drawn ≤ s.drawn
  counted : ∀ h id, Owns s h id → id < s.q.numReaders ∨ later id

/-- A registration takes a counted slot, and it evicts nobody or everybody. -/
theorem Peopling.initSubscriber {s : State} {drawn : Nat} {later : Nat → Prop}
    (I : Peopling U drawn later s) (h : Nat) : Peopling U drawn later (Msgq.initSubscriber U s h) := by
  refine ⟨initSubscriber_roster I.roster h, I.drawn.trans (Nat.le_succ _), ?_⟩
  intro h' id own
  rw [initSubscriber_numReaders]
  by_cases same : h' = h
  · subst same
    rw [own.slot_unique (initSubscriber_owns s h')]
    exact Or.inl (Nat.lt_succ_self _)
  · obtain ⟨before, room, -, -, -⟩ := initSubscriber_owner_ne I.roster same own
    refine (I.counted h' id before).imp_left fun low => ?_
    simp only [newSlot, room, Bool.false_eq_true, if_false]
    omega

theorem Peopling.sameRegistry {s t : State} {drawn : Nat} {later : Nat → Prop} (I : Peopling U drawn later s)
    (same : SameRegistry s t) : Peopling U drawn later t := by
  refine ⟨?_, I.drawn.trans same.drawn.ge, ?_⟩
  · exact I.roster.keep (fun h => by rw [same.handle]) (fun h => by rw [same.handle]) same.drawn.ge
  · intro h id own
    rw [same.numReaders]
    exact I.counted h id (same.owns.mp own)

theorem Peopling.onePass {s t : State} {drawn h : Nat} {later : Nat → Prop} (one : OnePass U h s t)
    (I : Peopling U drawn later s) : Peopling U drawn later t := by
  cases one with
  | stay => exact I
  | reset => exact I.sameRegistry (sameRegistry_resetReader s _)
  | move => exact I.sameRegistry (sameRegistry_setReadPointer s _ _)
  | register => exact I.initSubscriber h

theorem Succession.subscriber {ev : Event} {t : State} (S : Succession U ⟨w, current⟩)
    (subscribes : ev.Subscribes (stateOf w)) (step : Step U G (stateOf w) ev t) :
    Succession U ⟨withState w t, (Watched.mk w current).watch (.subscriber ev)⟩ := by
  have before : Peopling U (stateOf w).drawn (fun id => ∃ p k,
      (w.proc p).pc = .initPublisher w.shared.q.writeUid k ∧ k.ahead id) (stateOf w) :=
    ⟨S.roster, le_refl _, S.counted⟩
  have call : Quiet (stateOf w) t ∧ Peopling U (stateOf w).drawn (fun id => ∃ p k,
      (w.proc p).pc = .initPublisher w.shared.q.writeUid k ∧ k.ahead id) t := by
    cases step with
    | initPublisher | sent | refused | aborted => exact subscribes.elim
    | initSubscriber h => exact ⟨quiet_initSubscriber _ h, before.initSubscriber h⟩
    | recv run => exact ⟨quiet_recv run, recv_keeps Peopling.onePass before run⟩
    | ready run => exact ⟨quiet_ready run, ready_keeps Peopling.onePass before run⟩
  obtain ⟨quiet, roster, drawn, counted⟩ := call
  have older : ∀ p u, ((withState w t).proc p).Holds u → (w.proc p).Holds u := by
    intro p u holds
    cases holds with
    | started own => exact .started ((quiet.writeUidLocal p).symm.trans own)
    | starting k stands => exact .starting k stands
  refine ⟨roster, ?_, ?_, ?_, ?_⟩
  · intro p u holds
    obtain ⟨j, hj, same⟩ := S.drawn p u (older p u holds)
    exact ⟨j, hj.trans_le drawn, same⟩
  · exact fun a b u ha hb => S.holder a b u (older a u ha) (older b u hb)
  · intro h id own
    have uid : (withState w t).shared.q.writeUid = w.shared.q.writeUid := quiet.writeUid
    rw [uid]
    exact counted h id own
  · intro p active writes
    refine S.current p ?_ writes
    have same : isPublisher t.q (t.handle p) = isPublisher w.shared.q (w.proc p).handle := by
      rw [isPublisher, isPublisher, quiet.writeUid, quiet.writeUidLocal]
      rfl
    exact same ▸ active

theorem succession_start (U : UidSource) (conflate : Nat → Bool) :
    Succession U (State.fresh conflate).endpoint.watched := by
  refine ⟨(registry_fresh U conflate).roster, ?_, ?_, ?_, ?_⟩
  · rintro p u (own | ⟨k, stands⟩)
    · cases own
    · cases stands
  · rintro p p' u (own | ⟨k, stands⟩)
    · cases own
    · cases stands
  · intro h id own
    cases own.1
  · intro p active writes
    cases writes

/-- Where superseded publishers store nothing, every send that stores into the ring is current. -/
theorem unsuperseded_current {conflate : Nat → Bool} {past : List TakeoverEvent}
    (run : TakeoverRun U G Unsuperseded (State.fresh conflate).endpoint past w) :
    ∃ v, v.endpoint = w ∧ WatchedRun U G (State.fresh conflate).endpoint.watched past v := by
  have succession : ∃ v, v.endpoint = w ∧ WatchedRun U G (State.fresh conflate).endpoint.watched past v ∧
      Succession U v := by
    refine run.invariant (I := fun past w => ∃ v, v.endpoint = w ∧
      WatchedRun U G (State.fresh conflate).endpoint.watched past v ∧ Succession U v)
      ⟨_, rfl, .nil, succession_start U conflate⟩ ?_
    rintro past w e w' _ ⟨⟨w, current⟩, rfl, so_far, S⟩ ⟨step, ok⟩
    refine ⟨⟨w', (Watched.mk w current).watch e⟩, rfl, so_far.snoc ⟨step, rfl, ?_⟩, ?_⟩
    · cases step with
      | subscriber => trivial
      | publisher => exact fun stores => S.current _ (ok.1 stores) (writing_of_stores stores)
    · cases step with
      | subscriber subscribes _ step => exact S.subscriber subscribes step
      | publisher may one => exact S.publisher may one ok
  obtain ⟨v, same, watched, -⟩ := succession
  exact ⟨v, same, watched⟩

end worlds

end Msgq
