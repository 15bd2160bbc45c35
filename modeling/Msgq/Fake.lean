import Msgq.CaughtUp

/-! Receiving under a test driver. With fake mode enabled a receive tells the
driver that it was called and waits for the driver's answer before it reads. -/
namespace Msgq
open ByteMemory FramedRecords Traces

inductive EventPurpose
  | recvCalled
  | recvReady
  deriving DecidableEq

/-- The bytes pending in the two event FIFOs. -/
abbrev Fifos := EventPurpose → Nat

def Fifos.set (f : Fifos) (p : EventPurpose) : Fifos := Function.update f p (f p + 1)

/-- Every pending byte is dropped. -/
def Fifos.clear (f : Fifos) (p : EventPurpose) : Fifos := Function.update f p 0

/-- The argument of one receive call, and whether the socket has a timeout. -/
structure ReceiveCall where
  nonBlocking : Bool
  timed : Bool
  deriving DecidableEq

/-- Where a driver's round stands. -/
inductive DriverPc
  | wait
  | clear
  | send
  | set
  | stopped
  deriving DecidableEq

/-- Where `SubSocket::receive` stands; `polls` tells what an empty queue leads to. -/
inductive ReceivePc
  | idle
  | wait (c : ReceiveCall)
  | clear (c : ReceiveCall)
  | recv (c : ReceiveCall) (polls : Bool)
  | poll (c : ReceiveCall)
  | dead
  deriving DecidableEq

structure FakeWorld where
  state : State
  fifos : Fifos
  driver : DriverPc
  receiver : ReceivePc
  rounds : Nat

inductive FakeEvent
  | set (p : EventPurpose)
  | waited (p : EventPurpose)
  | cleared (p : EventPurpose) (dropped : Nat)
  | sent (m : Bytes)
  | stopped
  | received (code : Int)
  | polled (n : Bool)
  | returned (m : Option Bytes)
  | died
  deriving DecidableEq

/-- What `msgq_msg_recv` returns; none when an assertion failed. -/
def recvCode (passes : List Pass) : Option Int :=
  match passes.getLast? with
  | some (.message _ m) => some (toInt m.length)
  | some .empty => some 0
  | some (.noMemory _) => some (-1)
  | _ => none

/-- The driver's next step. A send that fails raises and ends the driver. -/
def driverStep (G : Segment) (p : Nat) (msgs : Nat → Msg) (w : FakeWorld) : Option (FakeEvent × FakeWorld) :=
  match w.driver with
  | .wait =>
      if 0 < w.fifos .recvCalled then some (.waited .recvCalled, { w with driver := .clear }) else none
  | .clear => some (.cleared .recvCalled (w.fifos .recvCalled),
      { w with fifos := w.fifos.clear .recvCalled, driver := .send })
  | .send =>
      match msgSend G.size w.state.q (w.state.handle p) (msgs w.rounds).data with
      | .sent q _ _ => some (.sent (msgs w.rounds).data,
          { w with state := w.state.setQueue q, rounds := w.rounds + 1, driver := .set })
      | .refused | .aborted => some (.stopped, { w with driver := .stopped })
  | .set => some (.set .recvReady, { w with fifos := w.fifos.set .recvReady, driver := .wait })
  | .stopped => none

/-- The subscriber's next step. `c` is the call it makes when it is between two
calls, `n` what `msgq_poll` reports, and allocations succeed. -/
def receiveStep (U : UidSource) (G : Segment) (h : Nat) (c : ReceiveCall) (n : Bool) (fuel : Nat)
    (w : FakeWorld) : Option (FakeEvent × FakeWorld) :=
  match w.receiver with
  | .idle => some (.set .recvCalled, { w with fifos := w.fifos.set .recvCalled, receiver := .wait c })
  | .wait c =>
      if 0 < w.fifos .recvReady then some (.waited .recvReady, { w with receiver := .clear c }) else none
  | .clear c => some (.cleared .recvReady (w.fifos .recvReady),
      { w with fifos := w.fifos.clear .recvReady, receiver := .recv c (!c.nonBlocking) })
  | .recv c polls =>
      (msgRecv U G.size true h fuel w.state).map fun (passes, t) =>
        match recvCode passes with
        | none => (.died, { w with state := t, receiver := .dead })
        | some rc =>
            if rc = 0 ∧ polls then (.received rc, { w with state := t, receiver := .poll c })
            else (.returned (if 0 < rc then returned passes else none),
              { w with state := t, receiver := .idle })
  | .poll c => some (.polled n, { w with receiver := .recv c (n || !c.timed) })
  | .dead => none

inductive FakeStep (U : UidSource) (G : Segment) (p h : Nat) (msgs : Nat → Msg) :
    FakeWorld → FakeEvent → FakeWorld → Prop
  | driver {w e w'} : driverStep G p msgs w = some (e, w') → FakeStep U G p h msgs w e w'
  | receiver {w e w'} (c n fuel) : receiveStep U G h c n fuel w = some (e, w') → FakeStep U G p h msgs w e w'

/-- Both FIFOs are empty, the driver waits for its first round and the
subscriber has not called receive yet. -/
def FakeWorld.start (s : State) : FakeWorld := ⟨s, fun _ => 0, .wait, .idle, 0⟩

def FakeWorld.driverBlocked (w : FakeWorld) : Prop := w.driver = .wait ∧ w.fifos .recvCalled = 0

def FakeWorld.receiverBlocked (w : FakeWorld) : Prop :=
  (∃ c, w.receiver = .wait c) ∧ w.fifos .recvReady = 0

def FakeEvent.returned? : FakeEvent → Option (Option Bytes)
  | .returned m => some m
  | _ => none

/-- What the finished receives returned, oldest first. -/
def receipts (past : List FakeEvent) : List (Option Bytes) := past.filterMap FakeEvent.returned?

/-- How often the driver set `RECV_READY`. -/
def answers (past : List FakeEvent) : Nat := past.count (.set .recvReady)

/-! What the subscriber has before it. -/

/-- The active publisher is `p`, and the flagged owner `h` of slot `id` has the
messages `ms` before it. -/
structure Ahead (U : UidSource) (G : Segment) (p h id : Nat) (s : State) (ms : List Bytes) : Prop where
  active : isPublisher s.q (s.handle p) = true
  own : Owns s h id
  valid : s.q.readValids id = true
  followed : ∃ lap b, Followed (exactLaps fun _ => lap ≠ []) (· = h) U G.size s lap (s.q.writeOffset + 1) b ∧
    Broadcast.unread b h = ms ∧ (ms ≠ [] → lap ≠ [])

section states
variable {U : UidSource} {G : Segment} {p h id : Nat} {s : State}

/-- The owner of a flagged slot keeps the slot and the flag. -/
theorem OnePass.owner {t : State} (one : OnePass U h s t) (both : Owns s h id ∧ s.q.readValids id = true) :
    Owns t h id ∧ t.q.readValids id = true := by
  obtain ⟨own, valid⟩ := both
  cases one with
  | stay => exact ⟨own, valid⟩
  | register hid huid =>
      obtain rfl := Option.some.inj (own.1.symm.trans hid)
      exact absurd own.2 huid
  | reset own' unset =>
      obtain rfl := own.slot_unique own'
      rw [valid] at unset
      cases unset
  | move => exact ⟨(sameRegistry_setReadPointer s _ _).owns.mpr own, valid⟩

theorem Ahead.start {past : List Event} {conflate : Nat → Bool} (run : Run (Step U G) (State.fresh conflate) past s)
    (active : isPublisher s.q (s.handle p) = true) (own : Owns s h id) (valid : s.q.readValids id = true)
    (drained : s.q.readPointers id = s.q.writePointer) : Ahead U G p h id s [] := by
  have F := followed_none run
  refine ⟨active, own, valid, sinceWrap past, Broadcast.empty, ?_, rfl, fun none => absurd rfl none⟩
  exact F.restart own drained (by simp [Broadcast.empty]) (Nat.zero_le _) rfl _

theorem Ahead.send {m : Msg} {q : Queue} {ret : Int} {signalled : List Nat} (A : Ahead U G p h id s [])
    (accepted : msgSend G.size s.q (s.handle p) m.data = .sent q ret signalled) :
    Ahead U G p h id (s.setQueue q) [m.data] := by
  obtain ⟨active, rfl, fits⟩ := msgSend_sent accepted
  obtain ⟨lap, b, F, nothing, -⟩ := A.followed
  have same := sameRegistry_sendQueue G.size s m.data
  have at_end := F.tracked.caught_up rfl A.own A.valid (fun empty _ closed => closed empty) nothing
  have wide : Followed (exactLaps fun _ => True) (· = h) U G.size s lap (s.q.writeOffset + 1) b :=
    F.relax fun _ _ => trivial
  obtain ⟨kept, F'⟩ := wide.sendCaughtUp G.small fits trivial A.own A.valid at_end.1 at_end.2
  have started := sentLap_ne_nil (mustWrap G.size s.q m.data.length) lap m.data
  refine ⟨?_, same.owns.mpr A.own, kept, _, _, F'.relax fun _ _ => started, ?_, fun _ => started⟩
  · rw [isPublisher, same.handle, same.writeUid]
    exact active
  · rw [Broadcast.unread_push (F.valid h rfl), nothing]
    rfl

/-- With one message before it, a receive returns that message. -/
theorem Ahead.recv {m : Bytes} (A : Ahead U G p h id s [m]) : ∃ fuel passes t,
    msgRecv U G.size true h fuel s = some (passes, t) ∧ returned passes = some m ∧ Ahead U G p h id t [] := by
  obtain ⟨lap, b, F, one, started⟩ := A.followed
  obtain ⟨fuel, passes, t, run, got, b', F', nothing⟩ := F.receives A.own A.valid one
    (started (List.cons_ne_nil m []))
  have kept := recv_keeps (I := fun u => Owns u h id ∧ u.q.readValids id = true) OnePass.owner ⟨A.own, A.valid⟩ run
  have quiet := (F.recv G.small run).1
  refine ⟨fuel, passes, t, run, got, ?_, kept.1, kept.2, lap, b', F', nothing, fun none => absurd rfl none⟩
  rw [isPublisher, quiet.writeUidLocal, quiet.writeUid]
  exact A.active

theorem recvCode_returned {passes : List Pass} {m : Bytes} (got : returned passes = some m) :
    recvCode passes = some (toInt m.length) := by
  obtain ⟨k, last, message⟩ := Option.bind_eq_some_iff.mp got
  rw [recvCode, last]
  cases k with
  | message r m => cases message; rfl
  | _ => cases message

end states

/-! The handshake. -/

/-- Where the two programs can stand together: which of them is on its way, what
is pending in the FIFOs, whether a message is unread and whether it was announced. -/
inductive Phase : Bool → Bool → DriverPc → ReceivePc → Nat → Nat → Prop
  | calls : Phase false false .wait .idle 0 0
  | asked (c) : Phase false false .wait (.wait c) 1 0
  | heard (c) : Phase false false .clear (.wait c) 1 0
  | sends (c) : Phase false false .send (.wait c) 0 0
  | stopped (c) : Phase false false .stopped (.wait c) 0 0
  | answers (c) : Phase true false .set (.wait c) 0 0
  | answered (c) : Phase true true .wait (.wait c) 0 1
  | clears (c) : Phase true true .wait (.clear c) 0 1
  | reads (c polls) : Phase true true .wait (.recv c polls) 0 0

theorem Phase.unread_of_recv {unread announced polls : Bool} {d : DriverPc} {c : ReceiveCall} {x y : Nat}
    (phase : Phase unread announced d (.recv c polls) x y) : unread = true := by
  cases phase with
  | reads => rfl

/-- The messages the first `n` rounds hand over. -/
def handedOver (msgs : Nat → Msg) (n : Nat) : List (Option Bytes) :=
  (List.range n).map fun i => some (msgs i).data

/-- `n` receives have returned, each with the message of its round. -/
structure InLockstep (U : UidSource) (G : Segment) (p h id : Nat) (msgs : Nat → Msg) (past : List FakeEvent)
    (w : FakeWorld) (n : Nat) (unread announced : Bool) : Prop where
  phase : Phase unread announced w.driver w.receiver (w.fifos .recvCalled) (w.fifos .recvReady)
  rounds : w.rounds = n + unread.toNat
  received : receipts past = handedOver msgs n
  announcements : answers past = n + announced.toNat
  single : ∀ p dropped, .cleared p dropped ∈ past → dropped ≤ 1
  fits : unread = true → Fits G.size (msgs n).data
  ahead : Ahead U G p h id w.state (if unread then [(msgs n).data] else [])

section steps
variable {U : UidSource} {G : Segment} {p h id : Nat} {msgs : Nat → Msg} {past : List FakeEvent}
  {w w' : FakeWorld} {e : FakeEvent} {n : Nat} {unread announced : Bool}

theorem handedOver_succ (msgs : Nat → Msg) (n : Nat) :
    handedOver msgs (n + 1) = handedOver msgs n ++ [some (msgs n).data] := by
  simp [handedOver, List.range_succ]

@[simp] theorem receipts_append (xs ys : List FakeEvent) : receipts (xs ++ ys) = receipts xs ++ receipts ys :=
  List.filterMap_append

@[simp] theorem answers_append (xs ys : List FakeEvent) : answers (xs ++ ys) = answers xs + answers ys :=
  List.count_append

theorem single_append (single : ∀ p dropped, .cleared p dropped ∈ past → dropped ≤ 1)
    (one : ∀ p dropped, e = .cleared p dropped → dropped ≤ 1) :
    ∀ p dropped, .cleared p dropped ∈ past ++ [e] → dropped ≤ 1 := by
  intro p dropped mem
  rcases List.mem_append.mp mem with mem | mem
  · exact single p dropped mem
  · exact one p dropped (List.mem_singleton.mp mem).symm

/-- A step that neither sends, announces nor returns anything. -/
theorem InLockstep.goes_on (I : InLockstep U G p h id msgs past w n unread announced)
    (phase : Phase unread announced w'.driver w'.receiver (w'.fifos .recvCalled) (w'.fifos .recvReady))
    (state : w'.state = w.state) (rounds : w'.rounds = w.rounds) (silent : e.returned? = none)
    (quiet : e ≠ .set .recvReady) (one : ∀ p dropped, e = .cleared p dropped → dropped ≤ 1) :
    InLockstep U G p h id msgs (past ++ [e]) w' n unread announced where
  phase := phase
  rounds := rounds.trans I.rounds
  received := by
    rw [receipts_append, I.received]
    simp [receipts, silent]
  announcements := by
    rw [answers_append, I.announcements]
    simp [answers, quiet]
  single := single_append I.single one
  fits := I.fits
  ahead := state ▸ I.ahead

theorem InLockstep.driver (I : InLockstep U G p h id msgs past w n unread announced)
    (step : driverStep G p msgs w = some (e, w')) : ∃ n' unread' announced',
    InLockstep U G p h id msgs (past ++ [e]) w' n' unread' announced' := by
  have phase := I.phase
  obtain ⟨s, fifos, driver, receiver, rounds⟩ := w
  dsimp only at phase
  generalize hc : fifos .recvCalled = called at phase
  generalize hr : fifos .recvReady = ready at phase
  cases phase with
  | calls | answered | clears | reads =>
      simp [driverStep, hc] at step
  | stopped => cases step
  | asked c =>
      simp only [driverStep, hc, Nat.one_pos, if_true, Option.some.injEq, Prod.mk.injEq] at step
      obtain ⟨rfl, rfl⟩ := step
      refine ⟨n, false, false, I.goes_on ?_ rfl rfl rfl (by simp) (by simp)⟩
      dsimp only
      rw [hc, hr]
      exact .heard c
  | heard c =>
      simp only [driverStep, hc, Option.some.injEq, Prod.mk.injEq] at step
      obtain ⟨rfl, rfl⟩ := step
      refine ⟨n, false, false, I.goes_on ?_ rfl rfl rfl (by simp) ?_⟩
      · simp only [Fifos.clear, Function.update_self, Function.update_of_ne, ne_eq, reduceCtorEq,
          not_false_eq_true, hr]
        exact .sends c
      · intro p dropped same
        cases same
        exact le_refl 1
  | sends c =>
      simp only [driverStep] at step
      cases result : msgSend G.size s.q (s.handle p) (msgs rounds).data with
      | refused | aborted =>
          simp only [result, Option.some.injEq, Prod.mk.injEq] at step
          obtain ⟨rfl, rfl⟩ := step
          refine ⟨n, false, false, I.goes_on ?_ rfl rfl rfl (by simp) (by simp)⟩
          dsimp only
          rw [hc, hr]
          exact .stopped c
      | sent q ret signalled =>
          simp only [result, Option.some.injEq, Prod.mk.injEq] at step
          obtain ⟨rfl, rfl⟩ := step
          obtain rfl : rounds = n := I.rounds
          refine ⟨rounds, true, false, ?_, rfl, ?_, ?_, single_append I.single (by simp), ?_, ?_⟩
          · dsimp only
            rw [hc, hr]
            exact .answers c
          · rw [receipts_append, I.received]
            simp [receipts, FakeEvent.returned?]
          · rw [answers_append, I.announcements]
            simp [answers]
          · exact fun _ => (msgSend_sent result).2.2
          · exact I.ahead.send result
  | answers c =>
      simp only [driverStep, Option.some.injEq, Prod.mk.injEq] at step
      obtain ⟨rfl, rfl⟩ := step
      refine ⟨n, true, true, ?_, I.rounds, ?_, ?_, single_append I.single (by simp), I.fits, I.ahead⟩
      · simp only [Fifos.set, Function.update_self, Function.update_of_ne, ne_eq, reduceCtorEq,
          not_false_eq_true, hc, hr]
        exact .answered c
      · rw [receipts_append, I.received]
        simp [receipts, FakeEvent.returned?]
      · rw [answers_append, I.announcements]
        simp [answers]

/-- The fuel of a step that finishes does not matter. -/
theorem receive_unique {c : ReceiveCall} {polled : Bool} {fuel fuel' : Nat} {e' : FakeEvent} {w'' : FakeWorld}
    (one : receiveStep U G h c polled fuel w = some (e, w'))
    (other : receiveStep U G h c polled fuel' w = some (e', w'')) : e = e' ∧ w' = w'' := by
  unfold receiveStep at one other
  cases pc : w.receiver with
  | recv c' polls =>
      rw [pc] at one other
      obtain ⟨r, run, ends⟩ := Option.map_eq_some_iff.mp one
      obtain ⟨r', run', ends'⟩ := Option.map_eq_some_iff.mp other
      obtain rfl := loop_unique run run'
      exact Prod.mk.inj (ends.symm.trans ends')
  | idle | wait | clear | poll | dead =>
      rw [pc] at one other
      exact Prod.mk.inj (Option.some.inj (one.symm.trans other))

/-- The receive of a subscriber that has got its answer returns the message of its round. -/
theorem InLockstep.reads {c : ReceiveCall} {polls : Bool}
    (I : InLockstep U G p h id msgs past w n unread announced) (at_recv : w.receiver = .recv c polls) :
    ∃ fuel t, Ahead U G p h id t [] ∧ ∀ c' polled, receiveStep U G h c' polled fuel w =
      some (.returned (some (msgs n).data), { w with state := t, receiver := .idle }) := by
  obtain rfl : unread = true := (at_recv ▸ I.phase).unread_of_recv
  obtain ⟨fuel, passes, t, run, got, rest⟩ := I.ahead.recv
  refine ⟨fuel, t, rest, ?_⟩
  intro c' polled
  have positive := (I.fits rfl).positive G.small
  rw [receiveStep, at_recv]
  simp [run, recvCode_returned got, positive.ne', positive, got]

theorem InLockstep.receiver {c : ReceiveCall} {polled : Bool} {fuel : Nat}
    (I : InLockstep U G p h id msgs past w n unread announced)
    (step : receiveStep U G h c polled fuel w = some (e, w')) : ∃ n' unread' announced',
    InLockstep U G p h id msgs (past ++ [e]) w' n' unread' announced' := by
  have phase := I.phase
  obtain ⟨s, fifos, driver, receiver, rounds⟩ := w
  dsimp only at phase
  generalize hc : fifos .recvCalled = called at phase
  generalize hr : fifos .recvReady = ready at phase
  cases phase with
  | asked | heard | sends | stopped | answers => simp [receiveStep, hr] at step
  | calls =>
      simp only [receiveStep, Option.some.injEq, Prod.mk.injEq] at step
      obtain ⟨rfl, rfl⟩ := step
      refine ⟨n, false, false, I.goes_on ?_ rfl rfl rfl (by simp) (by simp)⟩
      simp only [Fifos.set, Function.update_self, Function.update_of_ne, ne_eq, reduceCtorEq,
        not_false_eq_true, hc, hr]
      exact .asked c
  | answered c =>
      simp only [receiveStep, hr, Nat.one_pos, if_true, Option.some.injEq, Prod.mk.injEq] at step
      obtain ⟨rfl, rfl⟩ := step
      refine ⟨n, true, true, I.goes_on ?_ rfl rfl rfl (by simp) (by simp)⟩
      dsimp only
      rw [hc, hr]
      exact .clears c
  | clears c =>
      simp only [receiveStep, hr, Option.some.injEq, Prod.mk.injEq] at step
      obtain ⟨rfl, rfl⟩ := step
      refine ⟨n, true, true, I.goes_on ?_ rfl rfl rfl (by simp) ?_⟩
      · simp only [Fifos.clear, Function.update_self, Function.update_of_ne, ne_eq, reduceCtorEq,
          not_false_eq_true, hc]
        exact .reads c _
      · intro p dropped same
        cases same
        exact le_refl 1
  | reads c' polls =>
      obtain ⟨fuel', t, ahead, returns⟩ := I.reads rfl
      obtain ⟨rfl, rfl⟩ := receive_unique (returns c polled) step
      refine ⟨n + 1, false, false, ?_, I.rounds, ?_, ?_, single_append I.single (by simp), by simp, ahead⟩
      · dsimp only
        rw [hc, hr]
        exact .calls
      · rw [receipts_append, I.received, handedOver_succ]
        rfl
      · rw [answers_append, I.announcements]
        simp [answers]

end steps

/-! Runs. -/

section runs
variable {U : UidSource} {G : Segment} {conflate : Nat → Bool} {before : List Event} {s : State}
  {p h id : Nat} {msgs : Nat → Msg} {past : List FakeEvent} {w : FakeWorld}

theorem inLockstep (reached : Run (Step U G) (State.fresh conflate) before s)
    (active : isPublisher s.q (s.handle p) = true) (own : Owns s h id) (valid : s.q.readValids id = true)
    (drained : s.q.readPointers id = s.q.writePointer) (run : Run (FakeStep U G p h msgs) (.start s) past w) :
    ∃ n unread announced, InLockstep U G p h id msgs past w n unread announced := by
  refine run.invariant (I := fun past w => ∃ n unread announced,
    InLockstep U G p h id msgs past w n unread announced) ?_ ?_
  · exact ⟨0, false, false, .calls, rfl, rfl, rfl, by simp, by simp, .start reached active own valid drained⟩
  · rintro past w e w' _ ⟨n, unread, announced, I⟩ step
    cases step with
    | driver one => exact I.driver one
    | receiver c n fuel one => exact I.receiver one

/-- What two programs in lockstep look like from outside. -/
theorem InLockstep.shows {n : Nat} {unread announced : Bool}
    (I : InLockstep U G p h id msgs past w n unread announced) :
    receipts past = (List.range (receipts past).length).map (fun i => some (msgs i).data) ∧
      (receipts past).length ≤ answers past ∧
      (∀ e dropped, .cleared e dropped ∈ past → dropped ≤ 1) ∧
      ¬ (w.driverBlocked ∧ w.receiverBlocked) ∧
      (∀ c polls, w.receiver = .recv c polls → ∃ fuel w', ∀ c' polled, receiveStep U G h c' polled fuel w =
        some (.returned (some (msgs (receipts past).length).data), w')) := by
  have count : (receipts past).length = n := by rw [I.received, handedOver, List.length_map, List.length_range]
  refine ⟨?_, ?_, I.single, ?_, ?_⟩
  · rw [count]
    exact I.received
  · rw [count, I.announcements]
    exact Nat.le_add_right _ _
  · rintro ⟨⟨waits, none_called⟩, ⟨c, waiting⟩, none_ready⟩
    have phase := I.phase
    rw [waits, none_called, waiting, none_ready] at phase
    cases phase
  · intro c polls at_recv
    obtain ⟨fuel, t, -, returns⟩ := I.reads at_recv
    rw [count]
    exact ⟨fuel, _, returns⟩

/-- Fake-mode lockstep: in every interleaving the receives return the messages of
the rounds in order, none returns before its answer was announced, no clear drops
two sets, the two programs never wait for each other, and a receive that has its
answer does return. -/
theorem fake_lockstep (reached : Run (Step U G) (State.fresh conflate) before s)
    (active : isPublisher s.q (s.handle p) = true) (own : Owns s h id) (valid : s.q.readValids id = true)
    (drained : s.q.readPointers id = s.q.writePointer) (run : Run (FakeStep U G p h msgs) (.start s) past w) :
    receipts past = (List.range (receipts past).length).map (fun i => some (msgs i).data) ∧
      (receipts past).length ≤ answers past ∧
      (∀ e dropped, .cleared e dropped ∈ past → dropped ≤ 1) ∧
      ¬ (w.driverBlocked ∧ w.receiverBlocked) ∧
      (∀ c polls, w.receiver = .recv c polls → ∃ fuel w', ∀ c' polled, receiveStep U G h c' polled fuel w =
        some (.returned (some (msgs (receipts past).length).data), w')) := by
  obtain ⟨n, unread, announced, I⟩ := inLockstep reached active own valid drained run
  exact I.shows

end runs

/-! Playing a given order of steps. -/

/-- The driver's step, or the subscriber's with the call it makes. -/
inductive FakeMove
  | driver
  | receiver (c : ReceiveCall)

def FakeMove.step (G : Segment) (p h : Nat) (msgs : Nat → Msg) (w : FakeWorld) :
    FakeMove → Option (FakeEvent × FakeWorld)
  | .driver => driverStep G p msgs w
  | .receiver c => receiveStep countingUids G h c true 4 w

theorem FakeMove.step_fakeStep {G : Segment} {p h : Nat} {msgs : Nat → Msg} {w w' : FakeWorld} {m : FakeMove}
    {e : FakeEvent} (one : m.step G p h msgs w = some (e, w')) : FakeStep countingUids G p h msgs w e w' := by
  cases m with
  | driver => exact .driver one
  | receiver c => exact .receiver c true 4 one

/-- The message of a round. -/
def roundMsg (i : Nat) : Msg := byteMsg (UInt8.ofNat (100 + i))

def fakePlay (s : State) (moves : List FakeMove) : Option (List FakeEvent × FakeWorld) :=
  perform (FakeMove.step tinySegment 0 1 roundMsg) (fun _ _ => True) (.start s) moves

theorem fakePlay_run {s : State} {moves : List FakeMove} {past : List FakeEvent} {w : FakeWorld}
    (plays : fakePlay s moves = some (past, w)) :
    Run (FakeStep countingUids tinySegment 0 1 roundMsg) (.start s) past w :=
  (performed plays fun _ _ _ _ => FakeMove.step_fakeStep).mono fun _ _ _ step => step.1

/-- A call, the driver's round, and what is left of the call. -/
def oneRound (c : ReceiveCall) : List FakeMove :=
  .receiver c :: (List.replicate 4 .driver ++ List.replicate 3 (.receiver c))

/-- Three rounds behind a wrap: the first call blocks, the second does not, the third has
a timeout. -/
theorem fake_lockstep_rounds : ∃ s past w,
    Run (FakeStep countingUids tinySegment 0 1 roundMsg) (.start s) past w ∧
    s.q.writeCycles = 1 ∧ receipts past = [some [100], some [101], some [102]] ∧
    receipts past = (List.range (receipts past).length).map (fun i => some (roundMsg i).data) ∧
      (receipts past).length ≤ answers past ∧
      (∀ e dropped, .cleared e dropped ∈ past → dropped ≤ 1) ∧
      ¬ (w.driverBlocked ∧ w.receiverBlocked) ∧
      (∀ c polls, w.receiver = .recv c polls → ∃ fuel w', ∀ c' polled,
        receiveStep countingUids tinySegment 1 c' polled fuel w =
          some (.returned (some (roundMsg (receipts past).length).data), w')) := by
  obtain ⟨before, s, -, reached, active, own, valid, drained, wrapped, plays⟩ := script_shows (fun _ _ => True)
    blankState ([.initPublisher 0, .initSubscriber 1] ++ inTurns 3)
    (p := fun _ s => isPublisher s.q (s.handle 0) = true ∧ Owns s 1 0 ∧ s.q.readValids 0 = true ∧
      s.q.readPointers 0 = s.q.writePointer ∧ s.q.writeCycles = 1 ∧
      (fakePlay s (oneRound ⟨false, false⟩ ++ oneRound ⟨true, false⟩ ++ oneRound ⟨false, true⟩)).any
        (fun r => receipts r.1 = [some [100], some [101], some [102]]) = true) (by decide +kernel)
  obtain ⟨⟨past, w⟩, ends, shows⟩ := (Option.any_eq_true _ _).mp plays
  have run := fakePlay_run ends
  exact ⟨s, past, w, run, wrapped, of_decide_eq_true shows,
    fake_lockstep (run_of_where reached) active own valid drained run⟩

/-- A subscriber that has received the last message, but stands in an older lap, is
drained as well. The first send of the driver clears its flag, and the message is lost. -/
theorem fake_lockstep_loses : ∃ before s past w,
    Run (Step countingUids tinySegment) blankState before s ∧
    isPublisher s.q (s.handle 0) = true ∧ Owns s 1 0 ∧ s.q.readValids 0 = true ∧ (s.handle 1).readConflate = false ∧
    (receivedBy 1 before).getLast? = (sentOf before).getLast? ∧
    (msgReady countingUids 1 1 s).map Prod.fst = some [.answer false] ∧
    Run (FakeStep countingUids tinySegment 0 1 roundMsg) (.start s) past w ∧
    receipts past = [none, some [101]] ∧
    receipts past ≠ (List.range (receipts past).length).map (fun i => some (roundMsg i).data) := by
  obtain ⟨before, s, -, reached, active, own, valid, plain, last, empty, plays⟩ := script_shows (fun _ _ => True)
    blankState overtakingCalls
    (p := fun before s => isPublisher s.q (s.handle 0) = true ∧ Owns s 1 0 ∧ s.q.readValids 0 = true ∧
      (s.handle 1).readConflate = false ∧ (receivedBy 1 before).getLast? = (sentOf before).getLast? ∧
      (msgReady countingUids 1 1 s).map Prod.fst = some [.answer false] ∧
      (fakePlay s (oneRound ⟨true, false⟩ ++ oneRound ⟨true, false⟩)).any
        (fun r => receipts r.1 = [none, some [101]]) = true) (by decide +kernel)
  obtain ⟨⟨past, w⟩, ends, shows⟩ := (Option.any_eq_true _ _).mp plays
  have lost : receipts past = [none, some [101]] := of_decide_eq_true shows
  refine ⟨before, s, past, w, run_of_where reached, active, own, valid, plain, last, empty, fakePlay_run ends, lost, ?_⟩
  rw [lost]
  decide

end Msgq
