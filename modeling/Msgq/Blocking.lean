import Msgq.Polling
import Msgq.Resuming

/-! Blocking receives. `SubSocket::receive` polls its own queue until a message is
there, the timeout is over or, behind a poll that reported a message another call
took away, tries again. -/
namespace Msgq
open ByteMemory FramedRecords Traces

/-- One call of `receive`, with the timeout of the socket. -/
structure Receive where
  nonBlocking : Bool
  timeout : Int
  sound : timeout = -1 ∨ 0 ≤ timeout
  deriving DecidableEq

/-- The timeout of its polls. -/
def Receive.t (c : Receive) : Int := if c.timeout ≠ -1 then c.timeout else 100

/-- Whether the loop goes on behind a `msgq_msg_recv` that returned `rc`; `n` is
the result of the poll before it, if there was one. -/
def Receive.goesOn (c : Receive) (rc : Int) : Option Nat → Bool
  | none => !c.nonBlocking && rc == 0
  | some n => rc == 0 && (n == 1 || c.timeout == -1)

inductive SocketPc
  | idle
  | first (c : Receive)
  | polling (c : Receive) (p : Poll)
  | died
  deriving DecidableEq

/-- The segment, and where the receive of one of its subscribers stands. -/
structure SocketWorld where
  state : State
  pc : SocketPc

/-- The call does one of the things that can take an unread message away from
another handle. -/
def disturbs (s : State) (e : Event) : Bool := e.sent?.isSome || !decide (Peaceful s e)

inductive SocketEvent
  | called (c : Receive)
  | polled (e : PollEvent)
  | again (n : Option Nat) (passes : List Pass)
  | returned (passes : List Pass) (m : Option Bytes)
  | died (passes : List Pass)
  | elsewhere (e : Event) (disturbing : Bool)
  deriving DecidableEq

/-- What follows a `msgq_msg_recv`. -/
def receiveThen (h : Nat) (c : Receive) (n : Option Nat) (r : List Pass × State) : SocketEvent × SocketWorld :=
  match recvCode r.1 with
  | none => (.died r.1, ⟨r.2, .died⟩)
  | some rc =>
      if c.goesOn rc n then (.again n r.1, ⟨r.2, .polling c (.start [⟨(0, h), false⟩] c.t)⟩)
      else (.returned r.1 (if 0 < rc then returned r.1 else none), ⟨r.2, .idle⟩)

/-- The next step of the socket. `c` is the call it makes when it is between two
calls, `alloc` whether an allocation succeeds, `outcome` what a sleep comes to. -/
def socketStep (U : UidSource) (G : Segment) (h : Nat) (c : Receive) (alloc : Bool) (fuel : Nat)
    (outcome : SleepOutcome) (w : SocketWorld) : Option (SocketEvent × SocketWorld) :=
  match w.pc with
  | .idle => some (.called c, ⟨w.state, .first c⟩)
  | .first c => (msgRecv U G.size alloc h fuel w.state).map (receiveThen h c none)
  | .polling c p =>
      if p.pc = .returned then (msgRecv U G.size alloc h fuel w.state).map (receiveThen h c (some p.num))
      else (pollStep U c.t fuel outcome ⟨fun _ => w.state, p⟩).map fun r =>
        (.polled r.1, ⟨r.2.endpoint 0, .polling c r.2.poll⟩)
  | .died => none

/-- The socket goes on, or another handle makes a call. -/
inductive SocketStep (U : UidSource) (G : Segment) (h : Nat) : SocketWorld → SocketEvent → SocketWorld → Prop
  | socket {w e w'} (c alloc fuel outcome) : socketStep U G h c alloc fuel outcome w = some (e, w') →
      SocketStep U G h w e w'
  | elsewhere {w e t} : Step U G w.state e t → e.caller ≠ h →
      SocketStep U G h w (.elsewhere e (disturbs w.state e)) ⟨t, w.pc⟩

/-! What is observed of a socket. -/

def SocketEvent.returned? : SocketEvent → Option Bytes
  | .returned _ m => m
  | _ => none

/-- The messages its receives returned, oldest first. -/
def returnedBy (past : List SocketEvent) : List Bytes := past.filterMap SocketEvent.returned?

def SocketEvent.sent? : SocketEvent → Option Bytes
  | .elsewhere e _ => e.sent?
  | _ => none

/-- What the others sent meanwhile. -/
def sentTo (past : List SocketEvent) : List Bytes := past.filterMap SocketEvent.sent?

def SocketEvent.wraps : SocketEvent → Bool
  | .elsewhere e _ => e.wraps
  | _ => false

def SocketEvent.call (last : Option Receive) : SocketEvent → Option Receive
  | .called c => some c
  | _ => last

/-- The running receive, or the last one. -/
def lastCall (past : List SocketEvent) : Option Receive := past.foldl SocketEvent.call none

def SocketEvent.since (before : List SocketEvent) : SocketEvent → List SocketEvent
  | .called _ => []
  | e => before ++ [e]

/-- What happened since it began. -/
def sinceCall (past : List SocketEvent) : List SocketEvent := past.foldl SocketEvent.since []

def SocketEvent.poll (before : List PollEvent) : SocketEvent → List PollEvent
  | .called _ | .again _ _ => []
  | .polled e => before ++ [e]
  | .returned _ _ | .died _ | .elsewhere _ _ => before

/-- Its last poll. -/
def lastPoll (past : List SocketEvent) : List PollEvent := past.foldl SocketEvent.poll []

def SocketEvent.time : SocketEvent → Nat
  | .polled e => e.time
  | _ => 0

/-- The time slept, in nanoseconds. -/
def sleptIn (past : List SocketEvent) : Nat := (past.map SocketEvent.time).sum

def SocketEvent.retries : SocketEvent → Bool
  | .again (some n) _ => n == 1
  | _ => false

/-- How often a poll reported a message and the receive behind it found none. -/
def retriesIn (past : List SocketEvent) : Nat := past.countP SocketEvent.retries

def SocketEvent.disturbing : SocketEvent → Bool
  | .elsewhere _ disturbing => disturbing
  | _ => false

def disturbancesIn (past : List SocketEvent) : Nat := past.countP SocketEvent.disturbing

section observations
variable (past : List SocketEvent) (e : SocketEvent)

@[simp] theorem returnedBy_append (more : List SocketEvent) :
    returnedBy (past ++ more) = returnedBy past ++ returnedBy more := List.filterMap_append

@[simp] theorem sentTo_append (more : List SocketEvent) : sentTo (past ++ more) = sentTo past ++ sentTo more :=
  List.filterMap_append

theorem lastCall_append : lastCall (past ++ [e]) = e.call (lastCall past) := by simp [lastCall]

theorem sinceCall_append : sinceCall (past ++ [e]) = e.since (sinceCall past) := by simp [sinceCall]

theorem lastPoll_append : lastPoll (past ++ [e]) = e.poll (lastPoll past) := by simp [lastPoll]

@[simp] theorem sleptIn_snoc : sleptIn (past ++ [e]) = sleptIn past + e.time := by simp [sleptIn]

@[simp] theorem retriesIn_snoc : retriesIn (past ++ [e]) = retriesIn past + e.retries.toNat := by
  cases h : e.retries <;> simp [retriesIn, List.countP_append, h]

@[simp] theorem disturbancesIn_snoc :
    disturbancesIn (past ++ [e]) = disturbancesIn past + e.disturbing.toNat := by
  cases h : e.disturbing <;> simp [disturbancesIn, List.countP_append, h]

end observations

/-! One step of a socket. -/

/-- Where a `msgq_msg_recv` is due, for which call and behind which poll. -/
inductive RecvDue : SocketPc → Receive → Option Nat → Prop
  | first (c) : RecvDue (.first c) c none
  | polled (c) {p : Poll} : p.pc = .returned → RecvDue (.polling c p) c (some p.num)

/-- All that a step does, with what its receive or its poll did. -/
inductive SocketMove (U : UidSource) (G : Segment) (h : Nat) (w : SocketWorld) : SocketEvent → SocketWorld → Prop
  | called (c) : w.pc = .idle → SocketMove U G h w (.called c) ⟨w.state, .first c⟩
  | polled {c p e fuel outcome} {v : PollWorld} : w.pc = .polling c p →
      pollStep U c.t fuel outcome ⟨fun _ => w.state, p⟩ = some (e, v) →
      SocketMove U G h w (.polled e) ⟨v.endpoint 0, .polling c v.poll⟩
  | again {c n passes t alloc fuel} : RecvDue w.pc c n → msgRecv U G.size alloc h fuel w.state = some (passes, t) →
      recvCode passes = some 0 → c.goesOn 0 n = true →
      SocketMove U G h w (.again n passes) ⟨t, .polling c (.start [⟨(0, h), false⟩] c.t)⟩
  | returned {c n passes t alloc fuel rc} : RecvDue w.pc c n →
      msgRecv U G.size alloc h fuel w.state = some (passes, t) → recvCode passes = some rc → c.goesOn rc n = false →
      SocketMove U G h w (.returned passes (if 0 < rc then Msgq.returned passes else none)) ⟨t, .idle⟩
  | died {c n passes t alloc fuel} : RecvDue w.pc c n → msgRecv U G.size alloc h fuel w.state = some (passes, t) →
      recvCode passes = none → SocketMove U G h w (.died passes) ⟨t, .died⟩
  | elsewhere {e t} : Step U G w.state e t → e.caller ≠ h →
      SocketMove U G h w (.elsewhere e (disturbs w.state e)) ⟨t, w.pc⟩

section moves
variable {U : UidSource} {G : Segment} {h : Nat} {w w' : SocketWorld} {e : SocketEvent} {c : Receive} {n : Option Nat}
  {passes : List Pass} {t : State}

theorem Receive.goesOn_zero {rc : Int} (on : c.goesOn rc n = true) : rc = 0 := by
  cases n with
  | none => exact (by simpa [Receive.goesOn] using on : _ ∧ rc = 0).2
  | some n => exact (by simpa [Receive.goesOn] using on : rc = 0 ∧ _).1

theorem receiveThen_move {alloc : Bool} {fuel : Nat} (due : RecvDue w.pc c n)
    (run : msgRecv U G.size alloc h fuel w.state = some (passes, t)) :
    SocketMove U G h w (receiveThen h c n (passes, t)).1 (receiveThen h c n (passes, t)).2 := by
  unfold receiveThen
  dsimp only
  split
  · rename_i dies
    exact .died due run dies
  · rename_i rc code
    by_cases on : c.goesOn rc n = true
    · obtain rfl := Receive.goesOn_zero on
      rw [if_pos on]
      exact .again due run code on
    · rw [if_neg on]
      exact .returned due run code (by simpa using on)

theorem SocketStep.move (step : SocketStep U G h w e w') : SocketMove U G h w e w' := by
  cases step with
  | elsewhere one other => exact .elsewhere one other
  | socket c alloc fuel outcome one =>
      unfold socketStep at one
      split at one
      · rename_i idle
        cases one
        exact .called c idle
      · rename_i c first
        obtain ⟨⟨passes, t⟩, run, same⟩ := Option.map_eq_some_iff.mp one
        rw [Prod.ext_iff] at same
        obtain ⟨rfl, rfl⟩ := same
        exact receiveThen_move (first ▸ .first c) run
      · rename_i c p polling
        split_ifs at one with ended
        · obtain ⟨⟨passes, t⟩, run, same⟩ := Option.map_eq_some_iff.mp one
          rw [Prod.ext_iff] at same
          obtain ⟨rfl, rfl⟩ := same
          exact receiveThen_move (polling ▸ .polled c ended) run
        · obtain ⟨⟨e, v⟩, polls, same⟩ := Option.map_eq_some_iff.mp one
          cases same
          exact .polled polling polls
      · cases one

end moves

/-! What a poll and a receive do to the segment. -/

section calls
variable {U : UidSource} {G : Segment} {h fuel : Nat} {s t : State} {alloc : Bool} {passes : List Pass}

/-- A receive returns at most one message, at its end. -/
theorem recv_messages (run : msgRecv U G.size alloc h fuel s = some (passes, t)) :
    passes.filterMap Pass.message? = (returned passes).toList := by
  have silent : ∀ ks u, ks.filterMap Pass.message? = [] → (recvPass U G.size alloc h u).1.again = true →
      (ks ++ [(recvPass U G.size alloc h u).1]).filterMap Pass.message? = [] := by
    intro ks u none more
    rw [List.filterMap_append, none, List.nil_append]
    generalize (recvPass U G.size alloc h u).1 = k at more
    cases k with
    | message => cases more
    | _ => rfl
  obtain ⟨ws, u, rfl, -, -, none⟩ := loop_ends (I := fun ks _ => ks.filterMap Pass.message? = []) silent rfl run
  rw [List.filterMap_append, none, returned, List.getLast?_concat, List.nil_append, Option.bind_some]
  cases got : (recvPass U G.size alloc h u).1.message? with
  | none => simp [got]
  | some m => simp [got]

/-- Where no allocation failed, a receive without memory went as one with memory. -/
theorem recv_unlimited (run : msgRecv U G.size false h fuel s = some (passes, t))
    (succeeded : ∀ p, passes.getLast? ≠ some (.noMemory p)) : msgRecv U G.size true h fuel s = some (passes, t) := by
  induction fuel generalizing s passes with
  | zero => cases run
  | succ fuel ih =>
      rw [msgRecv, loop] at run
      rcases recvPass_alloc U G.size h s with ⟨same, -⟩ | ⟨id, p, m, u, -, -, fails, -⟩
      · rw [msgRecv, loop, same]
        split_ifs at run ⊢ with more
        · obtain ⟨⟨rest, v⟩, inner, eq⟩ := Option.map_eq_some_iff.mp run
          cases eq
          obtain ⟨last, hl⟩ := loop_last inner
          have rest' := ih inner fun p => by
            rw [hl, ← (returned_cons _ hl).1]
            exact succeeded p
          rw [show loop (recvPass U G.size true h) Pass.again fuel (recvPass U G.size false h s).2 = some (rest, v)
            from rest']
          rfl
        · exact run
      · rw [fails, if_neg (by simp [Pass.again])] at run
        cases run
        exact absurd rfl (succeeded p)

theorem Poll.endPass_num (timeout : Int) (p : Poll) : (p.endPass timeout).num = p.num := by
  unfold Poll.endPass
  split
  · rfl
  · split <;> rfl
  · rfl

/-- The check of an item that a step of the poll makes. -/
structure Checks (U : UidSource) (h fuel : Nat) (timeout : Int) (s : State) (p : Poll) (ready : Bool) (v : PollWorld) :
    Prop where
  due : p.pc = .first ∨ (∃ ret, p.pc = .again ret) ∧ ∀ x ∈ p.rest.head?, x.revents = false
  some_left : p.rest ≠ []
  answer : ∃ passes, msgReady U h fuel s = some (passes, v.endpoint 0) ∧ passes.getLast? = some (.answer ready)
  num : v.poll.num = if ready then p.num + 1 else p.num

theorem checkItem_ready {x : PollItem} {ready : Bool} {endpoint : Nat → State} (mine : x.q = (0, h))
    (asks : checkItem U fuel (fun _ => s) x = some (ready, endpoint)) :
    ∃ passes, msgReady U h fuel s = some (passes, endpoint 0) ∧ passes.getLast? = some (.answer ready) := by
  unfold checkItem at asks
  rw [mine] at asks
  obtain ⟨⟨passes, t⟩, run, found⟩ := Option.bind_eq_some_iff.mp asks
  dsimp only at found
  split at found
  · rename_i answer last
    cases found
    exact ⟨passes, by rw [Function.update_self]; exact run, last⟩
  · cases found

/-- A step of a poll of this queue alone checks it or leaves the segment as it is. -/
theorem pollStep_mine {timeout : Int} {outcome : SleepOutcome} {p : Poll} {e : PollEvent} {v : PollWorld}
    (mine : ∀ x ∈ p.polls, x.q = (0, h)) (one : pollStep U timeout fuel outcome ⟨fun _ => s, p⟩ = some (e, v)) :
    (∃ ready, Checks U h fuel timeout s p ready v) ∨ v.endpoint 0 = s ∧ v.poll.num = p.num := by
  have here : ∀ {x xs}, p.rest = x :: xs → x.q = (0, h) := by
    intro x xs rest
    refine mine x ?_
    rw [Poll.polls, rest]
    simp
  unfold pollStep at one
  dsimp only at one
  split at one
  · rename_i x xs pc rest
    obtain ⟨⟨ready, endpoint⟩, asks, same⟩ := Option.map_eq_some_iff.mp one
    cases same
    refine Or.inl ⟨ready, Or.inl pc, by simp [rest], checkItem_ready (here rest) asks, ?_⟩
    rw [Poll.endPass_num]
    rfl
  · rename_i ret x xs pc rest
    split at one
    · cases one
      exact Or.inr ⟨rfl, Poll.endPass_num _ _⟩
    · rename_i clear
      obtain ⟨⟨ready, endpoint⟩, asks, same⟩ := Option.map_eq_some_iff.mp one
      cases same
      have unflagged : ∀ y ∈ p.rest.head?, y.revents = false := by
        simpa [rest] using clear
      refine Or.inl ⟨ready, Or.inr ⟨⟨ret, pc⟩, unflagged⟩, by simp [rest], checkItem_ready (here rest) asks, ?_⟩
      rw [Poll.endPass_num]
      rfl
  · split at one
    · cases one
      exact Or.inr ⟨rfl, Poll.endPass_num _ _⟩
    · split at one
      · cases one
        exact Or.inr ⟨rfl, Poll.endPass_num _ _⟩
      · cases one
  · cases one
  · cases one
  · cases one

end calls

/-! The accounts of a socket. -/

/-- What its last poll has gone over where a receive polls. -/
def Standing (h : Nat) (past : List SocketEvent) : SocketPc → Prop
  | .idle | .died => True
  | .first c => lastCall past = some c ∧ lastPoll past = []
  | .polling c p => lastCall past = some c ∧ Accounted [(0, h)] (lastPoll past) p ∧
      Budget (pollMs c.t * 1000000) (lastPoll past) p

section standing
variable {U : UidSource} {G : Segment} {h : Nat} {past : List SocketEvent} {w w' : SocketWorld} {e : SocketEvent}
  {c : Receive} {s : State}

theorem Receive.t_nonneg (c : Receive) : 0 ≤ c.t := by
  unfold Receive.t
  split_ifs with timed
  · exact c.sound.resolve_left timed
  · decide

theorem Receive.t_timed (c : Receive) : c.t ≠ -1 := by
  have := c.t_nonneg
  omega

theorem Budget.start (items : List PollItem) {timeout : Int} (timed : timeout ≠ -1) :
    Budget (pollMs timeout * 1000000) [] (.start items timeout) := by
  refine Budget.endPass ⟨?_, ?_⟩ timed
  · intro _ _
    rw [Timespec.ofMs_total]
    exact Nat.zero_add _
  · rintro (again | ⟨returned, -⟩)
    · cases again
    · cases returned

/-- The poll of a receive starts afresh. -/
theorem standing_start (h : Nat) (same : lastCall past = some c) (restarted : lastPoll past = []) :
    Standing h past (.polling c (.start [⟨(0, h), false⟩] c.t)) := by
  refine ⟨same, ?_, ?_⟩
  · rw [restarted]
    exact Accounted.start [⟨(0, h), false⟩] c.t
  · rw [restarted]
    exact Budget.start [⟨(0, h), false⟩] c.t_timed

/-- A poll of one queue looks at no other. -/
theorem Accounted.mine {q : Nat × Nat} {polled : List PollEvent} {p : Poll} (A : Accounted [q] polled p) :
    ∀ x ∈ p.polls, x.q = q := by
  intro x mem
  have listed := List.mem_map_of_mem (f := PollItem.q) mem
  rw [A.same] at listed
  exact List.mem_singleton.mp listed

theorem Standing.due {n : Option Nat} {pc : SocketPc} (S : Standing h past pc) (due : RecvDue pc c n) :
    lastCall past = some c := by
  cases due with
  | first => exact S.1
  | polled => exact S.1

/-- Other calls matter to no account. -/
theorem Standing.elsewhere {pc : SocketPc} {a : Event} {disturbing : Bool} (S : Standing h past pc) :
    Standing h (past ++ [.elsewhere a disturbing]) pc := by
  cases pc with
  | idle => trivial
  | died => trivial
  | first c =>
      unfold Standing
      rw [lastCall_append, lastPoll_append]
      exact S
  | polling c p =>
      unfold Standing
      rw [lastCall_append, lastPoll_append]
      exact S

theorem Standing.move (S : Standing h past w.pc) (move : SocketMove U G h w e w') : Standing h (past ++ [e]) w'.pc := by
  cases move with
  | called c idle =>
      unfold Standing
      rw [lastCall_append, lastPoll_append]
      exact ⟨rfl, rfl⟩
  | @polled c p e fuel outcome v polling one =>
      rw [polling] at S
      obtain ⟨same, A, B⟩ := S
      have moves := pollStep_move one
      refine ⟨?_, ?_, ?_⟩
      · rw [lastCall_append]
        exact same
      · rw [lastPoll_append]
        exact A.move moves
      · rw [lastPoll_append]
        exact B.move c.t_timed moves
  | @again c n passes t alloc fuel due run code on =>
      apply standing_start
      · rw [lastCall_append]
        exact S.due due
      · rw [lastPoll_append]
        rfl
  | returned => trivial
  | died => trivial
  | elsewhere => exact S.elsewhere

theorem standing_run (run : Run (SocketStep U G h) ⟨s, .idle⟩ past w) : Standing h past w.pc := by
  induction run with
  | nil => trivial
  | snoc _ one ih => exact ih.move one.move

end standing

/-- The calls that the segment saw while the socket went through `past`. -/
structure Traced (U : UidSource) (G : Segment) (h : Nat) (s : State) (past : List SocketEvent) (t : State)
    (calls : List Event) : Prop where
  run : Run (Step U G) s calls t
  sent : sentOf calls = sentTo past
  received : receivedBy h calls = returnedBy past
  wraps : wrapCount calls = past.countP SocketEvent.wraps

section traces
variable {U : UidSource} {G : Segment} {conflate : Nat → Bool} {h : Nat} {before calls : List Event} {s t : State}
  {past : List SocketEvent} {w w' : SocketWorld} {e : SocketEvent}

theorem Event.receivedBy_other {a : Event} (other : a.caller ≠ h) : a.receivedBy h = [] := by
  cases a with
  | recv h' passes => exact if_neg other
  | _ => rfl

/-- A step without a call. -/
theorem Traced.still (T : Traced U G h s past t calls) (unsent : e.sent? = none) (nothing : e.returned? = none)
    (stays : e.wraps = false) : Traced U G h s (past ++ [e]) t calls := by
  refine ⟨T.run, ?_, ?_, ?_⟩
  · simpa [sentTo, unsent] using T.sent
  · simpa [returnedBy, nothing] using T.received
  · simpa [List.countP_append, stays] using T.wraps

/-- A step that makes the call `a`. -/
theorem Traced.call {a : Event} {u : State} (T : Traced U G h s past t calls) (step : Step U G t a u)
    (sent : e.sent? = a.sent?) (received : e.returned?.toList = a.receivedBy h) (wraps : e.wraps = a.wraps) :
    Traced U G h s (past ++ [e]) u (calls ++ [a]) := by
  refine ⟨T.run.snoc step, ?_, ?_, ?_⟩
  · rw [sentOf_append, T.sent, sentTo_append, sentOf_singleton, ← sent]
    cases given : e.sent? <;> simp [sentTo, given]
  · rw [receivedBy_append, T.received, returnedBy_append, receivedBy_singleton, ← received]
    cases got : e.returned? <;> simp [returnedBy, got]
  · rw [wrapCount_append, T.wraps, List.countP_append, wrapCount, List.countP_singleton, List.countP_singleton, wraps]

/-- Only a receive that returns 0 or less hands over nothing. -/
theorem code_of_returned (prior : Run (Step U G) (State.fresh conflate) before s) (T : Traced U G h s past t calls)
    (few : wrapCount before + past.countP SocketEvent.wraps < 2 ^ 32) {alloc : Bool} {fuel : Nat}
    {passes : List Pass} {u : State} {rc : Int} (returns : msgRecv U G.size alloc h fuel t = some (passes, u))
    (code : recvCode passes = some rc) : (if 0 < rc then returned passes else none) = returned passes := by
  split_ifs with positive
  · rfl
  · cases got : returned passes with
    | none => rfl
    | some m =>
        have few' : wrapCount (before ++ calls) < 2 ^ 32 := by
          rw [wrapCount_append, T.wraps]
          exact few
        have grows := returned_positive (prior.append T.run) few' returns got
        rw [recvCode_returned got] at code
        cases code
        exact absurd grows positive

theorem returned_of_died {passes : List Pass} (dies : recvCode passes = none) : returned passes = none := by
  cases got : returned passes with
  | none => rfl
  | some m =>
      rw [recvCode_returned got] at dies
      cases dies

theorem Traced.move (prior : Run (Step U G) (State.fresh conflate) before s)
    (T : Traced U G h s past w.state calls) (S : Standing h past w.pc)
    (few : wrapCount before + past.countP SocketEvent.wraps < 2 ^ 32) (move : SocketMove U G h w e w') :
    ∃ calls', Traced U G h s (past ++ [e]) w'.state calls' := by
  cases move with
  | called => exact ⟨calls, T.still rfl rfl rfl⟩
  | @polled c p e fuel outcome v polling one =>
      rw [polling] at S
      rcases pollStep_mine S.2.1.mine one with ⟨ready, checks⟩ | ⟨same, -⟩
      · obtain ⟨passes, run, -⟩ := checks.answer
        exact ⟨_, T.call (.ready run) rfl rfl rfl⟩
      · refine ⟨calls, ?_⟩
        rw [same]
        exact T.still rfl rfl rfl
  | @again c n passes t alloc fuel due run code on =>
      have nothing := code_of_returned prior T few run code
      rw [if_neg (lt_irrefl 0)] at nothing
      refine ⟨_, T.call (.recv run) rfl ?_ rfl⟩
      rw [Event.receivedBy, if_pos rfl, recv_messages run, ← nothing]
      rfl
  | @returned c n passes t alloc fuel rc due run code off =>
      refine ⟨_, T.call (.recv run) rfl ?_ rfl⟩
      rw [Event.receivedBy, if_pos rfl, recv_messages run]
      exact congrArg Option.toList (code_of_returned prior T few run code)
  | @died c n passes t alloc fuel due run dies =>
      refine ⟨_, T.call (.recv run) rfl ?_ rfl⟩
      rw [Event.receivedBy, if_pos rfl, recv_messages run, returned_of_died dies]
      rfl
  | @elsewhere a t one other =>
      refine ⟨_, T.call one rfl ?_ rfl⟩
      rw [Event.receivedBy_other other]
      rfl

theorem wraps_before {more : List SocketEvent} {n : Nat}
    (few : n + (past ++ more).countP SocketEvent.wraps < 2 ^ 32) : n + past.countP SocketEvent.wraps < 2 ^ 32 := by
  rw [List.countP_append] at few
  omega

theorem traced_run (prior : Run (Step U G) (State.fresh conflate) before s)
    (run : Run (SocketStep U G h) ⟨s, .idle⟩ past w) (few : wrapCount before + past.countP SocketEvent.wraps < 2 ^ 32) :
    ∃ calls, Traced U G h s past w.state calls := by
  induction run with
  | nil => exact ⟨[], .nil, rfl, rfl, rfl⟩
  | snoc run one ih =>
      obtain ⟨calls, T⟩ := ih (wraps_before few)
      exact T.move prior (standing_run run) (wraps_before few) one.move

end traces

/-! Receives that hand over nothing. -/

/-- The poll slept for the whole timeout, and behind its last sleep it found the queue empty. -/
def TimedOut (c : Receive) (polled : List PollEvent) : Prop :=
  timeSlept polled = c.timeout.toNat * 1000000 ∧
    ∃ before request time after, polled = before ++ .slept request time true :: after ∧
      (∀ e ∈ after, e.isSleep = false) ∧ .checked 0 false ∈ after

/-- Why a receive may return no message: an allocation failed, or its last
`msgq_msg_recv` found none and it does not block or its time was up. -/
def NothingBecause (past : List SocketEvent) (passes : List Pass) : Prop :=
  (∃ p, passes.getLast? = some (.noMemory p)) ∨
    passes.getLast? = some .empty ∧ ∃ c, lastCall past = some c ∧
      (c.nonBlocking = true ∧ lastPoll past = [] ∨ 0 ≤ c.timeout ∧ TimedOut c (lastPoll past))

section nothing
variable {U : UidSource} {G : Segment} {conflate : Nat → Bool} {h : Nat} {before calls : List Event} {s t : State}
  {past : List SocketEvent} {w w' : SocketWorld} {e : SocketEvent} {c : Receive} {passes : List Pass}

theorem Accounted.single_num {q : Nat × Nat} {polled : List PollEvent} {p : Poll} (A : Accounted [q] polled p) :
    p.num ≤ 1 := by
  have length : p.polls.length = 1 := by
    rw [← List.length_map (f := PollItem.q), A.same]
    rfl
  rw [A.flags.count]
  refine List.countP_le_length.trans ?_
  rw [← length, Poll.known, Poll.polls]
  split_ifs
  · rw [List.length_append]
    exact Nat.le_add_right _ _
  · exact le_rfl

/-- A poll of one item that returned 0. -/
theorem timedOut_of_num {q : Nat × Nat} {polled : List PollEvent} {p : Poll} (A : Accounted [q] polled p)
    (B : Budget (pollMs c.t * 1000000) polled p) (blocks : c.timeout ≠ -1) (returned : p.pc = .returned)
    (none : p.num = 0) : TimedOut c polled := by
  obtain ⟨empty, rechecked⟩ := A.ended returned
  obtain ⟨early, request, time, after, split, awake, all⟩ := rechecked none
  refine ⟨?_, early, request, time, after, split, awake, ?_⟩
  · rw [B.spent (Or.inr ⟨returned, none⟩), pollMs, if_neg c.t_timed, Receive.t, if_pos blocks]
  · have rest : p.polls = p.rest := by rw [Poll.polls, empty, List.nil_append]
    have one : p.rest.map PollItem.q = [q] := rest ▸ A.same
    have known : p.known = p.rest := (Poll.known_later p (by simp [returned])).trans rest
    cases items : p.rest with
    | nil => simp [items] at one
    | cons x xs =>
        have clear : ¬ x.revents = true := by
          refine List.countP_eq_zero.mp (A.flags.count.symm.trans none) x ?_
          rw [known, items]
          exact List.mem_cons_self
        exact all 0 x (by simp [items]) (by simpa using clear)

theorem recvCode_zero (nothing : Msgq.returned passes = none) (code : recvCode passes = some 0) :
    passes.getLast? = some .empty := by
  unfold recvCode at code
  split at code
  · rename_i p m last
    rw [Msgq.returned, last] at nothing
    cases nothing
  · assumption
  · cases code
  · cases code

theorem recvCode_other {rc : Int} (nothing : Msgq.returned passes = none) (code : recvCode passes = some rc)
    (some_left : rc ≠ 0) : ∃ p, passes.getLast? = some (.noMemory p) := by
  unfold recvCode at code
  split at code
  · rename_i p m last
    rw [Msgq.returned, last] at nothing
    cases nothing
  · cases code
    exact absurd rfl some_left
  · exact ⟨_, by assumption⟩
  · cases code

theorem NothingBecause.of_move (prior : Run (Step U G) (State.fresh conflate) before s)
    (T : Traced U G h s past w.state calls) (S : Standing h past w.pc)
    (few : wrapCount before + past.countP SocketEvent.wraps < 2 ^ 32)
    (move : SocketMove U G h w (.returned passes none) w') : NothingBecause past passes := by
  generalize none_eq : (none : Option Bytes) = m at move
  cases move with
  | @returned c n passes t alloc fuel rc due run code off =>
      have nothing := (code_of_returned prior T few run code).symm.trans none_eq.symm
      by_cases zero : rc = 0
      swap
      · exact Or.inl (recvCode_other nothing code zero)
      subst zero
      refine Or.inr ⟨recvCode_zero nothing code, c, S.due due, ?_⟩
      generalize here : w.pc = pc at due
      cases due with
      | first =>
          have quiet : c.nonBlocking = true := by simpa [Receive.goesOn] using off
          rw [here] at S
          exact Or.inl ⟨quiet, S.2⟩
      | @polled _ p returned =>
          rw [here] at S
          obtain ⟨-, A, B⟩ := S
          have both : p.num ≠ 1 ∧ c.timeout ≠ -1 := by simpa [Receive.goesOn] using off
          have none : p.num = 0 := by
            have := A.single_num
            omega
          exact Or.inr ⟨c.sound.resolve_left both.2, timedOut_of_num A B both.2 returned none⟩

theorem OnePass.readerId {h' : Nat} (one : OnePass U h' s t) (registered : (s.handle h).readerId ≠ none) :
    (t.handle h).readerId ≠ none := by
  cases one with
  | register =>
      by_cases same : h = h'
      · rw [same, initSubscriber_readerId]
        exact Option.some_ne_none _
      · rw [initSubscriber_handle_ne s same]
        exact registered
  | stay | reset | move => exact registered

/-- No call takes a handle's reader id away. -/
theorem step_readerId {a : Event} (step : Step U G s a t) (registered : (s.handle h).readerId ≠ none) :
    (t.handle h).readerId ≠ none := by
  cases step with
  | initPublisher h' =>
      by_cases same : h = h'
      · subst same
        simpa [initPublisher] using registered
      · rw [initPublisher_handle_ne s same]
        exact registered
  | initSubscriber h' =>
      by_cases same : h = h'
      · rw [same, initSubscriber_readerId]
        exact Option.some_ne_none _
      · rw [initSubscriber_handle_ne s same]
        exact registered
  | sent | refused | aborted => exact registered
  | recv run => exact recv_keeps (I := fun u => (u.handle h).readerId ≠ none) OnePass.readerId registered run
  | ready run => exact ready_keeps (I := fun u => (u.handle h).readerId ≠ none) OnePass.readerId registered run

theorem run_readerId (run : Run (Step U G) s calls t) (registered : (s.handle h).readerId ≠ none) :
    (t.handle h).readerId ≠ none := by
  induction run with
  | nil => exact registered
  | snoc _ one ih => exact step_readerId one ih

theorem readerId_of_unregistered {size : Nat} {alloc : Bool}
    (none : (recvPass U size alloc h s).1 = .unregistered) : (s.handle h).readerId = Option.none := by
  unfold recvPass at none
  split at none
  · assumption
  · dsimp only at none
    split_ifs at none

/-- An assertion of a receive fails only for a handle that never registered. -/
theorem unregistered_of_died (prior : Run (Step U G) (State.fresh conflate) before s) (T : Traced U G h s past t calls)
    (few : wrapCount before + past.countP SocketEvent.wraps < 2 ^ 32) {alloc : Bool} {fuel : Nat} {u : State}
    (run : msgRecv U G.size alloc h fuel t = some (passes, u)) (dies : recvCode passes = none) :
    (s.handle h).readerId = none := by
  by_contra registered
  have few' : wrapCount (before ++ calls ++ [.recv h passes]) < 2 ^ 32 := by
    rw [wrapCount_append, wrapCount_append, T.wraps]
    exact few
  obtain ⟨-, sound, -⟩ := intactRun ((prior.append T.run).snoc (.recv run)) few'
  have clean : ∀ p, Pass.garbage p ∉ passes := (sound (.recv h passes) (by simp)).1
  obtain ⟨ws, v, rfl, -, stop, has_id⟩ := loop_ends (I := fun _ v => (v.handle h).readerId ≠ none)
    (fun _ v has_id _ => (recvPass_onePass v).readerId has_id) (run_readerId T.run registered) run
  rw [recvCode, List.getLast?_concat] at dies
  cases ends : (recvPass U G.size alloc h v).1 with
  | unregistered => exact has_id (readerId_of_unregistered ends)
  | garbage p => exact clean p (by simp [ends])
  | empty | noMemory | message => simp [ends] at dies
  | evicted | invalid | lapped | wrapped | skipped | torn => simp [ends, Pass.again] at stop

/-- What a subscriber's receives hand over, amid the calls of all others. Every
message that was taken from the queue is returned, so what they return is a
subsequence of what was sent; one that returns none has a reason; and no
assertion fails. -/
theorem receives_account (prior : Run (Step U G) (State.fresh conflate) before s)
    (run : Run (SocketStep U G h) ⟨s, .idle⟩ past w)
    (few : wrapCount before + past.countP SocketEvent.wraps < 2 ^ 32) :
    (∃ calls, Traced U G h s past w.state calls) ∧
      (receivedBy h before ++ returnedBy past).Sublist (sentOf before ++ sentTo past) ∧
      (∀ early passes late, past = early ++ .returned passes none :: late → NothingBecause early passes) ∧
      ∀ passes, .died passes ∈ past → (s.handle h).readerId = none := by
  obtain ⟨calls, T⟩ := traced_run prior run few
  -- where a step of the run begins
  have at_step : ∀ early e late, past = early ++ e :: late → ∃ v u calls,
      Traced U G h s early v.state calls ∧ Standing h early v.pc ∧
        wrapCount before + early.countP SocketEvent.wraps < 2 ^ 32 ∧ SocketMove U G h v e u := by
    rintro early e late rfl
    rw [List.append_cons] at run few
    obtain ⟨u, upto, -⟩ := run.split
    obtain ⟨v, first, one⟩ := upto.last
    have few' := wraps_before (wraps_before few)
    obtain ⟨calls, T⟩ := traced_run prior first few'
    exact ⟨v, u, calls, T, standing_run first, few', one.move⟩
  refine ⟨⟨calls, T⟩, ?_, ?_, ?_⟩
  · have few' : wrapCount (before ++ calls) < 2 ^ 32 := by
      rw [wrapCount_append, T.wraps]
      exact few
    obtain ⟨-, -, g, intact⟩ := intactRun (prior.append T.run) few'
    have order := (List.sublist_append_left _ _).trans (intact.order h)
    rwa [receivedBy_append, sentOf_append, T.received, T.sent] at order
  · intro early passes late split
    obtain ⟨v, u, calls, T', S, few', move⟩ := at_step early _ late split
    exact NothingBecause.of_move prior T' S few' move
  · intro passes mem
    obtain ⟨early, late, split⟩ := List.append_of_mem mem
    obtain ⟨v, u, calls, T', -, few', move⟩ := at_step early _ late split
    cases move with
    | died due returns dies => exact unregistered_of_died prior T' few' returns dies

end nothing

/-! Executing a socket. -/

inductive SocketAction
  | socket (c : Receive) (alloc : Bool) (outcome : SleepOutcome)
  | elsewhere (c : Call)

def socketAct (U : UidSource) (G : Segment) (h fuel : Nat) (w : SocketWorld) :
    SocketAction → Option (SocketEvent × SocketWorld)
  | .socket c alloc outcome => socketStep U G h c alloc fuel outcome w
  | .elsewhere c => (exec U G fuel w.state c).bind fun r =>
      if r.1.caller ≠ h then some (.elsewhere r.1 (disturbs w.state r.1), ⟨r.2, w.pc⟩) else none

theorem socketAct_step {U : UidSource} {G : Segment} {h fuel : Nat} {w w' : SocketWorld} {e : SocketEvent}
    {a : SocketAction} (act : socketAct U G h fuel w a = some (e, w')) : SocketStep U G h w e w' := by
  cases a with
  | socket c alloc outcome => exact .socket c alloc fuel outcome act
  | elsewhere c =>
      obtain ⟨⟨e', t⟩, one, same⟩ := Option.bind_eq_some_iff.mp act
      dsimp only at same
      split_ifs at same with other
      cases same
      exact .elsewhere (exec_step one) other

/-- The subscriber of the small endpoint at work. -/
def socketScript (start : SocketWorld) : List SocketAction → Option (List SocketEvent × SocketWorld) :=
  perform (socketAct countingUids tinySegment 1 4) (fun _ _ => True) start

theorem socketScript_shows (start : SocketWorld) (acts : List SocketAction) {p : List SocketEvent → SocketWorld → Prop}
    [∀ es w, Decidable (p es w)] (h : (socketScript start acts).any (fun r => p r.1 r.2) = true) : ∃ past w,
      Run (SocketStep countingUids tinySegment 1) start past w ∧ p past w := by
  obtain ⟨⟨past, w⟩, ends, shows⟩ := (Option.any_eq_true _ _).mp h
  have run := performed ends fun _ _ _ _ => socketAct_step
  exact ⟨past, w, run.mono fun _ _ _ step => step.1, of_decide_eq_true shows⟩

theorem attended_run : Run (Step countingUids tinySegment) blankState [.initPublisher 0, .initSubscriber 1 false]
    attendedState :=
  (Run.nil.snoc (.initPublisher blankState 0)).snoc (.initSubscriber _ 1)

def fiveMs : Receive := ⟨false, 5, Or.inr (by decide)⟩

/-- The socket goes on with memory and without signals. -/
def goesOn : SocketAction := .socket fiveMs true .finished

/-- One message is received; the next is reported by a poll but lost to a starting
publisher, and the poll behind it sleeps for the whole timeout, with a signal. -/
def retryingActions : List SocketAction :=
  [.elsewhere (.send 0 (byteMsg 1)), goesOn, goesOn] ++
    [goesOn, goesOn, goesOn, .elsewhere (.send 0 (byteMsg 2)), .socket fiveMs true (.interrupted (.ofMs 2)), goesOn] ++
    [.elsewhere (.initPublisher 2), goesOn, goesOn, .socket fiveMs true (.interrupted (.ofMs 1))] ++
    List.replicate 4 goesOn

theorem receives_account_retried : ∃ (past : List SocketEvent) (w : SocketWorld),
    returnedBy past = [[1]] ∧ sentTo past = [[1], [2]] ∧
    (∃ calls, Traced countingUids tinySegment 1 attendedState past w.state calls) ∧
      (receivedBy 1 [.initPublisher 0, .initSubscriber 1 false] ++ returnedBy past).Sublist
        (sentOf [.initPublisher 0, .initSubscriber 1 false] ++ sentTo past) ∧
      (∀ early passes late, past = early ++ .returned passes none :: late → NothingBecause early passes) ∧
      ∀ passes, .died passes ∈ past → (attendedState.handle 1).readerId = none := by
  obtain ⟨past, w, run, got, sent, few⟩ := socketScript_shows ⟨attendedState, .idle⟩ retryingActions
    (p := fun past _ => returnedBy past = [[1]] ∧ sentTo past = [[1], [2]] ∧
      wrapCount [.initPublisher 0, .initSubscriber 1 false] + past.countP SocketEvent.wraps < 2 ^ 32) (by decide +kernel)
  exact ⟨past, w, got, sent, receives_account attended_run run few⟩

end Msgq
