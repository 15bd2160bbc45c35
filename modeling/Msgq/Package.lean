import Msgq.Crash
import Msgq.Blocking
import Msgq.Fake

/-! What a program sees of the queue through the package: which publisher's sends
go through and what the others are told, and what a drain of a socket hands over. -/
namespace Msgq
open ByteMemory FramedRecords Traces

/-! Sending. -/

inductive PyError
  | ipcError (message : String)
  | multiplePublishersError (message : String)
  deriving DecidableEq

def EADDRINUSE : Nat := 98

/-- `strerror` gives the text for a number. -/
def checkError (strerror : Nat → String) (failed : Bool) (error : Nat) (endpoint : String) : Except PyError Unit :=
  if !failed then .ok ()
  else
    let message := "Messaging failure " ++ (if endpoint.isEmpty then "" else "with " ++ endpoint) ++ ": " ++ strerror error
    if error = EADDRINUSE then .error (.multiplePublishersError message) else .error (.ipcError message)

/-- `PubSocket.send` of the package, with `errno` as an earlier call left it; none
where the size assertion fails. -/
def pubSend (strerror : Nat → String) (errno : Nat) (G : Segment) (s : State) (h : Nat) (data : Bytes) :
    Option (Except PyError Unit × State) :=
  match msgSend G.size s.q (s.handle h) data with
  | .refused => some (checkError strerror (decide ((-1 : Int) ≠ toInt data.length)) EADDRINUSE "", s)
  | .aborted => none
  | .sent q result _ => some (checkError strerror (decide (result ≠ toInt data.length)) errno "", s.setQueue q)

def AnyEvent.publisher (last : Option Nat) : AnyEvent → Option Nat
  | .call (.initPublisher h) => some h
  | _ => last

/-- The handle that called `msgq_init_publisher` last. -/
def lastPublisher (past : List AnyEvent) : Option Nat := past.foldl AnyEvent.publisher none

section sends
variable {U : UidSource} {G : Segment} {conflate : Nat → Bool} {past : List AnyEvent} {s t : State} {h : Nat}

theorem initPublisher_isPublisher (R : Registry U s) (h h' : Nat) :
    isPublisher (initPublisher U s h).q ((initPublisher U s h).handle h') = decide (h' = h) := by
  by_cases same : h' = h
  · subst same
    simp [isPublisher, initPublisher]
  · rw [initPublisher_handle_ne s same, decide_eq_false same]
    refine beq_eq_false_iff_ne.mpr fun mine => ?_
    obtain ⟨j, before, drawn⟩ := R.writers h' _ mine
    exact absurd (U.distinct drawn) (Nat.ne_of_gt before)

theorem anyStep_isPublisher {e : AnyEvent} (step : AnyStep U G s e t) (other : ∀ h, e ≠ .call (.initPublisher h))
    (h : Nat) : isPublisher t.q (t.handle h) = isPublisher s.q (s.handle h) := by
  cases step with
  | call one => exact step_isPublisher one (fun h' same => other h' (congrArg AnyEvent.call same)) h
  | sentEmpty accepted =>
      obtain ⟨-, -, rfl, -⟩ := msgSend_accepted accepted
      rw [isPublisher, isPublisher]
      exact congrArg _ (congrArg some (sameRegistry_sendQueue G.size s _).writeUid)

/-- The active publisher is the one that started last. -/
theorem publisher_iff_last (run : Run (AnyStep U G) (State.fresh conflate) past s) (h : Nat) :
    Registry U s ∧ (isPublisher s.q (s.handle h) = true ↔ lastPublisher past = some h) := by
  refine run.invariant (I := fun past s => Registry U s ∧
    (isPublisher s.q (s.handle h) = true ↔ lastPublisher past = some h)) ?_ ?_
  · exact ⟨registry_fresh U conflate, by simp [isPublisher, State.fresh, lastPublisher]⟩
  · rintro past s e t - ⟨R, same⟩ step
    refine ⟨R.anyStep step, ?_⟩
    rw [lastPublisher, List.foldl_append]
    by_cases starts : ∃ h', e = .call (.initPublisher h')
    · obtain ⟨h', rfl⟩ := starts
      cases step with
      | call one =>
          cases one with
          | initPublisher =>
              rw [initPublisher_isPublisher R]
              simp [AnyEvent.publisher, eq_comm]
    · have kept : AnyEvent.publisher (lastPublisher past) e = lastPublisher past := by
        cases e with
        | call a =>
            cases a with
            | initPublisher h' => exact absurd ⟨h', rfl⟩ starts
            | _ => rfl
        | sentEmpty => rfl
      rw [anyStep_isPublisher step fun h' same => starts ⟨h', same⟩, same]
      change _ ↔ AnyEvent.publisher (lastPublisher past) e = some h
      rw [kept]

theorem toInt_eq_neg_one (n : Nat) : toInt n = -1 ↔ n % 2 ^ 32 = 2 ^ 32 - 1 := by
  rw [toInt]
  by_cases small : n % 2 ^ 32 < 2 ^ 31
  · rw [if_pos small]
    omega
  · rw [if_neg small]
    omega

/-- Who may send: the publisher that started last stores every message that the
size assertion lets through and is told of no error; any other handle changes
nothing and is told of another publisher, unless its data are one byte short of a
multiple of 4 GiB, where the -1 of the refusal passes for their size. -/
theorem only_last_publisher_sends (run : Run (AnyStep U G) (State.fresh conflate) past s) (h : Nat) (data : Bytes)
    (strerror : Nat → String) (errno : Nat) :
    pubSend strerror errno G s h data =
      if lastPublisher past = some h then
        if admits G.size data.length then some (.ok (), s.setQueue (Store.applyAll s.q (sendStores G.size s.q data)))
        else none
      else if data.length % 2 ^ 32 = 2 ^ 32 - 1 then some (.ok (), s)
      else some (.error (.multiplePublishersError ("Messaging failure : " ++ strerror EADDRINUSE)), s) := by
  obtain ⟨-, publishes⟩ := publisher_iff_last run h
  rw [pubSend, msgSend]
  by_cases active : isPublisher s.q (s.handle h) = true
  · rw [if_pos (publishes.mp active), active]
    by_cases admitted : admits G.size data.length = true
    · simp [admitted, checkError]
    · simp [admitted]
  · rw [if_neg (mt publishes.mpr active), Bool.not_eq_true _ |>.mp active]
    by_cases passes : toInt data.length = -1
    · rw [if_pos ((toInt_eq_neg_one _).mp passes)]
      simp [passes, checkError]
    · have other : ¬ data.length % 2 ^ 32 = 2 ^ 32 - 1 := mt (toInt_eq_neg_one _).mpr passes
      rw [if_neg other]
      simp [checkError, Ne.symm passes, EADDRINUSE]

end sends

/-- The second publisher is heard, the first is told of it. -/
theorem only_last_publisher_sends_taken_over : ∃ past s,
    Run (AnyStep countingUids tinySegment) blankState past s ∧ lastPublisher past = some 2 ∧
    pubSend (fun _ => "in use") 0 tinySegment s 0 [1] =
      (if lastPublisher past = some 0 then
        if admits tinySegment.size [(1 : UInt8)].length then
          some (.ok (), s.setQueue (Store.applyAll s.q (sendStores tinySegment.size s.q [1])))
        else none
      else if [(1 : UInt8)].length % 2 ^ 32 = 2 ^ 32 - 1 then some (.ok (), s)
      else some (.error (.multiplePublishersError ("Messaging failure : " ++ "in use")), s)) := by
  have first : Run (AnyStep countingUids tinySegment) blankState _ _ := Run.nil.snoc (.call (.initPublisher blankState 0))
  have second := first.snoc (.call (.initPublisher _ 2))
  exact ⟨_, _, second, rfl, only_last_publisher_sends second 0 [1] (fun _ => "in use") 0⟩

/-! Draining. -/

/-- A `drain_sock_raw` under way: its argument and what it has so far. -/
structure DrainCall where
  waitForOne : Bool
  ret : List Bytes
  deriving DecidableEq

/-- The receive it makes next. -/
def DrainCall.receive (d : DrainCall) (timeout : Int) (sound : timeout = -1 ∨ 0 ≤ timeout) : Receive :=
  ⟨!(d.waitForOne && d.ret.isEmpty), timeout, sound⟩

structure DrainWorld where
  socket : SocketWorld
  drain : Option DrainCall

inductive DrainEvent
  | began (waitForOne : Bool)
  | socket (d : DrainCall) (e : SocketEvent)
  | elsewhere (e : Event) (disturbing : Bool)
  deriving DecidableEq

/-- The drain behind a step of its receive; none when it returns. -/
def DrainCall.next (d : DrainCall) : SocketEvent → Option DrainCall
  | .returned _ (some m) => some { d with ret := d.ret ++ [m] }
  | .returned _ none => none
  | _ => some d

/-- The timeout of the socket was set before. -/
inductive DrainStep (U : UidSource) (G : Segment) (h : Nat) (timeout : Int) (sound : timeout = -1 ∨ 0 ≤ timeout) :
    DrainWorld → DrainEvent → DrainWorld → Prop
  | begin {w} (waitForOne) : w.drain = none →
      DrainStep U G h timeout sound w (.began waitForOne) ⟨w.socket, some ⟨waitForOne, []⟩⟩
  | socket {w d e v} (alloc fuel outcome) : w.drain = some d →
      socketStep U G h (d.receive timeout sound) alloc fuel outcome w.socket = some (e, v) →
      DrainStep U G h timeout sound w (.socket d e) ⟨v, d.next e⟩
  | elsewhere {w e t} : Step U G w.socket.state e t → e.caller ≠ h →
      DrainStep U G h timeout sound w (.elsewhere e (disturbs w.socket.state e)) ⟨⟨t, w.socket.pc⟩, w.drain⟩

def DrainEvent.socket? : DrainEvent → Option SocketEvent
  | .began _ => none
  | .socket _ e => some e
  | .elsewhere e disturbing => some (.elsewhere e disturbing)

/-- What the socket under the drains went through. -/
def socketPast (past : List DrainEvent) : List SocketEvent := past.filterMap DrainEvent.socket?

def DrainEvent.drained? : DrainEvent → Option (List Bytes)
  | .socket d (.returned _ none) => some d.ret
  | _ => none

/-- The lists that the drains returned. -/
def drainedBy (past : List DrainEvent) : List (List Bytes) := past.filterMap DrainEvent.drained?

def DrainWorld.ret (w : DrainWorld) : List Bytes := (w.drain.map DrainCall.ret).getD []

/-- The receive of a drain is the one it makes next, and every message that its
receives returned is in its list, or in that of a drain before. -/
structure DrainRun (U : UidSource) (G : Segment) (h : Nat) (timeout : Int) (sound : timeout = -1 ∨ 0 ≤ timeout)
    (s : State) (past : List DrainEvent) (w : DrainWorld) : Prop where
  run : Run (SocketStep U G h) ⟨s, .idle⟩ (socketPast past) w.socket
  call : w.socket.pc = .idle ∨ w.socket.pc = .died ∨
    ∃ d, w.drain = some d ∧ lastCall (socketPast past) = some (d.receive timeout sound)
  lists : returnedBy (socketPast past) = (drainedBy past).flatten ++ w.ret

section drains
variable {U : UidSource} {G : Segment} {conflate : Nat → Bool} {h : Nat} {timeout : Int}
  {sound : timeout = -1 ∨ 0 ≤ timeout} {before : List Event} {s : State} {past : List DrainEvent} {w w' : DrainWorld}
  {e : DrainEvent}

@[simp] theorem socketPast_append (past : List DrainEvent) (e : DrainEvent) :
    socketPast (past ++ [e]) = socketPast past ++ e.socket?.toList := by
  cases h : e.socket? <;> simp [socketPast, h]

@[simp] theorem drainedBy_append (past : List DrainEvent) (e : DrainEvent) :
    drainedBy (past ++ [e]) = drainedBy past ++ e.drained?.toList := by
  cases h : e.drained? <;> simp [drainedBy, h]

/-- The list of a drain grows by what its receive returned, until it is returned itself. -/
theorem DrainCall.next_ret (d : DrainCall) (e : SocketEvent) :
    (DrainEvent.socket d e).drained?.toList.flatten ++ ((d.next e).map DrainCall.ret).getD [] =
      d.ret ++ e.returned?.toList := by
  cases e with
  | returned passes m =>
      cases m with
      | none => simp [DrainEvent.drained?, DrainCall.next, SocketEvent.returned?]
      | some m => simp [DrainEvent.drained?, DrainCall.next, SocketEvent.returned?]
  | _ => simp [DrainEvent.drained?, DrainCall.next, SocketEvent.returned?]

/-- What follows a `msgq_msg_recv` ends the receive, or leaves the drain waiting for it. -/
theorem receiveThen_next (d : DrainCall) (events : List SocketEvent) (c : Receive) (n : Option Nat)
    (r : List Pass × State) :
    (receiveThen h c n r).2.pc = .idle ∨ (receiveThen h c n r).2.pc = .died ∨
      d.next (receiveThen h c n r).1 = some d ∧ lastCall (events ++ [(receiveThen h c n r).1]) = lastCall events := by
  unfold receiveThen
  split
  · exact Or.inr (Or.inl rfl)
  · split_ifs
    · exact Or.inr (Or.inr ⟨rfl, lastCall_append _ _⟩)
    · exact Or.inl rfl
    · exact Or.inl rfl

/-- Behind a step of its receive a drain waits for that receive, or for none. -/
theorem DrainCall.next_call {d : DrainCall} {a : SocketEvent} {v v' : SocketWorld} {alloc : Bool} {fuel : Nat}
    {outcome : SleepOutcome} (one : socketStep U G h (d.receive timeout sound) alloc fuel outcome v = some (a, v'))
    (events : List SocketEvent)
    (same : v.pc = .idle ∨ v.pc = .died ∨ lastCall events = some (d.receive timeout sound)) :
    v'.pc = .idle ∨ v'.pc = .died ∨ d.next a = some d ∧ lastCall (events ++ [a]) = some (d.receive timeout sound) := by
  unfold socketStep at one
  split at one
  · cases one
    exact Or.inr (Or.inr ⟨rfl, lastCall_append _ _⟩)
  · rename_i c first
    have last := (same.resolve_left (by simp [first])).resolve_left (by simp [first])
    obtain ⟨r, -, ends⟩ := Option.map_eq_some_iff.mp one
    have next := receiveThen_next (h := h) d events c none r
    rwa [ends, last] at next
  · rename_i c p polling
    have last := (same.resolve_left (by simp [polling])).resolve_left (by simp [polling])
    split_ifs at one
    · obtain ⟨r, -, ends⟩ := Option.map_eq_some_iff.mp one
      have next := receiveThen_next (h := h) d events c (some p.num) r
      rwa [ends, last] at next
    · obtain ⟨r, -, ends⟩ := Option.map_eq_some_iff.mp one
      cases ends
      exact Or.inr (Or.inr ⟨rfl, (lastCall_append _ _).trans last⟩)
  · cases one

theorem DrainRun.step (D : DrainRun U G h timeout sound s past w) (step : DrainStep U G h timeout sound w e w') :
    DrainRun U G h timeout sound s (past ++ [e]) w' := by
  obtain ⟨run, call, lists⟩ := D
  cases step with
  | begin waitForOne idle =>
      refine ⟨by simpa [DrainEvent.socket?] using run, ?_, ?_⟩
      · rcases call with here | dead | ⟨d, under, -⟩
        · exact Or.inl here
        · exact Or.inr (Or.inl dead)
        · rw [idle] at under
          cases under
      · simpa [DrainEvent.socket?, DrainEvent.drained?, DrainWorld.ret, idle] using lists
  | @socket d a v alloc fuel outcome under one =>
      have step : SocketStep U G h w.socket a v := .socket _ _ _ _ one
      refine ⟨?_, ?_, ?_⟩
      · rw [socketPast_append]
        exact run.snoc step
      · rw [socketPast_append]
        have same : w.socket.pc = .idle ∨ w.socket.pc = .died ∨
            lastCall (socketPast past) = some (d.receive timeout sound) := by
          refine call.imp_right (Or.imp_right ?_)
          rintro ⟨d', under', last⟩
          rw [under] at under'
          cases under'
          exact last
        exact (DrainCall.next_call one _ same).imp_right (Or.imp_right fun k => ⟨d, k⟩)
      · have grows := d.next_ret a
        have single : returnedBy [a] = a.returned?.toList := by cases got : a.returned? <;> simp [returnedBy, got]
        rw [socketPast_append, drainedBy_append, DrainEvent.socket?, Option.toList_some, returnedBy_append, lists,
          single, DrainWorld.ret, under, List.append_assoc, Option.map_some, Option.getD_some, ← grows,
          List.flatten_append, List.append_assoc]
        rfl
  | @elsewhere a t one other =>
      refine ⟨?_, ?_, ?_⟩
      · rw [socketPast_append]
        exact run.snoc (.elsewhere one other)
      · rw [socketPast_append, DrainEvent.socket?, Option.toList_some, lastCall_append]
        exact call
      · rw [socketPast_append, drainedBy_append, DrainEvent.socket?, Option.toList_some, returnedBy_append, lists]
        simp [DrainEvent.drained?, DrainWorld.ret, returnedBy, SocketEvent.returned?]

/-- A receive returns only where it is under way. -/
theorem returned_due {v v' : SocketWorld} {passes : List Pass} {m : Option Bytes}
    (move : SocketMove U G h v (.returned passes m) v') : v.pc ≠ .idle ∧ v.pc ≠ .died := by
  cases move with
  | returned due =>
      generalize v.pc = pc at due
      cases due <;> simp

theorem drainRun (run : Run (DrainStep U G h timeout sound) ⟨⟨s, .idle⟩, none⟩ past w) :
    DrainRun U G h timeout sound s past w := by
  induction run with
  | nil => exact ⟨.nil, Or.inl rfl, rfl⟩
  | snoc _ one ih => exact ih.step one

/-- What the drains of a socket return, amid the calls of all others: every message
that was taken from the queue, in one list and in the order it was sent; a drain
ends where an allocation failed or where nothing was there, and one that waits for
a message returns an empty list only behind a whole timeout. -/
theorem drains_account (prior : Run (Step U G) (State.fresh conflate) before s)
    (run : Run (DrainStep U G h timeout sound) ⟨⟨s, .idle⟩, none⟩ past w)
    (few : wrapCount before + (socketPast past).countP SocketEvent.wraps < 2 ^ 32) :
    (∃ calls, Run (Step U G) s calls w.socket.state ∧ receivedBy h calls = (drainedBy past).flatten ++ w.ret ∧
        (receivedBy h calls).Sublist (sentOf before ++ sentTo (socketPast past))) ∧
      ∀ early d passes late, past = early ++ .socket d (.returned passes none) :: late →
        (∃ p, passes.getLast? = some (.noMemory p)) ∨ passes.getLast? = some .empty ∧
          (d.waitForOne = true → d.ret = [] →
            0 ≤ timeout ∧ TimedOut (d.receive timeout sound) (lastPoll (socketPast early))) := by
  constructor
  · have D := drainRun run
    obtain ⟨calls, T⟩ := traced_run prior D.run few
    refine ⟨calls, T.run, T.received.trans D.lists, ?_⟩
    have few' : wrapCount (before ++ calls) < 2 ^ 32 := by
      rw [wrapCount_append, T.wraps]
      exact few
    obtain ⟨-, -, g, intact⟩ := intactRun (prior.append T.run) few'
    have order := (List.sublist_append_left _ _).trans (intact.order h)
    rw [receivedBy_append, sentOf_append, T.sent] at order
    exact (List.sublist_append_right _ _).trans order
  · rintro early d passes late rfl
    rw [List.append_cons] at run few
    obtain ⟨u, upto, -⟩ := run.split
    obtain ⟨v, first, one⟩ := upto.last
    have few' : wrapCount before + (socketPast early).countP SocketEvent.wraps < 2 ^ 32 := by
      simp only [socketPast, List.filterMap_append, List.countP_append] at few ⊢
      omega
    have D := drainRun first
    obtain ⟨calls, T⟩ := traced_run prior D.run few'
    cases one with
    | socket alloc fuel outcome under one =>
        have move := (SocketStep.socket _ alloc fuel outcome one).move (G := G)
        refine (NothingBecause.of_move prior T (standing_run D.run) few' move).imp_right (And.imp_right ?_)
        rintro ⟨c, last, reason⟩ waits none
        obtain rfl : d.receive timeout sound = c := by
          obtain ⟨d', under', call⟩ := (D.call.resolve_left (returned_due move).1).resolve_left (returned_due move).2
          rw [under] at under'
          cases under'
          exact Option.some.inj (call.symm.trans last)
        rcases reason with ⟨quiet, -⟩ | timed
        · simp [DrainCall.receive, waits, none] at quiet
        · exact timed

end drains

/-! Executing drains. -/

inductive DrainAction
  | begin (waitForOne : Bool)
  | socket
  | elsewhere (c : Call)

def drainAct (U : UidSource) (G : Segment) (h fuel : Nat) (timeout : Int) (sound : timeout = -1 ∨ 0 ≤ timeout)
    (w : DrainWorld) : DrainAction → Option (DrainEvent × DrainWorld)
  | .begin waitForOne => if w.drain = none then some (.began waitForOne, ⟨w.socket, some ⟨waitForOne, []⟩⟩) else none
  | .socket => w.drain.bind fun d =>
      (socketStep U G h (d.receive timeout sound) true fuel .finished w.socket).map fun r => (.socket d r.1, ⟨r.2, d.next r.1⟩)
  | .elsewhere c => (exec U G fuel w.socket.state c).bind fun r =>
      if r.1.caller ≠ h then
        some (.elsewhere r.1 (disturbs w.socket.state r.1), ⟨⟨r.2, w.socket.pc⟩, w.drain⟩)
      else none

theorem drainAct_step {U : UidSource} {G : Segment} {h fuel : Nat} {timeout : Int} {sound : timeout = -1 ∨ 0 ≤ timeout}
    {w w' : DrainWorld} {e : DrainEvent} {a : DrainAction} (act : drainAct U G h fuel timeout sound w a = some (e, w')) :
    DrainStep U G h timeout sound w e w' := by
  cases a with
  | begin waitForOne =>
      rw [drainAct] at act
      split_ifs at act with idle
      cases act
      exact .begin waitForOne idle
  | socket =>
      obtain ⟨d, under, act⟩ := Option.bind_eq_some_iff.mp act
      obtain ⟨⟨e, v⟩, one, same⟩ := Option.map_eq_some_iff.mp act
      cases same
      exact .socket true fuel .finished under one
  | elsewhere c =>
      obtain ⟨⟨e, t⟩, one, same⟩ := Option.bind_eq_some_iff.mp act
      dsimp only at same
      split_ifs at same with other
      cases same
      exact .elsewhere (exec_step one) other

/-- A drain waits for a message, takes it and the one sent meanwhile; the next one
waits for its whole timeout. -/
def drainActions : List DrainAction :=
  [.begin true, .socket, .socket, .socket, .elsewhere (.send 0 (byteMsg 1)), .socket, .socket, .socket, .socket,
    .elsewhere (.send 0 (byteMsg 2))] ++ List.replicate 3 .socket ++ [.begin true] ++ List.replicate 6 .socket

theorem drains_account_waited : ∃ (past : List DrainEvent) (w : DrainWorld), drainedBy past = [[[1], [2]], []] ∧
    (∃ calls, Run (Step countingUids tinySegment) attendedState calls w.socket.state ∧
        receivedBy 1 calls = (drainedBy past).flatten ++ w.ret ∧
        (receivedBy 1 calls).Sublist (sentOf [.initPublisher 0, .initSubscriber 1 false] ++ sentTo (socketPast past))) ∧
      ∀ early d passes late, past = early ++ .socket d (.returned passes none) :: late →
        (∃ p, passes.getLast? = some (.noMemory p)) ∨ passes.getLast? = some .empty ∧
          (d.waitForOne = true → d.ret = [] →
            (0 : Int) ≤ 5 ∧ TimedOut (d.receive 5 fiveMs.sound) (lastPoll (socketPast early))) := by
  have shows : ((perform (drainAct countingUids tinySegment 1 4 5 fiveMs.sound) (fun _ _ => True)
      ⟨⟨attendedState, .idle⟩, none⟩ drainActions).any fun r => drainedBy r.1 = [[[1], [2]], []] ∧
        wrapCount [.initPublisher 0, .initSubscriber 1 false] + (socketPast r.1).countP SocketEvent.wraps < 2 ^ 32) =
      true := by decide +kernel
  obtain ⟨⟨past, w⟩, ends, both⟩ := (Option.any_eq_true _ _).mp shows
  obtain ⟨got, few⟩ := of_decide_eq_true both
  have run := performed ends fun _ _ _ _ => drainAct_step
  exact ⟨past, w, got, drains_account attended_run (run.mono fun _ _ _ step => step.1) few⟩

/-! A drain that nobody disturbs. -/

section undisturbed
variable {L : Laps} {U : UidSource} {G : Segment} {conflate : Nat → Bool} {size h id : Nat} {lap : List Bytes} {b : Spec}
  {past : List Event} {s : State}

/-- Receive after receive returns what the log has unread, oldest first. -/
theorem Followed.drains (hsize : size < 0xFFFFFFFF) (F : Followed L (· = h) U size s lap (s.q.writeOffset + 1) b)
    (own : Owns s h id) (valid : s.q.readValids id = true) (plain : (s.handle h).readConflate = false)
    (started : lap = [] → ∀ e, ¬ L.closed e) : ∃ t, Drain U size h s (Broadcast.unread b h) t := by
  generalize ahead : Broadcast.unread b h = ms
  induction ms generalizing s b with
  | nil =>
      obtain ⟨at_end, -⟩ := F.tracked.caught_up rfl own valid started ahead
      exact ⟨s, .nothing (loop_done 0 (recvPass_empty own valid at_end) rfl) rfl⟩
  | cons m rest ih =>
      obtain ⟨fuel, ws, k, u, run, marks, oldest⟩ := F.tracked.reads true hsize rfl own valid F.unread_nonempty
        fun conflates => by simp [plain] at conflates
      rw [ahead] at oldest
      obtain ⟨p, rfl⟩ := oldest
      obtain ⟨quiet, F'⟩ := F.recv hsize run
      have off : u.q.writeOffset = s.q.writeOffset := by
        rw [Queue.writeOffset, Queue.writeOffset, quiet.writePointer]
      have taken : Broadcast.unread ((ws ++ [Pass.message p m]).foldl (Spec.pass h) b) h = rest := by
        rw [List.foldl_append, Spec.passes_wrapped h b marks]
        change Broadcast.unread (Broadcast.advance b h) h = rest
        rw [Broadcast.unread_advance, Function.update_self, ahead, List.tail_cons]
      obtain ⟨own', valid'⟩ := recv_keeps (I := fun u => Owns u h id ∧ u.q.readValids id = true) OnePass.owner
        ⟨own, valid⟩ run
      obtain ⟨t, drain⟩ := ih (off ▸ F') own' valid' ((quiet.readConflate h).trans plain) taken
      exact ⟨t, .more run (by simp [returned, Pass.message?]) drain⟩

/-- A drain without waiting, with no other call in between, returns exactly what was
sent behind the last message its subscriber received, or since it registered or was
reset, and ends; a subscriber that lost its slot or its flag starts again with
nothing. -/
theorem drain_returns_unread (run : Run (Where U G (NeverMet G h)) (State.fresh conflate) past s)
    (plain : conflate h = false) (registered : (s.handle h).readerId = some id) : ∃ t,
    Drain U G.size h s (if Owns s h id ∧ s.q.readValids id = true then Broadcast.unread (spec past) h else []) t := by
  have same : (s.handle h).readConflate = false := (run_conflate (run_of_where run) h).trans plain
  split_ifs with live
  · exact (followed_of_neverMet run).drains G.small live.1 live.2 same (sentLaps_started past)
  · have restarts : ∀ id', Owns s h id' → s.q.readValids id' = false := by
      intro id' own
      obtain rfl : id = id' := Option.some.inj (registered.symm.trans own.1)
      simpa [own] using live
    obtain ⟨t, drain, -⟩ := agree_restarts U G.size registered restarts
    have self : s.conflating h false = s := by
      rw [← same]
      exact conflating_self s h
    rw [self] at drain
    exact ⟨_, drain⟩

end undisturbed

/-- A message behind a wrap tag. -/
theorem drain_returns_unread_wrapped : ∃ past s,
    Run (Where countingUids tinySegment (NeverMet tinySegment 1)) blankState past s ∧ ∃ t,
    Drain countingUids tinySegment.size 1 s [[3]] t := by
  obtain ⟨past, s, -, run, wraps, own, unread⟩ := script_shows (NeverMet tinySegment 1) blankState
    [.initPublisher 0, .initSubscriber 1, .send 0 (byteMsg 1), .recv 1 true, .send 0 (byteMsg 2), .recv 1 true,
      .send 0 (byteMsg 3)]
    (p := fun past s => 0 < wrapCount past ∧ (Owns s 1 0 ∧ s.q.readValids 0 = true) ∧
      Broadcast.unread (spec past) 1 = [[3]]) (by decide +kernel)
  have drains := drain_returns_unread run rfl own.1.1
  rw [if_pos own, unread] at drains
  exact ⟨past, s, run, drains⟩

end Msgq
