import Mathlib.Algebra.Group.Nat.Defs
import Mathlib.Data.List.Count
import Mathlib.Logic.Function.Basic
import Msgq.Traces
import Msgq.Words

/-! Events over FIFOs. A call is a loop around one system call, which a signal may
interrupt; any number of threads call events that share their FIFOs. -/
namespace Msgq
open Traces

def EINTR : Nat := 4
def EAGAIN : Nat := 11

inductive EventError
  | invalid
  | timedOut
  | nothingReady
  | writeFailed (errno : Nat)
  | readFailed (errno : Nat)
  | pollFailed (errno : Nat)
  deriving DecidableEq

inductive EventResult
  | done
  | cleared (total : Nat)
  | peeked (ready : Bool)
  | one (i : Nat)
  | raised (e : EventError)
  deriving DecidableEq

/-- A call with the descriptors of its events; timeouts are in seconds. -/
inductive EventCall
  | set (fd : Int)
  | clear (fd : Int)
  | wait (fd : Int) (timeout : Int)
  | peek (fd : Int)
  | waitForOne (fds : List Int) (timeout : Int)
  deriving DecidableEq

/-- Where a call stands: before a `write`, a `read` or a `poll`, or in a `poll` that it
entered at `entry` with a timeout of `ms`. -/
inductive EventPc
  | idle
  | writing (fd : Nat)
  | reading (fd total : Nat)
  | polling (c : EventCall) (start : Nat)
  | asleep (c : EventCall) (start entry : Nat) (ms : Int)
  deriving DecidableEq

/-- The bytes in each FIFO, the steady clock in nanoseconds, and the threads. -/
structure EventWorld where
  pending : Nat → Nat
  now : Nat
  pc : Nat → EventPc

inductive EventInput
  | call (c : EventCall)
  | go
  | failed (errno : Nat)
  deriving DecidableEq

/-- `wrote` ends a `set`, with or without a byte added; `elapsed` is the time since the
poll began. -/
inductive EventLabel
  | called (t : Nat) (c : EventCall)
  | again (t : Nat)
  | wrote (t fd : Nat) (added : Bool)
  | took (t fd n : Nat)
  | returned (t : Nat) (c : EventCall) (elapsed : Nat) (r : EventResult)
  | ticked (d : Nat)
  deriving DecidableEq

namespace EventCall

/-- The `pollfd`s of a call. -/
def fds : EventCall → List Int
  | .set _ | .clear _ => []
  | .wait fd _ | .peek fd => [fd]
  | .waitForOne fds _ => fds

def timeout : EventCall → Int
  | .set _ | .clear _ | .peek _ => 0
  | .wait _ timeout | .waitForOne _ timeout => timeout

/-- None where the event has no descriptor. -/
def begin (now : Nat) : EventCall → Option EventPc
  | .set fd => if 0 ≤ fd then some (.writing fd.toNat) else none
  | .clear fd => if 0 ≤ fd then some (.reading fd.toNat 0) else none
  | .wait fd timeout => if 0 ≤ fd then some (.polling (.wait fd timeout) now) else none
  | .peek fd => if 0 ≤ fd then some (.polling (.peek fd) now) else none
  | .waitForOne fds timeout => some (.polling (.waitForOne fds timeout) now)

end EventCall

/-- `POLLIN`; a negative descriptor is not looked at. -/
def readyAt (pending : Nat → Nat) (fd : Int) : Bool := decide (0 ≤ fd) && decide (0 < pending fd.toNat)

namespace EventCall

/-- What a poll that found something ready comes to. -/
def answer (pending : Nat → Nat) : EventCall → EventResult
  | .set _ | .clear _ | .wait _ _ => .done
  | .peek _ => .peeked true
  | .waitForOne fds _ =>
      match fds.findIdx? (readyAt pending) with
      | some i => .one i
      | none => .raised .nothingReady

/-- What a poll that returned 0 comes to. -/
def expired : EventCall → EventResult
  | .peek _ => .peeked false
  | .set _ | .clear _ | .wait _ _ | .waitForOne _ _ => .raised .timedOut

end EventCall

/-- The timeout of the next `poll` in `poll_events`, in milliseconds. -/
def pollTimeoutMs (timeout : Int) (start now : Nat) : Int :=
  if 0 ≤ timeout then
    let remaining := (start + timeout * 1000000000 - now).tdiv 1000000
    if 0 < remaining then toInt remaining.toNat else 0
  else -1

namespace EventWorld

def put (w : EventWorld) (t : Nat) (pc : EventPc) : EventWorld := { w with pc := Function.update w.pc t pc }

def fill (w : EventWorld) (fd n : Nat) : EventWorld := { w with pending := Function.update w.pending fd n }

/-- Behind a system call that failed: a signal makes no difference. -/
def fail (w : EventWorld) (t : Nat) (c : EventCall) (pc : EventPc) (elapsed errno : Nat) (e : EventError) :
    EventLabel × EventWorld :=
  if errno = EINTR then (.again t, w.put t pc) else (.returned t c elapsed (.raised e), w.put t .idle)

/-- The next step of a thread; none where its poll has nothing to return with. -/
def step (capacity : Nat) (w : EventWorld) (t : Nat) (input : EventInput) : Option (EventLabel × EventWorld) :=
  match w.pc t, input with
  | .idle, .call c =>
      match c.begin w.now with
      | some pc => some (.called t c, w.put t pc)
      | none => some (.returned t c 0 (.raised .invalid), w)
  -- a full FIFO is as good as one more byte
  | .writing fd, .go =>
      if w.pending fd < capacity then some (.wrote t fd true, (w.fill fd (w.pending fd + 1)).put t .idle)
      else some (.wrote t fd false, w.put t .idle)
  | .writing fd, .failed errno => some (w.fail t (.set fd) (.writing fd) 0 errno (.writeFailed errno))
  | .reading fd total, .go =>
      if w.pending fd = 0 then some (.returned t (.clear fd) 0 (.cleared total), w.put t .idle)
      else
        let n := min 64 (w.pending fd)
        some (.took t fd n, (w.fill fd (w.pending fd - n)).put t (.reading fd (total + n)))
  | .reading fd total, .failed errno => some (w.fail t (.clear fd) (.reading fd total) 0 errno (.readFailed errno))
  | .polling c start, .go =>
      some (.again t, w.put t (.asleep c start w.now (pollTimeoutMs c.timeout start w.now)))
  | .asleep c start entry ms, .go =>
      if c.fds.any (readyAt w.pending) then some (.returned t c (w.now - start) (c.answer w.pending), w.put t .idle)
      else if 0 ≤ ms ∧ entry + ms.toNat * 1000000 ≤ w.now then
        some (.returned t c (w.now - start) c.expired, w.put t .idle)
      else none
  | .asleep c start _ _, .failed errno =>
      some (w.fail t c (.polling c start) (w.now - start) errno (.pollFailed errno))
  | _, _ => none

/-- Fresh FIFOs, and no call. -/
def start : EventWorld := ⟨fun _ => 0, 0, fun _ => .idle⟩

end EventWorld

/-- A thread goes on, or time passes. A FIFO that is full or empty is not a failure. -/
inductive EventStep (capacity : Nat) : EventWorld → EventLabel → EventWorld → Prop
  | thread {w l w'} (t input) : input ≠ .failed EAGAIN → w.step capacity t input = some (l, w') →
      EventStep capacity w l w'
  | tick {w} (d) : EventStep capacity w (.ticked d) { w with now := w.now + d }

/-- All that a thread does in one step. -/
inductive EventMove (capacity : Nat) (w : EventWorld) (t : Nat) : EventLabel → EventWorld → Prop
  | called {c pc} : w.pc t = .idle → c.begin w.now = some pc → EventMove capacity w t (.called t c) (w.put t pc)
  | invalid {c} : w.pc t = .idle → EventMove capacity w t (.returned t c 0 (.raised .invalid)) w
  | wrote {fd} : w.pc t = .writing fd → w.pending fd < capacity →
      EventMove capacity w t (.wrote t fd true) ((w.fill fd (w.pending fd + 1)).put t .idle)
  | full {fd} : w.pc t = .writing fd → capacity ≤ w.pending fd →
      EventMove capacity w t (.wrote t fd false) (w.put t .idle)
  | emptied {fd total} : w.pc t = .reading fd total → w.pending fd = 0 →
      EventMove capacity w t (.returned t (.clear fd) 0 (.cleared total)) (w.put t .idle)
  | took {fd total n} : w.pc t = .reading fd total → n ≤ w.pending fd →
      EventMove capacity w t (.took t fd n) ((w.fill fd (w.pending fd - n)).put t (.reading fd (total + n)))
  | asked {c start} : w.pc t = .polling c start →
      EventMove capacity w t (.again t) (w.put t (.asleep c start w.now (pollTimeoutMs c.timeout start w.now)))
  | ready {c start entry ms} : w.pc t = .asleep c start entry ms → c.fds.any (readyAt w.pending) = true →
      EventMove capacity w t (.returned t c (w.now - start) (c.answer w.pending)) (w.put t .idle)
  | expired {c start entry ms} : w.pc t = .asleep c start entry ms → c.fds.any (readyAt w.pending) = false →
      0 ≤ ms → entry + ms.toNat * 1000000 ≤ w.now →
      EventMove capacity w t (.returned t c (w.now - start) c.expired) (w.put t .idle)
  | interrupted {pc} : w.pc t = pc → EventMove capacity w t (.again t) (w.put t pc)
  | awoken {c start entry ms} : w.pc t = .asleep c start entry ms →
      EventMove capacity w t (.again t) (w.put t (.polling c start))
  | broke {c elapsed e} : e ≠ .timedOut → EventMove capacity w t (.returned t c elapsed (.raised e)) (w.put t .idle)

section moves
variable {capacity : Nat} {w w' : EventWorld} {l : EventLabel} {t : Nat} {input : EventInput} {past : List EventLabel}

@[simp] theorem put_pending (w : EventWorld) (t : Nat) (pc : EventPc) : (w.put t pc).pending = w.pending := rfl
@[simp] theorem put_now (w : EventWorld) (t : Nat) (pc : EventPc) : (w.put t pc).now = w.now := rfl
@[simp] theorem put_pc (w : EventWorld) (t : Nat) (pc : EventPc) : (w.put t pc).pc = Function.update w.pc t pc := rfl
@[simp] theorem fill_pending (w : EventWorld) (fd n : Nat) :
    (w.fill fd n).pending = Function.update w.pending fd n := rfl
@[simp] theorem fill_now (w : EventWorld) (fd n : Nat) : (w.fill fd n).now = w.now := rfl
@[simp] theorem fill_pc (w : EventWorld) (fd n : Nat) : (w.fill fd n).pc = w.pc := rfl

theorem step_move (step : w.step capacity t input = some (l, w')) : EventMove capacity w t l w' := by
  unfold EventWorld.step at step
  split at step
  · rename_i c idle
    split at step
    · rename_i begins
      cases step
      exact .called idle begins
    · cases step
      exact .invalid idle
  · rename_i fd writing
    split_ifs at step with room
    · cases step
      exact .wrote writing room
    · cases step
      exact .full writing (Nat.not_lt.mp room)
  · rename_i fd errno writing
    rw [EventWorld.fail] at step
    split_ifs at step
    · cases step
      exact .interrupted writing
    · cases step
      exact .broke (by simp)
  · rename_i fd total reading
    split_ifs at step with none
    · cases step
      exact .emptied reading none
    · cases step
      exact .took reading (Nat.min_le_right 64 _)
  · rename_i fd total errno reading
    rw [EventWorld.fail] at step
    split_ifs at step
    · cases step
      exact .interrupted reading
    · cases step
      exact .broke (by simp)
  · rename_i c start polling
    cases step
    exact .asked polling
  · rename_i c start entry ms asleep
    split_ifs at step with some_ready over_time
    · cases step
      exact .ready asleep some_ready
    · cases step
      exact .expired asleep (Bool.eq_false_of_not_eq_true some_ready) over_time.1 over_time.2
  · rename_i c start entry ms errno asleep
    rw [EventWorld.fail] at step
    split_ifs at step
    · cases step
      exact .awoken asleep
    · cases step
      exact .broke (by simp)
  · cases step

end moves

/-! Bytes. -/

def EventLabel.added (fd : Nat) : EventLabel → Nat
  | .wrote _ fd' true => if fd' = fd then 1 else 0
  | _ => 0

def EventLabel.read (fd : Nat) : EventLabel → Nat
  | .took _ fd' n => if fd' = fd then n else 0
  | _ => 0

/-- The bytes that `set` has added to a FIFO. -/
def addedTo (fd : Nat) (past : List EventLabel) : Nat := (past.map (EventLabel.added fd)).sum

/-- The bytes that `clear` has read from a FIFO. -/
def readFrom (fd : Nat) (past : List EventLabel) : Nat := (past.map (EventLabel.read fd)).sum

def EventLabel.readOn (t : Nat) (total : Nat) : EventLabel → Nat
  | .called t' _ => if t' = t then 0 else total
  | .took t' _ n => if t' = t then total + n else total
  | _ => total

/-- The bytes that a thread has read in its last call. -/
def readSince (t : Nat) (past : List EventLabel) : Nat := past.foldl (EventLabel.readOn t) 0

/-- No byte is lost or read twice; a `clear` returns what it read itself, once it has
found the FIFO empty. -/
structure Metered (capacity : Nat) (past : List EventLabel) (w : EventWorld) : Prop where
  balance : ∀ fd, addedTo fd past = readFrom fd past + w.pending fd
  room : ∀ fd, w.pending fd ≤ capacity
  clears : ∀ before t c elapsed n after, past = before ++ .returned t c elapsed (.cleared n) :: after →
    n = readSince t before ∧ ∃ fd : Nat, c = .clear fd ∧ addedTo fd before = readFrom fd before

section bytes
variable {capacity : Nat} {w w' : EventWorld} {l : EventLabel} {t t' : Nat} {past : List EventLabel}

@[simp] theorem addedTo_append (fd : Nat) (past : List EventLabel) (l : EventLabel) :
    addedTo fd (past ++ [l]) = addedTo fd past + l.added fd := by simp [addedTo]

@[simp] theorem readFrom_append (fd : Nat) (past : List EventLabel) (l : EventLabel) :
    readFrom fd (past ++ [l]) = readFrom fd past + l.read fd := by simp [readFrom]

@[simp] theorem readSince_append (t : Nat) (past : List EventLabel) (l : EventLabel) :
    readSince t (past ++ [l]) = l.readOn t (readSince t past) := by simp [readSince]

theorem answer_kind (c : EventCall) (pending : Nat → Nat) (n : Nat) : c.answer pending ≠ .cleared n := by
  cases c with
  | waitForOne fds timeout =>
      rw [EventCall.answer]
      split <;> simp
  | _ => simp [EventCall.answer]

theorem begin_reading {c : EventCall} {now fd total : Nat} (begins : c.begin now = some (.reading fd total)) :
    total = 0 := by
  cases c with
  | clear =>
      rw [EventCall.begin] at begins
      split_ifs at begins
      cases begins
      rfl
  | waitForOne => cases begins
  | set | wait | peek =>
      rw [EventCall.begin] at begins
      split_ifs at begins
      cases begins

/-- What a step adds to a FIFO and takes from it. -/
theorem EventMove.balance (move : EventMove capacity w t l w') (fd : Nat) :
    w'.pending fd + l.read fd = w.pending fd + l.added fd ∧ (w.pending fd ≤ capacity → w'.pending fd ≤ capacity) := by
  cases move with
  | @wrote fd' writing room =>
      by_cases same : fd = fd'
      · subst same
        simp only [put_pending, fill_pending, Function.update_self, EventLabel.added, EventLabel.read, if_true]
        exact ⟨trivial, fun _ => room⟩
      · simp [EventLabel.added, EventLabel.read, Function.update_of_ne same, Ne.symm same]
  | @took fd' total n reading enough =>
      by_cases same : fd = fd'
      · subst same
        simp only [put_pending, fill_pending, Function.update_self, EventLabel.added, EventLabel.read, if_true]
        exact ⟨Nat.sub_add_cancel enough, fun room => (Nat.sub_le _ _).trans room⟩
      · simp [EventLabel.added, EventLabel.read, Function.update_of_ne same, Ne.symm same]
  | _ => simp [EventLabel.added, EventLabel.read]

theorem EventMove.other (move : EventMove capacity w t l w') (ne : t' ≠ t) (total : Nat) :
    w'.pc t' = w.pc t' ∧ l.readOn t' total = total := by
  cases move <;> simp [EventLabel.readOn, Function.update_of_ne ne, Ne.symm ne]

/-- A thread that reads has counted what it read. -/
theorem EventMove.counted (move : EventMove capacity w t l w') {before : Nat}
    (counted : ∀ fd total, w.pc t = .reading fd total → before = total) {fd total : Nat}
    (reading : w'.pc t = .reading fd total) : l.readOn t before = total := by
  cases move with
  | called idle begins =>
      simp only [put_pc, Function.update_self] at reading
      subst reading
      simp [EventLabel.readOn, begin_reading begins]
  | invalid => exact counted fd total reading
  | took here enough =>
      simp only [put_pc, Function.update_self, EventPc.reading.injEq] at reading
      obtain ⟨rfl, rfl⟩ := reading
      simp [EventLabel.readOn, counted _ _ here]
  | interrupted here =>
      simp only [put_pc, Function.update_self] at reading
      exact counted fd total (here.trans reading)
  | wrote | full | emptied | asked | ready | expired | awoken | broke =>
      simp only [put_pc, Function.update_self] at reading
      cases reading

structure Tallied (capacity : Nat) (past : List EventLabel) (w : EventWorld) : Prop where
  metered : Metered capacity past w
  totals : ∀ t fd total, w.pc t = .reading fd total → readSince t past = total

theorem Tallied.move (T : Tallied capacity past w) (move : EventMove capacity w t l w') :
    Tallied capacity (past ++ [l]) w' := by
  refine ⟨⟨fun fd => ?_, fun fd => ?_, ?_⟩, ?_⟩
  · have before := T.metered.balance fd
    have step := (move.balance fd).1
    rw [addedTo_append, readFrom_append]
    omega
  · exact (move.balance fd).2 (T.metered.room fd)
  · intro before t' c elapsed n after same
    rcases split_snoc same with ⟨rfl, last⟩ | ⟨more, rfl, -⟩
    · cases move with
      | emptied here none =>
          cases last
          have balance := T.metered.balance
          refine ⟨(T.totals _ _ _ here).symm, _, rfl, ?_⟩
          rw [balance, none, Nat.add_zero]
      | ready =>
          obtain ⟨-, -, -, kind⟩ := EventLabel.returned.inj last
          exact absurd kind.symm (answer_kind _ _ n)
      | @expired c =>
          obtain ⟨-, -, -, kind⟩ := EventLabel.returned.inj last
          cases c <;> cases kind
      | _ => cases last
    · exact T.metered.clears before t' c elapsed n more rfl
  · intro t' fd total reading
    rw [readSince_append]
    by_cases same : t' = t
    · subst same
      exact move.counted (T.totals t') reading
    · obtain ⟨kept, read⟩ := move.other same (readSince t' past)
      rw [read]
      exact T.totals t' fd total (kept.symm.trans reading)

theorem Tallied.tick (T : Tallied capacity past w) (d : Nat) :
    Tallied capacity (past ++ [.ticked d]) { w with now := w.now + d } := by
  refine ⟨⟨fun fd => ?_, T.metered.room, ?_⟩, ?_⟩
  · simpa [EventLabel.added, EventLabel.read] using T.metered.balance fd
  · intro before t c elapsed n after same
    rcases split_snoc same with ⟨-, last⟩ | ⟨more, rfl, -⟩
    · cases last
    · exact T.metered.clears before t c elapsed n more rfl
  · intro t fd total reading
    rw [readSince_append]
    exact T.totals t fd total reading

theorem tallied (run : Run (EventStep capacity) .start past w) : Tallied capacity past w := by
  induction run with
  | nil => exact ⟨⟨fun fd => rfl, fun fd => Nat.zero_le _, by simp⟩, by simp [EventWorld.start]⟩
  | snoc run one ih =>
      cases one with
      | thread t input allowed step => exact ih.move (step_move step)
      | tick d => exact ih.tick d

end bytes

/-! Wake-ups. -/

/-- A call that looks at a FIFO ends without having seen it. -/
def EventLabel.misses (fd : Nat) : EventLabel → Prop
  | .returned _ c _ r => (fd : Int) ∈ c.fds ∧ r = c.expired
  | .called _ _ | .again _ | .wrote _ _ _ | .took _ _ _ | .ticked _ => False

section wakeups
variable {capacity : Nat} {w w' : EventWorld} {l : EventLabel} {t fd : Nat} {past before after : List EventLabel}

theorem any_ready {c : EventCall} (watched : (fd : Int) ∈ c.fds) (some_left : 0 < w.pending fd) :
    c.fds.any (readyAt w.pending) = true := by
  refine List.any_eq_true.mpr ⟨fd, watched, ?_⟩
  simp [readyAt, some_left]

theorem answer_ne_expired {c : EventCall} {pending : Nat → Nat} (ready : c.fds.any (readyAt pending) = true) :
    c.answer pending ≠ c.expired := by
  cases c with
  | set | clear => simp [EventCall.fds] at ready
  | wait | peek => simp [EventCall.answer, EventCall.expired]
  | waitForOne fds timeout =>
      rw [EventCall.answer, EventCall.expired]
      split
      · simp
      · simp

/-- A FIFO that nobody reads stays ready, and nobody who looks at it misses that. -/
theorem EventMove.kept (move : EventMove capacity w t l w') (some_left : 0 < w.pending fd)
    (unread : ∀ t n, l ≠ .took t fd n) : 0 < w'.pending fd ∧ ¬ l.misses fd := by
  constructor
  · have balance := (move.balance fd).1
    have none : l.read fd = 0 := by
      cases l with
      | took t' fd' n => exact if_neg fun same => unread t' n (by rw [same])
      | _ => rfl
    omega
  · cases move with
    | @invalid c =>
        rintro ⟨-, same⟩
        cases c <;> cases same
    | emptied =>
        rintro ⟨watched, -⟩
        cases watched
    | ready asleep ready =>
        rintro ⟨-, same⟩
        exact answer_ne_expired ready same
    | expired asleep none =>
        rintro ⟨watched, -⟩
        rw [any_ready watched some_left] at none
        cases none
    | @broke c elapsed e other =>
        rintro ⟨-, same⟩
        cases c <;> cases same <;> exact other rfl
    | _ => exact id

theorem kept_run (some_left : 0 < w.pending fd) (run : Run (EventStep capacity) w after w')
    (unread : ∀ t n, .took t fd n ∉ after) : 0 < w'.pending fd ∧ ∀ l ∈ after, ¬ l.misses fd := by
  induction run with
  | nil => exact ⟨some_left, by simp⟩
  | @snoc after u l v run one ih =>
      obtain ⟨still, seen⟩ := ih fun t n mem => unread t n (List.mem_append_left _ mem)
      have last : ∀ t n, l ≠ .took t fd n := by
        rintro t n rfl
        exact unread t n (by simp)
      have both : 0 < v.pending fd ∧ ¬ l.misses fd := by
        cases one with
        | thread t input allowed step => exact (step_move step).kept still last
        | tick d => exact ⟨still, id⟩
      exact ⟨both.1, List.forall_mem_append.mpr ⟨seen, List.forall_mem_singleton.mpr both.2⟩⟩

/-- No wake-up is lost, whatever signals and other threads do: no byte vanishes, and
from the write that ends a `set` on, as long as no `clear` reads from that FIFO, no
wait for it times out, no peek denies it, and whoever sleeps in a poll on it can
return. -/
theorem wakeups_kept {added : Bool} (positive : 0 < capacity)
    (run : Run (EventStep capacity) .start (before ++ .wrote t fd added :: after) w)
    (unread : ∀ t' n, .took t' fd n ∉ after) :
    Metered capacity (before ++ .wrote t fd added :: after) w ∧ 0 < w.pending fd ∧ (∀ l ∈ after, ¬ l.misses fd) ∧
      ∀ t' c start entry ms, w.pc t' = .asleep c start entry ms → (fd : Int) ∈ c.fds →
        ∃ r w', w.step capacity t' .go = some (.returned t' c (w.now - start) r, w') ∧ r ≠ c.expired := by
  obtain ⟨u, -, rest⟩ := run.split
  obtain ⟨v, one, rest⟩ := Run.split (show Run _ u ([EventLabel.wrote t fd added] ++ after) w from rest)
  obtain ⟨u', first, one⟩ := Run.last (show Run _ u ([] ++ [EventLabel.wrote t fd added]) v from one)
  have left : 0 < v.pending fd := by
    cases one with
    | thread t' input allowed step =>
        have move := step_move step
        cases move with
        | wrote writing room => simp
        | full writing none => exact Nat.lt_of_lt_of_le positive none
  obtain ⟨still, seen⟩ := kept_run left rest unread
  refine ⟨(tallied run).metered, still, seen, ?_⟩
  intro t' c start entry ms asleep watched
  have ready := any_ready watched still
  refine ⟨c.answer w.pending, w.put t' .idle, ?_, answer_ne_expired ready⟩
  simp [EventWorld.step, asleep, ready]

end wakeups

/-! Executing threads. -/

inductive EventAct
  | thread (t : Nat) (input : EventInput)
  | tick (d : Nat)

def eventAct (capacity : Nat) (w : EventWorld) : EventAct → Option (EventLabel × EventWorld)
  | .thread t input => if input = .failed EAGAIN then none else w.step capacity t input
  | .tick d => some (.ticked d, { w with now := w.now + d })

theorem eventAct_run {capacity : Nat} {acts : List EventAct} {past : List EventLabel} {w : EventWorld}
    (ends : perform (eventAct capacity) (fun _ _ => True) .start acts = some (past, w)) :
    Run (EventStep capacity) .start past w := by
  have steps : ∀ a w l w', eventAct capacity w a = some (l, w') → EventStep capacity w l w' := by
    intro a w l w' act
    cases a with
    | thread t input =>
        rw [eventAct] at act
        split_ifs at act with full
        exact .thread t input full act
    | tick d =>
        cases act
        exact .tick d
  exact (performed ends steps).mono fun _ _ _ step => step.1

/-- A wait of a second for the event 3, which another thread sets; a signal comes then,
and the wait polls again behind its deadline. -/
def wokenActs : List EventAct :=
  [.thread 1 (.call (.wait 3 1)), .thread 1 .go, .thread 0 (.call (.set 3)), .thread 0 .go,
    .thread 1 (.failed EINTR), .tick 2000000000, .thread 1 .go]

theorem wakeups_kept_woken : ∃ (w : EventWorld),
    Run (EventStep 1) .start ([.called 1 (.wait 3 1), .again 1, .called 0 (.set 3)] ++
      .wrote 0 3 true :: [.again 1, .ticked 2000000000, .again 1]) w ∧
    0 < w.pending 3 ∧ (∀ l ∈ [EventLabel.again 1, .ticked 2000000000, .again 1], ¬ l.misses 3) ∧
      ∀ t' c start entry ms, w.pc t' = .asleep c start entry ms → ((3 : Nat) : Int) ∈ c.fds →
        ∃ r w', w.step 1 t' .go = some (.returned t' c (w.now - start) r, w') ∧ r ≠ c.expired := by
  have labels : (perform (eventAct 1) (fun _ _ => True) .start wokenActs).map Prod.fst =
      some ([.called 1 (.wait 3 1), .again 1, .called 0 (.set 3)] ++
        .wrote 0 3 true :: [.again 1, .ticked 2000000000, .again 1]) := by decide +kernel
  obtain ⟨⟨past, w⟩, ends, rfl⟩ := Option.map_eq_some_iff.mp labels
  have run := eventAct_run ends
  exact ⟨w, run, (wakeups_kept (by decide) run (by simp)).2⟩

/-! Deadlines. -/

/-- The timeout of a poll reaches to within a millisecond of the deadline, and not past it. -/
theorem pollTimeoutMs_spec {timeout : Int} {start now : Nat} (nonneg : 0 ≤ timeout) (small : timeout ≤ 2147483)
    (later : start ≤ now) : 0 ≤ pollTimeoutMs timeout start now ∧
      start + timeout * 1000000000 < now + pollTimeoutMs timeout start now * 1000000 + 1000000 ∧
      (now + pollTimeoutMs timeout start now * 1000000 ≤ start + timeout * 1000000000 ∨
        pollTimeoutMs timeout start now = 0) := by
  rw [pollTimeoutMs, if_pos nonneg]
  dsimp only
  by_cases left : 0 ≤ start + timeout * 1000000000 - (now : Int)
  · rw [Int.tdiv_eq_ediv_of_nonneg left]
    split_ifs with positive
    · have exact_cast : toInt ((start + timeout * 1000000000 - (now : Int)) / 1000000).toNat =
          (start + timeout * 1000000000 - (now : Int)) / 1000000 := by
        rw [toInt]
        split_ifs <;> omega
      rw [exact_cast]
      omega
    · omega
  · have none : ¬ 0 < (start + timeout * 1000000000 - (now : Int)).tdiv 1000000 := by
      have flipped : start + timeout * 1000000000 - (now : Int) =
          -(now - (start + timeout * 1000000000)) := by omega
      rw [flipped, Int.neg_tdiv, Int.tdiv_eq_ediv_of_nonneg (by omega)]
      omega
    rw [if_neg none]
    omega

/-- A thread in a poll has the timeout that was left when it entered. -/
def EventPc.Timely (now : Nat) : EventPc → Prop
  | .idle | .writing _ | .reading _ _ => True
  | .polling _ start => start ≤ now
  | .asleep c start entry ms => start ≤ entry ∧ entry ≤ now ∧ ms = pollTimeoutMs c.timeout start entry

structure Timed (past : List EventLabel) (w : EventWorld) : Prop where
  timely : ∀ t, (w.pc t).Timely w.now
  expired : ∀ t c (elapsed : Nat), .returned t c elapsed c.expired ∈ past →
    0 ≤ c.timeout ∧ (c.timeout ≤ 2147483 → c.timeout * 1000000000 < (elapsed : Int) + 1000000)

section deadlines
variable {capacity : Nat} {w w' : EventWorld} {l : EventLabel} {t : Nat} {past : List EventLabel}

theorem EventPc.Timely.later {pc : EventPc} {now now' : Nat} (timely : pc.Timely now) (le : now ≤ now') :
    pc.Timely now' := by
  cases pc with
  | idle | writing | reading => trivial
  | polling => exact Nat.le_trans timely le
  | asleep => exact ⟨timely.1, Nat.le_trans timely.2.1 le, timely.2.2⟩

theorem begin_timely {c : EventCall} {now : Nat} {pc : EventPc} (begins : c.begin now = some pc) : pc.Timely now := by
  cases c with
  | waitForOne =>
      cases begins
      exact le_refl now
  | set | clear =>
      rw [EventCall.begin] at begins
      split_ifs at begins
      cases begins
      trivial
  | wait | peek =>
      rw [EventCall.begin] at begins
      split_ifs at begins
      cases begins
      exact le_refl now

theorem EventMove.timely (move : EventMove capacity w t l w') (before : ∀ t, (w.pc t).Timely w.now) (t' : Nat) :
    (w'.pc t').Timely w'.now := by
  have put {u : EventWorld} {pc : EventPc} (same : u.pc = w.pc) (now : u.now = w.now) (timely : pc.Timely w.now) :
      ((u.put t pc).pc t').Timely (u.put t pc).now := by
    rw [put_pc, put_now, now, same]
    by_cases here : t' = t
    · subst here
      rwa [Function.update_self]
    · rw [Function.update_of_ne here]
      exact before t'
  have known := before t
  cases move with
  | called idle begins => exact put rfl rfl (begin_timely begins)
  | invalid => exact before t'
  | asked polling =>
      rw [polling] at known
      exact put rfl rfl ⟨known, le_refl _, rfl⟩
  | awoken asleep =>
      rw [asleep] at known
      exact put rfl rfl (known.1.trans known.2.1)
  | interrupted here => exact put rfl rfl (here ▸ known)
  | wrote | full | emptied | took | ready | expired | broke => exact put rfl rfl trivial

/-- A call gives up in the last millisecond before its deadline, or behind it. -/
theorem EventMove.gives_up {c : EventCall} {t' elapsed : Nat}
    (move : EventMove capacity w t (.returned t' c elapsed c.expired) w') (before : ∀ t, (w.pc t).Timely w.now) :
    0 ≤ c.timeout ∧ (c.timeout ≤ 2147483 → c.timeout * 1000000000 < (elapsed : Int) + 1000000) := by
  generalize same : c.expired = r at move
  cases move with
  | invalid => cases c <;> cases same
  | emptied => cases same
  | ready asleep ready => exact absurd same.symm (answer_ne_expired ready)
  | broke other => cases c <;> cases same <;> exact absurd rfl other
  | @expired _ start entry ms asleep none finite late =>
      have known := before t
      rw [asleep] at known
      obtain ⟨first, second, rfl⟩ := known
      have nonneg : 0 ≤ c.timeout := by
        by_contra negative
        rw [pollTimeoutMs, if_neg negative] at finite
        omega
      refine ⟨nonneg, fun small => ?_⟩
      have spec := (pollTimeoutMs_spec nonneg small first).2.1
      omega

theorem timed (run : Run (EventStep capacity) .start past w) : Timed past w := by
  induction run with
  | nil => exact ⟨fun _ => trivial, by simp⟩
  | snoc run one ih =>
      cases one with
      | thread t input allowed step =>
          have move := step_move step
          refine ⟨move.timely ih.timely, ?_⟩
          intro t' c elapsed mem
          rcases List.mem_append.mp mem with old | new
          · exact ih.expired t' c elapsed old
          · obtain rfl := List.mem_singleton.mp new
            exact move.gives_up ih.timely
      | tick d =>
          refine ⟨fun t => (ih.timely t).later (Nat.le_add_right _ d), ?_⟩
          intro t c elapsed mem
          exact ih.expired t c elapsed ((List.mem_append.mp mem).resolve_right (by simp))

/-- Deadlines are kept through any number of signals: a wait gives up with less than a
millisecond left, never earlier, and from its deadline on it can return. -/
theorem wait_deadline (run : Run (EventStep capacity) .start past w) :
    (∀ t c (elapsed : Nat), .returned t c elapsed c.expired ∈ past →
      0 ≤ c.timeout ∧ (c.timeout ≤ 2147483 → c.timeout * 1000000000 < (elapsed : Int) + 1000000)) ∧
    ∀ t c start entry ms, w.pc t = .asleep c start entry ms → 0 ≤ c.timeout → c.timeout ≤ 2147483 →
      start + c.timeout * 1000000000 ≤ (w.now : Int) →
        ∃ r w', w.step capacity t .go = some (.returned t c (w.now - start) r, w') := by
  have T := timed run
  refine ⟨T.expired, ?_⟩
  intro t c start entry ms asleep nonneg small late
  have known := T.timely t
  rw [asleep] at known
  obtain ⟨first, second, rfl⟩ := known
  obtain ⟨finite, -, ends⟩ := pollTimeoutMs_spec nonneg small first
  have returns : 0 ≤ pollTimeoutMs c.timeout start entry ∧
      entry + (pollTimeoutMs c.timeout start entry).toNat * 1000000 ≤ w.now := by
    refine ⟨finite, ?_⟩
    rcases ends with within | zero <;> omega
  simp only [EventWorld.step, asleep]
  by_cases ready : c.fds.any (readyAt w.pending) = true
  · exact ⟨_, _, if_pos ready⟩
  · rw [if_neg ready]
    exact ⟨_, _, if_pos returns⟩

end deadlines

/-- A signal in the middle of the second leaves half of it, and the wait gives up behind that. -/
def expiringActs : List EventAct :=
  [.thread 1 (.call (.wait 3 1)), .thread 1 .go, .tick 500000000, .thread 1 (.failed EINTR), .thread 1 .go,
    .tick 500000000, .thread 1 .go]

theorem wait_deadline_expiring : ∃ (past : List EventLabel) (w : EventWorld), Run (EventStep 1) .start past w ∧
    .returned 1 (.wait 3 1) 1000000000 (.raised .timedOut) ∈ past ∧
    (∀ t c (elapsed : Nat), .returned t c elapsed c.expired ∈ past →
      0 ≤ c.timeout ∧ (c.timeout ≤ 2147483 → c.timeout * 1000000000 < (elapsed : Int) + 1000000)) ∧
    ∀ t c start entry ms, w.pc t = .asleep c start entry ms → 0 ≤ c.timeout → c.timeout ≤ 2147483 →
      start + c.timeout * 1000000000 ≤ (w.now : Int) →
        ∃ r w', w.step 1 t .go = some (.returned t c (w.now - start) r, w') := by
  have labels : (perform (eventAct 1) (fun _ _ => True) .start expiringActs).map Prod.fst =
      some ([.called 1 (.wait 3 1), .again 1, .ticked 500000000, .again 1, .again 1, .ticked 500000000] ++
        [.returned 1 (.wait 3 1) 1000000000 (.raised .timedOut)]) := by decide +kernel
  obtain ⟨⟨past, w⟩, ends, rfl⟩ := Option.map_eq_some_iff.mp labels
  exact ⟨_, w, eventAct_run ends, by simp, wait_deadline (eventAct_run ends)⟩

end Msgq
