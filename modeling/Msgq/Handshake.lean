import Mathlib.Data.List.ReduceOption
import Msgq.Events
import Msgq.Fake

/-! The handshake of fake mode, system call by system call. Each `set`, `wait` and
`clear` is a loop that a signal may restart, over FIFOs of bounded size. -/
namespace Msgq
open ByteMemory Traces

/-- Both sides open the same two FIFOs. -/
def EventPurpose.fd : EventPurpose → Nat
  | .recvCalled => 0
  | .recvReady => 1

/-- The driver is thread 0, the subscriber thread 1; either reads the FIFO of its number. -/
structure HandshakeWorld where
  events : EventWorld
  state : State
  driver : DriverPc
  receiver : ReceivePc
  rounds : Nat

/-- The event call that comes next. -/
def DriverPc.call : DriverPc → Option EventCall
  | .wait => some (.wait EventPurpose.recvCalled.fd (-1))
  | .clear => some (.clear EventPurpose.recvCalled.fd)
  | .set => some (.set EventPurpose.recvReady.fd)
  | .send | .stopped => none

def ReceivePc.call : ReceivePc → Option EventCall
  | .idle => some (.set EventPurpose.recvCalled.fd)
  | .wait _ => some (.wait EventPurpose.recvReady.fd (-1))
  | .clear _ => some (.clear EventPurpose.recvReady.fd)
  | .recv _ _ | .poll _ | .dead => none

/-- The next step of a thread that makes the call `c`: it begins, or its system call
completes or is interrupted. -/
def EventWorld.serve (capacity : Nat) (w : EventWorld) (t : Nat) (c : EventCall) (interrupted : Bool) :
    Option (EventLabel × EventWorld) :=
  w.step capacity t (if w.pc t = .idle then .call c else if interrupted then .failed EINTR else .go)

/-- What a call that ends here comes to. -/
def EventLabel.outcome : EventLabel → Option EventResult
  | .wrote _ _ _ => some .done
  | .returned _ _ _ r => some r
  | .called _ _ | .again _ | .took _ _ _ | .ticked _ => none

/-- What a clear has read so far. -/
def EventPc.read (fd : Nat) : EventPc → Nat
  | .reading fd' total => if fd' = fd then total else 0
  | .idle | .writing _ | .polling _ _ | .asleep _ _ _ _ => 0

/-- The bytes of a FIFO, with those that its reader's clear has taken so far. -/
def EventWorld.bytes (w : EventWorld) (fd : Nat) : Nat := w.pending fd + (w.pc fd).read fd

namespace HandshakeWorld

def fifos (w : HandshakeWorld) : Fifos := fun p => w.events.bytes p.fd

/-- The world in which every call is one step. -/
def plain (w : HandshakeWorld) : FakeWorld := ⟨w.state, w.fifos, w.driver, w.receiver, w.rounds⟩

/-- The driver behind a step of its event call. -/
def driverBehind (w : HandshakeWorld) (r : Option EventResult) (v : EventWorld) :
    Option FakeEvent × HandshakeWorld :=
  match r, w.driver with
  | none, _ => (none, { w with events := v })
  | some .done, .wait => (some (.waited .recvCalled), { w with events := v, driver := .clear })
  | some (.cleared n), .clear => (some (.cleared .recvCalled n), { w with events := v, driver := .send })
  | some .done, .set => (some (.set .recvReady), { w with events := v, driver := .wait })
  | some _, _ => (some .stopped, { w with events := v, driver := .stopped })

def driverSyscall (capacity : Nat) (G : Segment) (p : Nat) (msgs : Nat → Msg) (interrupted : Bool)
    (w : HandshakeWorld) : Option (Option FakeEvent × HandshakeWorld) :=
  match w.driver.call with
  | some c => (w.events.serve capacity 0 c interrupted).map fun r => w.driverBehind r.1.outcome r.2
  | none => (driverStep G p msgs w.plain).map fun r =>
      (some r.1, { w with state := r.2.state, driver := r.2.driver, rounds := r.2.rounds })

/-- The subscriber behind a step of its event call; `next` is the receive it makes when
it is between two. -/
def receiverBehind (w : HandshakeWorld) (next : ReceiveCall) (r : Option EventResult) (v : EventWorld) :
    Option FakeEvent × HandshakeWorld :=
  match r, w.receiver with
  | none, _ => (none, { w with events := v })
  | some .done, .idle => (some (.set .recvCalled), { w with events := v, receiver := .wait next })
  | some .done, .wait c => (some (.waited .recvReady), { w with events := v, receiver := .clear c })
  | some (.cleared n), .clear c =>
      (some (.cleared .recvReady n), { w with events := v, receiver := .recv c (!c.nonBlocking) })
  | some _, _ => (some .died, { w with events := v, receiver := .dead })

def receiverSyscall (capacity : Nat) (U : UidSource) (G : Segment) (h : Nat) (next : ReceiveCall) (polled : Bool)
    (fuel : Nat) (interrupted : Bool) (w : HandshakeWorld) : Option (Option FakeEvent × HandshakeWorld) :=
  match w.receiver.call with
  | some c => (w.events.serve capacity 1 c interrupted).map fun r => w.receiverBehind next r.1.outcome r.2
  | none => (receiveStep U G h next polled fuel w.plain).map fun r =>
      (some r.1, { w with state := r.2.state, receiver := r.2.receiver })

def tick (w : HandshakeWorld) (d : Nat) : HandshakeWorld :=
  { w with events := { w.events with now := w.events.now + d } }

/-- Fresh FIFOs, and the driver waits for its first round. -/
def start (s : State) : HandshakeWorld := ⟨.start, s, .wait, .idle, 0⟩

end HandshakeWorld

/-- A step that ends no event call has no label. -/
inductive HandshakeStep (capacity : Nat) (U : UidSource) (G : Segment) (p h : Nat) (msgs : Nat → Msg) :
    HandshakeWorld → Option FakeEvent → HandshakeWorld → Prop
  | driver {w e w'} (interrupted) : w.driverSyscall capacity G p msgs interrupted = some (e, w') →
      HandshakeStep capacity U G p h msgs w e w'
  | receiver {w e w'} (next polled fuel interrupted) :
      w.receiverSyscall capacity U G h next polled fuel interrupted = some (e, w') →
      HandshakeStep capacity U G p h msgs w e w'
  | tick {w} (d) : HandshakeStep capacity U G p h msgs w none (w.tick d)

/-! One thread. -/

/-- The calls of the thread that reads the FIFO `t`. -/
inductive ReaderCall (t : Nat) : EventCall → Prop
  | wait : ReaderCall t (.wait t (-1))
  | clear : ReaderCall t (.clear t)
  | set (fd : Nat) : ReaderCall t (.set fd)

/-- A thread is between two calls, or in the call that comes next. -/
def EventPc.Within (next : Option EventCall) : EventPc → Prop
  | .idle => True
  | .writing fd => next = some (.set fd)
  | .reading fd _ => next = some (.clear fd)
  | .polling c _ => next = some c ∧ c.fds ≠ []
  | .asleep c start entry ms => next = some c ∧ c.fds ≠ [] ∧ ms = pollTimeoutMs c.timeout start entry

/-- What one step of a call comes to; a byte that a set adds to a full FIFO is lost. -/
inductive Syscall (capacity : Nat) (w : EventWorld) (t : Nat) :
    EventCall → Option EventResult → EventWorld → Prop
  | silent {c v} : (v.pc t).Within (some c) → v.bytes = w.bytes → Syscall capacity w t c none v
  | set {fd : Nat} {v} : v.pc t = .idle →
      (w.bytes fd < capacity → v.bytes = Function.update w.bytes fd (w.bytes fd + 1)) →
      Syscall capacity w t (.set fd) (some .done) v
  | waited {v} : v.pc t = .idle → 0 < w.bytes t → v.bytes = w.bytes →
      Syscall capacity w t (.wait t (-1)) (some .done) v
  | cleared {v} : v.pc t = .idle → v.bytes = Function.update w.bytes t 0 →
      Syscall capacity w t (.clear t) (some (.cleared (w.bytes t))) v

section threads
variable {capacity t : Nat} {w v : EventWorld} {c : EventCall} {l : EventLabel} {interrupted : Bool}

/-- Only its own reader's place counts for a FIFO. -/
theorem bytes_put (w : EventWorld) (t : Nat) (pc : EventPc) :
    (w.put t pc).bytes = Function.update w.bytes t (w.pending t + pc.read t) := by
  funext fd
  rw [EventWorld.bytes, put_pending, put_pc]
  by_cases own : fd = t
  · subst own
    rw [Function.update_self, Function.update_self]
  · rw [Function.update_of_ne own, Function.update_of_ne own]
    rfl

theorem bytes_put_same {pc : EventPc} (same : pc.read t = (w.pc t).read t) : (w.put t pc).bytes = w.bytes := by
  rw [bytes_put, same]
  exact Function.update_eq_self t w.bytes

theorem bytes_fill (w : EventWorld) (fd n : Nat) :
    (w.fill fd n).bytes = Function.update w.bytes fd (n + (w.pc fd).read fd) := by
  funext fd'
  rw [EventWorld.bytes, fill_pending, fill_pc]
  by_cases here : fd' = fd
  · subst here
    rw [Function.update_self, Function.update_self]
  · rw [Function.update_of_ne here, Function.update_of_ne here]
    rfl

theorem step_call (own : ReaderCall t c) (idle : w.pc t = .idle)
    (step : w.step capacity t (.call c) = some (l, v)) : Syscall capacity w t c l.outcome v := by
  simp only [EventWorld.step, idle] at step
  cases own with
  | wait | clear | set =>
      simp only [EventCall.begin, Int.natCast_nonneg, if_true, Int.toNat_natCast, Option.some.injEq,
        Prod.mk.injEq] at step
      obtain ⟨rfl, rfl⟩ := step
      refine .silent (by simp [EventPc.Within, EventCall.fds]) (bytes_put_same ?_)
      rw [idle]
      simp [EventPc.read]

/-- A signal costs a call nothing but another system call. -/
theorem step_interrupted (within : (w.pc t).Within (some c))
    (step : w.step capacity t (.failed EINTR) = some (l, v)) : Syscall capacity w t c l.outcome v := by
  cases here : w.pc t with
  | idle | polling =>
      simp only [EventWorld.step, here] at step
      cases step
  | writing | reading =>
      simp only [EventWorld.step, here, EventWorld.fail, if_true, Option.some.injEq, Prod.mk.injEq] at step
      obtain ⟨rfl, rfl⟩ := step
      rw [here] at within
      exact .silent (by simpa using within) (bytes_put_same (by rw [here]))
  | asleep =>
      simp only [EventWorld.step, here, EventWorld.fail, if_true, Option.some.injEq, Prod.mk.injEq] at step
      obtain ⟨rfl, rfl⟩ := step
      rw [here] at within
      refine .silent ?_ (bytes_put_same (by rw [here]; rfl))
      rw [put_pc, Function.update_self]
      exact ⟨within.1, within.2.1⟩

theorem step_writing {fd : Nat} (writing : w.pc t = .writing fd)
    (step : w.step capacity t .go = some (l, v)) : Syscall capacity w t (.set fd) l.outcome v := by
  simp only [EventWorld.step, writing] at step
  split_ifs at step with room
  · cases step
    refine .set (by simp) fun _ => ?_
    rw [bytes_put_same (by rw [fill_pc, writing]; rfl), bytes_fill, EventWorld.bytes, Nat.add_right_comm]
  · cases step
    exact .set (by simp) fun enough => absurd (Nat.lt_of_le_of_lt (Nat.le_add_right _ _) enough) room

theorem step_reading {total : Nat} (reading : w.pc t = .reading t total)
    (step : w.step capacity t .go = some (l, v)) : Syscall capacity w t (.clear t) l.outcome v := by
  have all : w.bytes t = w.pending t + total := by simp [EventWorld.bytes, reading, EventPc.read]
  simp only [EventWorld.step, reading] at step
  split_ifs at step with none
  · cases step
    rw [none, Nat.zero_add] at all
    rw [EventLabel.outcome, ← all]
    exact .cleared (by simp) (by rw [bytes_put, none]; rfl)
  · cases step
    refine .silent (by simp [EventPc.Within]) ?_
    rw [bytes_put, bytes_fill, Function.update_idem]
    have same : (w.fill t (w.pending t - min 64 (w.pending t))).pending t +
        (EventPc.reading t (total + min 64 (w.pending t))).read t = w.bytes t := by
      rw [fill_pending, Function.update_self, EventPc.read, if_pos rfl, all]
      omega
    rw [same, Function.update_eq_self]

/-- A wait without a timeout returns only with a byte there. -/
theorem step_asleep {start entry : Nat} (asleep : w.pc t = .asleep (.wait t (-1)) start entry (-1))
    (step : w.step capacity t .go = some (l, v)) : Syscall capacity w t (.wait t (-1)) l.outcome v := by
  simp only [EventWorld.step, asleep] at step
  split_ifs at step with ready late
  · cases step
    have some_left : 0 < w.pending t := by simpa [EventCall.fds, readyAt] using ready
    exact .waited (by simp) (Nat.add_pos_left some_left _) (bytes_put_same (by rw [asleep]; rfl))
  · exact absurd late.1 (by decide)

/-- Every step of a call is silent, or does the whole call on the bytes. -/
theorem serve_syscall (own : ReaderCall t c) (within : (w.pc t).Within (some c))
    (step : w.serve capacity t c interrupted = some (l, v)) : Syscall capacity w t c l.outcome v := by
  rw [EventWorld.serve] at step
  split_ifs at step with idle signal
  · exact step_call own idle step
  · exact step_interrupted within step
  · cases here : w.pc t with
    | idle => exact absurd here idle
    | writing fd =>
        rw [here] at within
        obtain rfl := Option.some.inj within
        exact step_writing here step
    | reading fd total =>
        rw [here] at within
        obtain rfl := Option.some.inj within
        cases own with
        | clear => exact step_reading here step
    | polling c' start =>
        rw [here] at within
        obtain ⟨same, polls⟩ := within
        obtain rfl := Option.some.inj same
        simp only [EventWorld.step, here, Option.some.injEq, Prod.mk.injEq] at step
        obtain ⟨rfl, rfl⟩ := step
        exact .silent (by simp [EventPc.Within, polls]) (bytes_put_same (by rw [here]; rfl))
    | asleep c' start entry ms =>
        rw [here] at within
        obtain ⟨same, polls, rfl⟩ := within
        obtain rfl := Option.some.inj same
        cases own with
        | wait => exact step_asleep here step
        | clear | set => exact absurd rfl polls

/-- Only a wait with nothing to wait for is stuck. -/
theorem serve_stuck (own : ReaderCall t c) (within : (w.pc t).Within (some c))
    (stuck : w.serve capacity t c false = none) : c = .wait t (-1) ∧ w.bytes t = 0 := by
  rw [EventWorld.serve] at stuck
  by_cases idle : w.pc t = .idle
  · rw [if_pos idle] at stuck
    simp only [EventWorld.step, idle] at stuck
    split at stuck <;> cases stuck
  · rw [if_neg idle, if_neg Bool.false_ne_true] at stuck
    cases here : w.pc t with
    | idle => exact absurd here idle
    | writing | reading =>
        simp only [EventWorld.step, here] at stuck
        split_ifs at stuck
    | polling =>
        simp only [EventWorld.step, here] at stuck
        cases stuck
    | asleep c' start entry ms =>
        rw [here] at within
        obtain ⟨same, polls, rfl⟩ := within
        obtain rfl := Option.some.inj same
        cases own with
        | clear | set => exact absurd rfl polls
        | wait =>
            refine ⟨rfl, ?_⟩
            simp only [EventWorld.step, here] at stuck
            split_ifs at stuck with ready
            have none : w.pending t = 0 := by simpa [EventCall.fds, readyAt] using ready
            rw [EventWorld.bytes, none, here]
            rfl

theorem serve_other {t' : Nat} (ne : t' ≠ t) (step : w.serve capacity t c interrupted = some (l, v)) :
    v.pc t' = w.pc t' :=
  ((step_move step).other ne 0).1

theorem EventPc.Within.idle {pc : EventPc} (within : pc.Within none) : pc = .idle := by
  cases pc with
  | idle => rfl
  | writing | reading => cases within
  | polling | asleep => cases within.1

end threads

/-! The two threads. -/

/-- Either thread is in the call that its side makes next. -/
structure HandshakeWorld.Seated (w : HandshakeWorld) : Prop where
  driver : (w.events.pc 0).Within w.driver.call
  receiver : (w.events.pc 1).Within w.receiver.call

theorem DriverPc.call_own {d : DriverPc} {c : EventCall} (makes : d.call = some c) : ReaderCall 0 c := by
  cases d with
  | wait => cases makes; exact .wait
  | clear => cases makes; exact .clear
  | set => cases makes; exact .set 1
  | send | stopped => cases makes

theorem ReceivePc.call_own {r : ReceivePc} {c : EventCall} (makes : r.call = some c) : ReaderCall 1 c := by
  cases r with
  | idle => cases makes; exact .set 0
  | wait => cases makes; exact .wait
  | clear => cases makes; exact .clear
  | recv | poll | dead => cases makes

theorem EventPurpose.fd_injective : Function.Injective EventPurpose.fd := by
  intro p q same
  cases p <;> cases q <;> first | rfl | cases same

section sides
variable {capacity : Nat} {U : UidSource} {G : Segment} {p h : Nat} {msgs : Nat → Msg} {w w' : HandshakeWorld}
  {e : Option FakeEvent} {interrupted : Bool}

theorem fifos_same {u v : EventWorld} (same : v.bytes = u.bytes) :
    (fun p : EventPurpose => v.bytes p.fd) = fun p => u.bytes p.fd := by rw [same]

theorem fifos_update {u v : EventWorld} (q : EventPurpose) {n : Nat}
    (changed : v.bytes = Function.update u.bytes q.fd n) :
    (fun p => v.bytes p.fd) = Function.update (fun p => u.bytes p.fd) q n := by
  have composed := Function.update_comp_eq_of_injective u.bytes EventPurpose.fd_injective q n
  rw [← changed] at composed
  exact composed

/-- A step between two event calls leaves the other side and the FIFOs alone. -/
theorem driverStep_frame {w u : FakeWorld} {x : FakeEvent} (between : w.driver.call = none)
    (step : driverStep G p msgs w = some (x, u)) :
    u = { w with state := u.state, driver := u.driver, rounds := u.rounds } := by
  obtain ⟨s, fifos, driver, receiver, rounds⟩ := w
  cases driver with
  | wait | clear | set => cases between
  | stopped => cases step
  | send =>
      simp only [driverStep] at step
      split at step <;> cases step <;> rfl

theorem receiveStep_frame {w u : FakeWorld} {x : FakeEvent} {next : ReceiveCall} {polled : Bool} {fuel : Nat}
    (between : w.receiver.call = none) (step : receiveStep U G h next polled fuel w = some (x, u)) :
    u = { w with state := u.state, receiver := u.receiver } := by
  obtain ⟨s, fifos, driver, receiver, rounds⟩ := w
  cases receiver with
  | idle | wait | clear => cases between
  | dead => cases step
  | poll => cases step; rfl
  | recv c polls =>
      obtain ⟨⟨passes, t⟩, -, same⟩ := Option.map_eq_some_iff.mp step
      dsimp only at same
      split at same
      · cases same
        rfl
      · split_ifs at same <;> cases same <;> rfl

/-- A step stands for none of the world in which calls are one, or for the one of its side. -/
structure Mirrors (one : FakeWorld → Option (FakeEvent × FakeWorld)) (w : HandshakeWorld) (e : Option FakeEvent)
    (w' : HandshakeWorld) : Prop where
  seated : w'.Seated
  silent : e = none → w'.plain = w.plain
  step : ∀ x, e = some x → one w.plain = some (x, w'.plain)

theorem Mirrors.rest {one : FakeWorld → Option (FakeEvent × FakeWorld)} (seated : w'.Seated)
    (same : w'.plain = w.plain) : Mirrors one w none w' :=
  ⟨seated, fun _ => same, by simp⟩

theorem Mirrors.move {one : FakeWorld → Option (FakeEvent × FakeWorld)} {x : FakeEvent} (seated : w'.Seated)
    (step : one w.plain = some (x, w'.plain)) : Mirrors one w (some x) w' := by
  refine ⟨seated, by simp, ?_⟩
  intro x' same
  obtain rfl := Option.some.inj same
  exact step

/-- The driver behind a system call. -/
theorem driver_behind {v : EventWorld} {c : EventCall} {r : Option EventResult} (makes : w.driver.call = some c)
    (room : w.driver = .set → w.fifos .recvReady < capacity) (other : (v.pc 1).Within w.receiver.call)
    (syscall : Syscall capacity w.events 0 c r v) :
    Mirrors (driverStep G p msgs) w (w.driverBehind r v).1 (w.driverBehind r v).2 := by
  have plain (d : DriverPc) {f : Fifos} (fifos : (fun p => v.bytes p.fd) = f) :
      HandshakeWorld.plain { w with events := v, driver := d } = { w.plain with fifos := f, driver := d } := by
    subst fifos
    rfl
  have moves (d : DriverPc) {f : Fifos} {x : FakeEvent} (idle : v.pc 0 = .idle)
      (fifos : (fun p => v.bytes p.fd) = f)
      (one : driverStep G p msgs w.plain = some (x, { w.plain with fifos := f, driver := d })) :
      Mirrors (driverStep G p msgs) w (some x) { w with events := v, driver := d } := by
    refine .move ⟨?_, other⟩ ?_
    · rw [idle]
      trivial
    · rw [plain d fifos]
      exact one
  obtain ⟨events, s, driver, receiver, rounds⟩ := w
  cases syscall with
  | silent within bytes => exact .rest ⟨makes ▸ within, other⟩ (plain driver (fifos_same bytes))
  | set idle adds =>
      cases driver with
      | send | stopped | wait | clear => cases makes
      | set =>
          cases makes
          exact moves .wait idle (fifos_update .recvReady (adds (room rfl))) rfl
  | waited idle some_left bytes =>
      cases driver with
      | send | stopped | set | clear => cases makes
      | wait => exact moves .clear idle (fifos_same bytes) (if_pos some_left)
  | cleared idle bytes =>
      cases driver with
      | send | stopped | set | wait => cases makes
      | clear => exact moves .send idle (fifos_update .recvCalled bytes) rfl

theorem driver_mirrors (seated : w.Seated) (room : w.driver = .set → w.fifos .recvReady < capacity)
    (step : w.driverSyscall capacity G p msgs interrupted = some (e, w')) :
    Mirrors (driverStep G p msgs) w e w' := by
  rw [HandshakeWorld.driverSyscall] at step
  cases makes : w.driver.call with
  | none =>
      rw [makes] at step
      obtain ⟨⟨x, u⟩, one, same⟩ := Option.map_eq_some_iff.mp step
      obtain ⟨rfl, rfl⟩ := Prod.mk.inj same
      have idle := (makes ▸ seated.driver).idle
      refine .move ⟨?_, seated.receiver⟩ ?_
      · rw [idle]
        trivial
      · rw [one, driverStep_frame makes one]
        rfl
  | some c =>
      rw [makes] at step
      obtain ⟨⟨l, v⟩, serves, same⟩ := Option.map_eq_some_iff.mp step
      obtain ⟨rfl, rfl⟩ := Prod.mk.inj same
      exact driver_behind makes room (serve_other Nat.one_ne_zero serves ▸ seated.receiver)
        (serve_syscall (DriverPc.call_own makes) (makes ▸ seated.driver) serves)

/-- The subscriber behind a system call. -/
theorem receiver_behind {v : EventWorld} {c : EventCall} {r : Option EventResult} {next : ReceiveCall} {polled : Bool}
    {fuel : Nat} (makes : w.receiver.call = some c) (room : w.receiver = .idle → w.fifos .recvCalled < capacity)
    (other : (v.pc 0).Within w.driver.call) (syscall : Syscall capacity w.events 1 c r v) :
    Mirrors (receiveStep U G h next polled fuel) w (w.receiverBehind next r v).1 (w.receiverBehind next r v).2 := by
  have plain (d : ReceivePc) {f : Fifos} (fifos : (fun p => v.bytes p.fd) = f) :
      HandshakeWorld.plain { w with events := v, receiver := d } = { w.plain with fifos := f, receiver := d } := by
    subst fifos
    rfl
  have moves (d : ReceivePc) {f : Fifos} {x : FakeEvent} (idle : v.pc 1 = .idle)
      (fifos : (fun p => v.bytes p.fd) = f) (one : receiveStep U G h next polled fuel w.plain =
        some (x, { w.plain with fifos := f, receiver := d })) :
      Mirrors (receiveStep U G h next polled fuel) w (some x) { w with events := v, receiver := d } := by
    refine .move ⟨other, ?_⟩ ?_
    · rw [idle]
      trivial
    · rw [plain d fifos]
      exact one
  obtain ⟨events, s, driver, receiver, rounds⟩ := w
  cases syscall with
  | silent within bytes => exact .rest ⟨other, makes ▸ within⟩ (plain receiver (fifos_same bytes))
  | set idle adds =>
      cases receiver with
      | wait | clear | recv | poll | dead => cases makes
      | idle =>
          cases makes
          exact moves (.wait next) idle (fifos_update .recvCalled (adds (room rfl))) rfl
  | waited idle some_left bytes =>
      cases receiver with
      | idle | clear | recv | poll | dead => cases makes
      | wait c => exact moves (.clear c) idle (fifos_same bytes) (if_pos some_left)
  | cleared idle bytes =>
      cases receiver with
      | idle | wait | recv | poll | dead => cases makes
      | clear c => exact moves (.recv c (!c.nonBlocking)) idle (fifos_update .recvReady bytes) rfl

theorem receiver_mirrors {next : ReceiveCall} {polled : Bool} {fuel : Nat} (seated : w.Seated)
    (room : w.receiver = .idle → w.fifos .recvCalled < capacity)
    (step : w.receiverSyscall capacity U G h next polled fuel interrupted = some (e, w')) :
    Mirrors (receiveStep U G h next polled fuel) w e w' := by
  rw [HandshakeWorld.receiverSyscall] at step
  cases makes : w.receiver.call with
  | none =>
      rw [makes] at step
      obtain ⟨⟨x, u⟩, one, same⟩ := Option.map_eq_some_iff.mp step
      obtain ⟨rfl, rfl⟩ := Prod.mk.inj same
      have idle := (makes ▸ seated.receiver).idle
      refine .move ⟨seated.driver, ?_⟩ ?_
      · rw [idle]
        trivial
      · rw [one, receiveStep_frame makes one]
        rfl
  | some c =>
      rw [makes] at step
      obtain ⟨⟨l, v⟩, serves, same⟩ := Option.map_eq_some_iff.mp step
      obtain ⟨rfl, rfl⟩ := Prod.mk.inj same
      exact receiver_behind makes room (serve_other Nat.zero_ne_one serves ▸ seated.driver)
        (serve_syscall (ReceivePc.call_own makes) (makes ▸ seated.receiver) serves)

end sides

/-! Runs. -/

section runs
variable {capacity : Nat} {U : UidSource} {G : Segment} {conflate : Nat → Bool} {before : List Event} {s : State}
  {p h id n : Nat} {msgs : Nat → Msg} {past : List (Option FakeEvent)} {w : HandshakeWorld} {w' : FakeWorld}
  {events : List FakeEvent} {unread announced : Bool}

/-- Neither FIFO ever holds more than a byte, and a side that is about to set an event
finds its FIFO empty. -/
theorem InLockstep.bounded (I : InLockstep U G p h id msgs events w' n unread announced) :
    (w'.driver = .set → w'.fifos .recvReady = 0) ∧ (w'.receiver = .idle → w'.fifos .recvCalled = 0) ∧
      ∀ q, w'.fifos q ≤ 1 := by
  have phase := I.phase
  have each (le_called : w'.fifos .recvCalled ≤ 1) (le_ready : w'.fifos .recvReady ≤ 1) (q : EventPurpose) :
      w'.fifos q ≤ 1 := by
    cases q with
    | recvCalled => exact le_called
    | recvReady => exact le_ready
  generalize w'.driver = driver, w'.receiver = receiver, w'.fifos .recvCalled = called,
    w'.fifos .recvReady = ready at phase each ⊢
  cases phase <;> exact ⟨by simp, by simp, each (by decide) (by decide)⟩

/-- No wait raises, and no receive finds the queue empty. -/
theorem InLockstep.alive (I : InLockstep U G p h id msgs events w' n unread announced) :
    w'.receiver ≠ .dead ∧ ∀ c, w'.receiver ≠ .poll c := by
  have phase := I.phase
  generalize w'.receiver = receiver, w'.driver = driver, w'.fifos .recvCalled = called,
    w'.fifos .recvReady = ready at phase ⊢
  cases phase <;> simp

theorem handshake_image (positive : 0 < capacity) (reached : Run (Step U G) (State.fresh conflate) before s)
    (active : isPublisher s.q (s.handle p) = true) (own : Owns s h id) (valid : s.q.readValids id = true)
    (drained : s.q.readPointers id = s.q.writePointer)
    (run : Run (HandshakeStep capacity U G p h msgs) (.start s) past w) :
    w.Seated ∧ Run (FakeStep U G p h msgs) (.start s) past.reduceOption w.plain := by
  have init : (HandshakeWorld.start s).Seated := ⟨trivial, trivial⟩
  refine run.image (f := HandshakeWorld.plain) init ?_
  intro past w e w' image seated step
  obtain ⟨n, unread, announced, I⟩ := inLockstep reached active own valid drained image
  obtain ⟨ready, called, -⟩ := I.bounded
  cases step with
  | driver interrupted one =>
      have M := driver_mirrors seated (fun sets => (ready sets).trans_lt positive) one
      exact ⟨M.seated, M.silent, fun x same => .driver (M.step x same)⟩
  | receiver next polled fuel interrupted one =>
      have M := receiver_mirrors seated (fun idle => (called idle).trans_lt positive) one
      exact ⟨M.seated, M.silent, fun x same => .receiver next polled fuel (M.step x same)⟩
  | tick d => exact ⟨⟨seated.driver, seated.receiver⟩, fun _ => rfl, by simp⟩

theorem driver_stuck (seated : w.Seated) (stuck : w.driverSyscall capacity G p msgs false = none) :
    w.driver = .stopped ∨ w.plain.driverBlocked := by
  rw [HandshakeWorld.driverSyscall] at stuck
  cases makes : w.driver.call with
  | none =>
      rw [makes] at stuck
      have none := Option.map_eq_none_iff.mp stuck
      cases side : w.driver with
      | stopped => exact Or.inl rfl
      | send =>
          simp only [driverStep, HandshakeWorld.plain, side] at none
          split at none <;> cases none
      | wait | clear | set => rw [side] at makes; cases makes
  | some c =>
      rw [makes] at stuck
      obtain ⟨rfl, empty⟩ := serve_stuck (DriverPc.call_own makes) (makes ▸ seated.driver)
        (Option.map_eq_none_iff.mp stuck)
      cases side : w.driver with
      | wait => exact Or.inr ⟨side, empty⟩
      | send | stopped | clear | set => rw [side] at makes; cases makes

theorem receiver_stuck (seated : w.Seated) (I : InLockstep U G p h id msgs events w.plain n unread announced)
    (stuck : ∀ next polled fuel, w.receiverSyscall capacity U G h next polled fuel false = none) :
    w.plain.receiverBlocked := by
  simp only [HandshakeWorld.receiverSyscall] at stuck
  cases makes : w.receiver.call with
  | none =>
      rw [makes] at stuck
      have none : ∀ next polled fuel, receiveStep U G h next polled fuel w.plain = none :=
        fun next polled fuel => Option.map_eq_none_iff.mp (stuck next polled fuel)
      cases side : w.receiver with
      | idle | wait | clear => rw [side] at makes; cases makes
      | poll c => exact absurd side (I.alive.2 c)
      | dead => exact absurd side I.alive.1
      | recv c polls =>
          obtain ⟨fuel, t, -, returns⟩ := I.reads side
          cases (returns c false).symm.trans (none c false fuel)
  | some c =>
      rw [makes] at stuck
      obtain ⟨rfl, empty⟩ := serve_stuck (ReceivePc.call_own makes) (makes ▸ seated.receiver)
        (Option.map_eq_none_iff.mp (stuck ⟨false, false⟩ false 0))
      cases side : w.receiver with
      | wait c => exact ⟨⟨c, side⟩, empty⟩
      | recv | poll | dead | idle | clear => rw [side] at makes; cases makes

/-- Fake-mode lockstep at the level of system calls, whatever signals interrupt them:
without its silent steps, a run is one in which every event call is a single step. No
FIFO ever holds more than a byte, no call raises, and the two come to a stop only where
the driver's own send was refused. -/
theorem handshake_lockstep (positive : 0 < capacity) (reached : Run (Step U G) (State.fresh conflate) before s)
    (active : isPublisher s.q (s.handle p) = true) (own : Owns s h id) (valid : s.q.readValids id = true)
    (drained : s.q.readPointers id = s.q.writePointer)
    (run : Run (HandshakeStep capacity U G p h msgs) (.start s) past w) :
    Run (FakeStep U G p h msgs) (.start s) past.reduceOption w.plain ∧
      receipts past.reduceOption =
        (List.range (receipts past.reduceOption).length).map (fun i => some (msgs i).data) ∧
      (receipts past.reduceOption).length ≤ answers past.reduceOption ∧
      (∀ q, w.fifos q ≤ 1) ∧ w.receiver ≠ .dead ∧
      (w.driverSyscall capacity G p msgs false = none →
        (∀ next polled fuel, w.receiverSyscall capacity U G h next polled fuel false = none) →
          w.driver = .stopped) := by
  obtain ⟨seated, image⟩ := handshake_image positive reached active own valid drained run
  obtain ⟨n, unread, announced, I⟩ := inLockstep reached active own valid drained image
  obtain ⟨received, answered, -, unblocked, -⟩ := I.shows
  refine ⟨image, received, answered, I.bounded.2.2, I.alive.1, ?_⟩
  intro driver receiver
  rcases driver_stuck seated driver with stopped | blocked
  · exact stopped
  · exact absurd ⟨blocked, receiver_stuck seated I receiver⟩ unblocked

end runs

/-! Playing a given order of system calls. -/

inductive HandshakeMove
  | driver (interrupted : Bool)
  | receiver (c : ReceiveCall) (interrupted : Bool)

def HandshakeMove.step (G : Segment) (p h : Nat) (msgs : Nat → Msg) (w : HandshakeWorld) :
    HandshakeMove → Option (Option FakeEvent × HandshakeWorld)
  | .driver interrupted => w.driverSyscall 1 G p msgs interrupted
  | .receiver c interrupted => w.receiverSyscall 1 countingUids G h c true 4 interrupted

theorem HandshakeMove.step_handshakeStep {G : Segment} {p h : Nat} {msgs : Nat → Msg} {w w' : HandshakeWorld}
    {m : HandshakeMove} {e : Option FakeEvent} (one : m.step G p h msgs w = some (e, w')) :
    HandshakeStep 1 countingUids G p h msgs w e w' := by
  cases m with
  | driver interrupted => exact .driver interrupted one
  | receiver c interrupted => exact .receiver c true 4 interrupted one

/-- A round in which a signal interrupts the driver's poll, its write and the subscriber's read. -/
def interruptedRound (c : ReceiveCall) : List HandshakeMove :=
  List.replicate 2 (.receiver c false) ++ List.replicate 2 (.driver false) ++ [.driver true] ++
    List.replicate 7 (.driver false) ++ [.driver true, .driver false] ++ List.replicate 4 (.receiver c false) ++
    [.receiver c true] ++ List.replicate 3 (.receiver c false)

theorem handshake_lockstep_interrupted : ∃ s past w,
    Run (HandshakeStep 1 countingUids tinySegment 0 1 roundMsg) (.start s) past w ∧
    past.length = 44 ∧ receipts past.reduceOption = [some [100], some [101]] ∧
    Run (FakeStep countingUids tinySegment 0 1 roundMsg) (.start s) past.reduceOption w.plain ∧
      receipts past.reduceOption =
        (List.range (receipts past.reduceOption).length).map (fun i => some (roundMsg i).data) ∧
      (receipts past.reduceOption).length ≤ answers past.reduceOption ∧
      (∀ q, w.fifos q ≤ 1) ∧ w.receiver ≠ .dead ∧
      (w.driverSyscall 1 tinySegment 0 roundMsg false = none →
        (∀ next polled fuel, w.receiverSyscall 1 countingUids tinySegment 1 next polled fuel false = none) →
          w.driver = .stopped) := by
  obtain ⟨before, s, -, reached, active, own, valid, drained, plays⟩ := script_shows (fun _ _ => True)
    blankState [.initPublisher 0, .initSubscriber 1]
    (p := fun _ s => isPublisher s.q (s.handle 0) = true ∧ Owns s 1 0 ∧ s.q.readValids 0 = true ∧
      s.q.readPointers 0 = s.q.writePointer ∧
      (perform (HandshakeMove.step tinySegment 0 1 roundMsg) (fun _ _ => True) (.start s)
        (interruptedRound ⟨false, false⟩ ++ interruptedRound ⟨true, false⟩)).any
        (fun r => r.1.length = 44 ∧ receipts r.1.reduceOption = [some [100], some [101]]) = true)
    (by decide +kernel)
  obtain ⟨⟨past, w⟩, ends, shows⟩ := (Option.any_eq_true _ _).mp plays
  have run := (performed ends fun _ _ _ _ => HandshakeMove.step_handshakeStep).mono fun _ _ _ step => step.1
  obtain ⟨steps, got⟩ := of_decide_eq_true shows
  exact ⟨s, past, w, run, steps, got,
    handshake_lockstep Nat.one_pos (run_of_where reached) active own valid drained run⟩

end Msgq
