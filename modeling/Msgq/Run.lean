import Msgq.Queue
import Msgq.Broadcast

/-! Runs of atomic calls on one endpoint whose handles all have the same segment
size, and what is observed of them. -/
namespace Msgq
open ByteMemory FramedRecords Traces

/-- A segment size that `msgq_new_queue` lets through. -/
structure Segment where
  size : Nat
  small : size < 0xFFFFFFFF
  deriving DecidableEq

/-- A nonempty message in a buffer that exists. -/
structure Msg where
  data : Bytes
  nonempty : data ≠ []
  real : Real data.length
  deriving DecidableEq

inductive Event
  | initPublisher (h : Nat)
  | initSubscriber (h : Nat) (evicts : Bool)
  | sent (h : Nat) (m : Msg) (wrapped : Bool)
  | refused (h : Nat) (m : Msg)
  | aborted (h : Nat) (m : Msg)
  | recv (h : Nat) (passes : List Pass)
  | ready (h : Nat) (passes : List ReadyPass)
  deriving DecidableEq

/-- A zeroed segment with unused handles, any of them conflating. -/
def State.fresh (conflate : Nat → Bool) : State where
  q := Queue.zero
  handle h := { readConflate := conflate h }
  drawn := 0

/-- One call. A send assertion that fails kills the sender and leaves the
segment alone; so does a receive assertion, as its last pass shows. -/
inductive Step (U : UidSource) (G : Segment) : State → Event → State → Prop
  | initPublisher (s h) : Step U G s (.initPublisher h) (initPublisher U s h)
  | initSubscriber (s h) : Step U G s (.initSubscriber h (full s.q)) (initSubscriber U s h)
  | sent {s h m q ret signalled} : msgSend G.size s.q (s.handle h) m.data = .sent q ret signalled →
      Step U G s (.sent h m (mustWrap G.size s.q m.data.length)) (s.setQueue q)
  | refused {s h m} : msgSend G.size s.q (s.handle h) m.data = .refused →
      Step U G s (.refused h m) s
  | aborted {s h m} : msgSend G.size s.q (s.handle h) m.data = .aborted →
      Step U G s (.aborted h m) s
  | recv {s h alloc fuel passes t} : msgRecv U G.size alloc h fuel s = some (passes, t) →
      Step U G s (.recv h passes) t
  | ready {s h fuel passes t} : msgReady U h fuel s = some (passes, t) →
      Step U G s (.ready h passes) t

/-- A call, or a send of an empty message that send lets through. -/
inductive AnyEvent
  | call (e : Event)
  | sentEmpty (h : Nat)
  deriving DecidableEq

inductive AnyStep (U : UidSource) (G : Segment) : State → AnyEvent → State → Prop
  | call {s e t} : Step U G s e t → AnyStep U G s (.call e) t
  | sentEmpty {s h q ret signalled} : msgSend G.size s.q (s.handle h) [] = .sent q ret signalled →
      AnyStep U G s (.sentEmpty h) (s.setQueue q)

/-- The handle that makes a call. -/
def Event.caller : Event → Nat
  | .initPublisher h | .initSubscriber h _ | .sent h _ _ | .refused h _ | .aborted h _ | .recv h _
  | .ready h _ => h

/-- Steps that meet a condition on the state before them. -/
def Where (U : UidSource) (G : Segment) (ok : State → Event → Prop) (s : State) (e : Event) (t : State) :
    Prop := Step U G s e t ∧ ok s e

theorem run_of_where {U : UidSource} {G : Segment} {ok : State → Event → Prop} {s t : State}
    {past : List Event} (run : Run (Where U G ok) s past t) : Run (Step U G) s past t :=
  run.mono fun _ _ _ step => step.1

theorem anyRun_of_run {U : UidSource} {G : Segment} {s t : State} {past : List Event} (run : Run (Step U G) s past t) :
    Run (AnyStep U G) s (past.map .call) t := by
  induction run with
  | nil => exact .nil
  | snoc _ one ih =>
      rw [List.map_append]
      exact ih.snoc (.call one)

/-! Executing a call; `fuel` bounds the passes of one receive. -/

inductive Call
  | initPublisher (h : Nat)
  | initSubscriber (h : Nat)
  | send (h : Nat) (m : Msg)
  | recv (h : Nat) (alloc : Bool)
  | ready (h : Nat)

def Call.caller : Call → Nat
  | .initPublisher h | .initSubscriber h | .send h _ | .recv h _ | .ready h => h

def exec (U : UidSource) (G : Segment) (fuel : Nat) (s : State) : Call → Option (Event × State)
  | .initPublisher h => some (.initPublisher h, initPublisher U s h)
  | .initSubscriber h => some (.initSubscriber h (full s.q), initSubscriber U s h)
  | .send h m =>
      match msgSend G.size s.q (s.handle h) m.data with
      | .refused => some (.refused h m, s)
      | .aborted => some (.aborted h m, s)
      | .sent q _ _ => some (.sent h m (mustWrap G.size s.q m.data.length), s.setQueue q)
  | .recv h alloc =>
      (msgRecv U G.size alloc h fuel s).map fun r => (.recv h r.1, r.2)
  | .ready h => (msgReady U h fuel s).map fun r => (.ready h r.1, r.2)

theorem exec_step {U : UidSource} {G : Segment} {fuel : Nat} {s t : State} {c : Call} {e : Event}
    (h : exec U G fuel s c = some (e, t)) : Step U G s e t := by
  cases c with
  | initPublisher h => cases h; exact .initPublisher _ _
  | initSubscriber h => cases h; exact .initSubscriber _ _
  | send h m =>
      simp only [exec] at h
      split at h <;> cases h
      · exact .refused ‹_›
      · exact .aborted ‹_›
      · exact .sent ‹_›
  | recv h alloc =>
      obtain ⟨⟨ps, u⟩, run, same⟩ := Option.map_eq_some_iff.mp h
      cases same
      exact .recv run
  | ready h =>
      obtain ⟨⟨ps, u⟩, run, same⟩ := Option.map_eq_some_iff.mp h
      cases same
      exact .ready run

theorem exec_caller {U : UidSource} {G : Segment} {fuel : Nat} {s t : State} {c : Call} {e : Event}
    (h : exec U G fuel s c = some (e, t)) : e.caller = c.caller := by
  cases c with
  | initPublisher h => cases h; rfl
  | initSubscriber h => cases h; rfl
  | send h m =>
      simp only [exec] at h
      split at h <;> cases h <;> rfl
  | recv h alloc =>
      obtain ⟨r, -, same⟩ := Option.map_eq_some_iff.mp h
      cases same
      rfl
  | ready h =>
      obtain ⟨r, -, same⟩ := Option.map_eq_some_iff.mp h
      cases same
      rfl

/-! Observations of a past. -/

def Event.sent? : Event → Option Bytes
  | .sent _ m _ => some m.data
  | _ => none

/-- The accepted messages, oldest first. -/
def sentOf (past : List Event) : List Bytes := past.filterMap Event.sent?

def Pass.message? : Pass → Option Bytes
  | .message _ m => some m
  | _ => none

def Event.receivedBy (h : Nat) : Event → List Bytes
  | .recv h' passes => if h' = h then passes.filterMap Pass.message? else []
  | _ => []

/-- The messages one subscriber's receive calls returned, oldest first. -/
def receivedBy (h : Nat) (past : List Event) : List Bytes := past.flatMap (Event.receivedBy h)

def Event.wraps : Event → Bool
  | .sent _ _ wrapped => wrapped
  | _ => false

def wrapCount (past : List Event) : Nat := past.countP Event.wraps

/-- The messages of the running lap after a send. -/
def sentLap (wrap : Bool) (lap : List Bytes) (m : Bytes) : List Bytes :=
  if wrap then [m] else lap ++ [m]

def Event.lap (lap : List Bytes) : Event → List Bytes
  | .sent _ m wrapped => sentLap wrapped lap m.data
  | .initPublisher _ | .initSubscriber _ _ | .refused _ _ | .aborted _ _ | .recv _ _ | .ready _ _ => lap

/-- The messages since the last wrap. -/
def sinceWrap (past : List Event) : List Bytes := past.foldl Event.lap []

/-- The abstract log a run stands for: a registration or a reset gives up what
was sent so far, a received message is taken and a skipped one passed over. -/
abbrev Spec := Broadcast.Log Nat Bytes

def Spec.pass (h : Nat) (b : Spec) : Pass → Spec
  | .evicted | .invalid | .lapped _ | .torn _ _ => Broadcast.seek b h
  | .skipped _ _ => Broadcast.skip b h
  | .message _ _ => Broadcast.advance b h
  | .unregistered | .empty | .wrapped _ | .garbage _ | .noMemory _ => b

def Spec.readyPass (h : Nat) (b : Spec) : ReadyPass → Spec
  | .evicted | .invalid => Broadcast.seek b h
  | .unregistered | .answer _ => b

def Spec.event (b : Spec) : Event → Spec
  | .sent _ m _ => Broadcast.push b m.data
  | .initSubscriber h _ => Broadcast.seek b h
  | .recv h passes => passes.foldl (Spec.pass h) b
  | .ready h passes => passes.foldl (Spec.readyPass h) b
  | .initPublisher _ | .refused _ _ | .aborted _ _ => b

def spec (past : List Event) : Spec := past.foldl Spec.event Broadcast.empty

@[simp] theorem sentOf_nil : sentOf [] = [] := rfl

@[simp] theorem sentOf_append (xs ys : List Event) : sentOf (xs ++ ys) = sentOf xs ++ sentOf ys :=
  List.filterMap_append

@[simp] theorem sentOf_singleton (e : Event) : sentOf [e] = e.sent?.toList := by
  cases he : e.sent? <;> simp [sentOf, he]

@[simp] theorem receivedBy_append (h : Nat) (xs ys : List Event) :
    receivedBy h (xs ++ ys) = receivedBy h xs ++ receivedBy h ys := List.flatMap_append

@[simp] theorem receivedBy_singleton (h : Nat) (e : Event) :
    receivedBy h [e] = e.receivedBy h := by simp [receivedBy]

@[simp] theorem wrapCount_append (xs ys : List Event) :
    wrapCount (xs ++ ys) = wrapCount xs + wrapCount ys := List.countP_append

theorem sinceWrap_append (past : List Event) (e : Event) :
    sinceWrap (past ++ [e]) = e.lap (sinceWrap past) := by
  simp [sinceWrap]

theorem Event.lap_silent {e : Event} (silent : e.sent? = none) (lap : List Bytes) : e.lap lap = lap := by
  cases e with
  | sent => cases silent
  | _ => rfl

theorem sentLap_ne_nil (wrap : Bool) (lap : List Bytes) (m : Bytes) : sentLap wrap lap m ≠ [] := by
  cases wrap <;> simp [sentLap]

/-- A lap that something was sent in is not empty. -/
theorem sinceWrap_ne_nil {past : List Event} (h : sentOf past ≠ []) : sinceWrap past ≠ [] := by
  induction past using List.reverseRecOn with
  | nil => exact absurd rfl h
  | append_singleton past e ih =>
      rw [sinceWrap_append]
      cases e with
      | sent h m wrapped => exact sentLap_ne_nil wrapped _ m.data
      | _ => exact ih (by simpa [Event.sent?] using h)

theorem spec_append (xs : List Event) (e : Event) : spec (xs ++ [e]) = Spec.event (spec xs) e := by
  simp [spec]

theorem Spec.passes_sent (h : Nat) (b : Spec) (passes : List Pass) :
    (passes.foldl (Spec.pass h) b).sent = b.sent := by
  induction passes generalizing b with
  | nil => rfl
  | cons p ps ih => rw [List.foldl_cons, ih]; cases p <;> rfl

theorem Spec.readyPasses_sent (h : Nat) (b : Spec) (passes : List ReadyPass) :
    (passes.foldl (Spec.readyPass h) b).sent = b.sent := by
  induction passes generalizing b with
  | nil => rfl
  | cons p ps ih => rw [List.foldl_cons, ih]; cases p <;> rfl

/-- What one reader does changes nothing for the others. -/
theorem Spec.pass_same {h h' : Nat} (ne : h' ≠ h) (b : Spec) (p : Pass) :
    Broadcast.SameFor b (Spec.pass h b p) h' := by
  cases p with
  | evicted | invalid | lapped | torn => exact Broadcast.seek_same b ne
  | skipped => exact Broadcast.skip_same b ne
  | message => exact Broadcast.advance_same b ne
  | unregistered | empty | wrapped | garbage | noMemory => exact .rfl

theorem Spec.readyPass_same {h h' : Nat} (ne : h' ≠ h) (b : Spec) (p : ReadyPass) :
    Broadcast.SameFor b (Spec.readyPass h b p) h' := by
  cases p with
  | evicted | invalid => exact Broadcast.seek_same b ne
  | unregistered | answer => exact .rfl

theorem Spec.passes_same {h h' : Nat} (ne : h' ≠ h) (b : Spec) (passes : List Pass) :
    Broadcast.SameFor b (passes.foldl (Spec.pass h) b) h' := by
  induction passes generalizing b with
  | nil => exact .rfl
  | cons p ps ih => exact (Spec.pass_same ne b p).trans (ih _)

theorem Spec.readyPasses_same {h h' : Nat} (ne : h' ≠ h) (b : Spec) (passes : List ReadyPass) :
    Broadcast.SameFor b (passes.foldl (Spec.readyPass h) b) h' := by
  induction passes generalizing b with
  | nil => exact .rfl
  | cons p ps ih => exact (Spec.readyPass_same ne b p).trans (ih _)

/-- The log of a run is its accepted messages. -/
theorem spec_sent (past : List Event) : (spec past).sent = sentOf past := by
  induction past using List.reverseRecOn with
  | nil => rfl
  | append_singleton past e ih =>
      rw [spec_append, sentOf_append, ← ih]
      cases e with
      | sent h m w => simp [Spec.event, Event.sent?]
      | recv h ps => simp [Spec.event, Spec.passes_sent, Event.sent?]
      | ready h ps => simp [Spec.event, Spec.readyPasses_sent, Event.sent?]
      | _ => simp [Spec.event, Event.sent?]

/-! A small endpoint to run calls on: three records of sixteen bytes fill it. -/

def countingUids : UidSource where
  draw n := n + 1
  distinct := Nat.succ_injective
  nonzero := Nat.succ_ne_zero

def tinySegment : Segment := ⟨48, by decide⟩

def byteMsg (b : UInt8) : Msg where
  data := [b]
  nonempty := List.cons_ne_nil b []
  real := by
    change 3 * (1 + 15) < 2 ^ 64
    decide

def filledMsg (n : Nat) (b : UInt8) (small : 3 * (n + 1 + 15) < 2 ^ 64) : Msg where
  data := b :: List.replicate n 0
  nonempty := List.cons_ne_nil _ _
  real := by
    rw [List.length_cons, List.length_replicate]
    exact small

theorem eight_bytes_small : 3 * (7 + 1 + 15) < 2 ^ 64 := by decide

theorem nine_bytes_small : 3 * (8 + 1 + 15) < 2 ^ 64 := by decide

def blankState : State := State.fresh fun _ => false

/-- A publisher and a subscriber on the small endpoint. -/
def attendedState : State := initSubscriber countingUids (initPublisher countingUids blankState 0) 1

/-- The calls of a script, on the small endpoint. -/
def script (ok : State → Event → Prop) [∀ s e, Decidable (ok s e)] (start : State) (cs : List Call) :
    Option (List Event × State) := perform (exec countingUids tinySegment 4) ok start cs

/-- Messages that are received before the next is sent. -/
def inTurns (n : Nat) : List Call :=
  (List.range n).flatMap fun i => [.send 0 (byteMsg (UInt8.ofNat i)), .recv 1 true]

theorem script_shows (ok : State → Event → Prop) [∀ s e, Decidable (ok s e)] (start : State)
    (cs : List Call) {p : List Event → State → Prop} [∀ es s, Decidable (p es s)]
    (h : (script ok start cs).any (fun r => p r.1 r.2) = true) :
    ∃ past s, script ok start cs = some (past, s) ∧
      Run (Where countingUids tinySegment ok) start past s ∧ p past s := by
  obtain ⟨⟨past, s⟩, ends, shows⟩ := (Option.any_eq_true _ _).mp h
  exact ⟨past, s, ends, performed ends fun _ _ _ _ => exec_step, of_decide_eq_true shows⟩

end Msgq
