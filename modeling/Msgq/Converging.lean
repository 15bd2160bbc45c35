import Mathlib.Algebra.BigOperators.Group.List.Basic
import Mathlib.Data.Finset.Card
import Msgq.Drained
import Msgq.Trails

/-! How evictions come to an end. An eviction throws out the live and the dead;
the live register again one by one, and there is room for all of them. -/
namespace Msgq
open Traces

def ReadyPass.registers : ReadyPass → Bool
  | .evicted => true
  | .unregistered | .invalid | .answer _ => false

/-- Whether the evict-all branch runs in a pass that registers. -/
def evictsAll {π : Type} (registers : π → Bool) (s : State) (k : π) : Bool := registers k && full s.q

/-- What one call did to the slots: how often its handle registered, and how
often the evict-all branch ran. -/
inductive Turn
  | send
  | call (h registrations evictions : Nat)

def AnyEvent.isSend : AnyEvent → Bool
  | .call (.sent _ _ _) | .call (.refused _ _) | .call (.aborted _ _) | .sentEmpty _ => true
  | .call _ => false

/-- Sends, and receives and readys of the handles that are still live. -/
inductive LiveStep (U : UidSource) (G : Segment) (live : Finset Nat) : State → Turn → State → Prop
  | send {s e t} : AnyStep U G s e t → e.isSend = true → LiveStep U G live s .send t
  | recv {s h alloc fuel passes t} : h ∈ live → msgRecv U G.size alloc h fuel s = some (passes, t) →
      LiveStep U G live s (.call h (passes.countP Pass.registers)
        (loopCount (recvPass U G.size alloc h) Pass.again (evictsAll Pass.registers) fuel s)) t
  | ready {s h fuel passes t} : h ∈ live → msgReady U h fuel s = some (passes, t) →
      LiveStep U G live s (.call h (passes.countP ReadyPass.registers)
        (loopCount (readyPass U h) ReadyPass.again (evictsAll ReadyPass.registers) fuel s)) t

namespace Turn

def evictions : Turn → Nat
  | .send => 0
  | .call _ _ n => n

def registrations (h : Nat) : Turn → Nat
  | .send => 0
  | .call h' n _ => if h' = h then n else 0

def caller? : Turn → Option Nat
  | .send => none
  | .call h _ _ => some h

end Turn

def evictions (past : List Turn) : Nat := (past.map Turn.evictions).sum

def registrations (h : Nat) (past : List Turn) : Nat := (past.map (Turn.registrations h)).sum

@[simp] theorem evictions_snoc (past : List Turn) (e : Turn) : evictions (past ++ [e]) = evictions past + e.evictions := by
  simp [evictions]

@[simp] theorem registrations_snoc (h : Nat) (past : List Turn) (e : Turn) :
    registrations h (past ++ [e]) = registrations h past + e.registrations h := by
  simp [registrations]

/-! One call. -/

/-- The passes of a call as far as slots go: an owner's pass leaves the registry
alone, and a pass of a handle without a slot registers it. -/
structure Registering {π : Type} (U : UidSource) (h : Nat) (pass : State → π × State) (again registers : π → Bool) :
    Prop where
  owner : ∀ s id, Owns s h id → registers (pass s).1 = false ∧ SameRegistry s (pass s).2
  slotless : ∀ s id, (s.handle h).readerId = some id → Slotless s h →
    pass s = ((pass s).1, initSubscriber U s h) ∧ registers (pass s).1 = true ∧ again (pass s).1 = true

/-- All that a step does to the slots. -/
inductive SlotStep (U : UidSource) (live : Finset Nat) (s : State) : Turn → State → Prop
  | send {t} : SameRegistry s t → SlotStep U live s .send t
  | keeps {h t} : h ∈ live → ¬ Slotless s h → SameRegistry s t → SlotStep U live s (.call h 0 0) t
  | registers {h t} : h ∈ live → Slotless s h → SameRegistry (initSubscriber U s h) t →
      SlotStep U live s (.call h 1 (if full s.q then 1 else 0)) t

section calls
variable {U : UidSource} {G : Segment} {π : Type} {size h h' id fuel : Nat} {s t : State} {alloc : Bool}
  {pass : State → π × State} {again registers : π → Bool} {ks : List π}

theorem OnePass.sameRegistry (one : OnePass U h s t) (own : Owns s h id) : SameRegistry s t := by
  cases one with
  | stay => exact .rfl
  | register registered differ =>
      obtain rfl := Option.some.inj (own.1.symm.trans registered)
      exact absurd own.2 differ
  | reset => exact sameRegistry_resetReader s _
  | move => exact sameRegistry_setReadPointer s _ _

theorem registering_recv : Registering U h (recvPass U size alloc h) Pass.again Pass.registers where
  owner s id own := by
    refine ⟨?_, (recvPass_onePass s).sameRegistry own⟩
    rw [recvPass, own.1]
    dsimp only
    rw [if_neg (not_not.mpr own.2)]
    split_ifs <;> rfl
  slotless s id registered none := by
    rw [recvPass_evicted registered (none id registered)]
    exact ⟨rfl, rfl, rfl⟩

theorem registering_ready : Registering U h (readyPass U h) ReadyPass.again ReadyPass.registers where
  owner s id own := by
    refine ⟨?_, (readyPass_onePass s).sameRegistry own⟩
    rw [readyPass, own.1]
    dsimp only
    rw [if_neg (not_not.mpr own.2)]
    split <;> rfl
  slotless s id registered none := by
    have one : readyPass U h s = (.evicted, initSubscriber U s h) := by
      rw [readyPass, registered]
      exact if_pos (none id registered)
    rw [one]
    exact ⟨rfl, rfl, rfl⟩

/-- A call of an owner leaves the registry alone. -/
theorem Registering.keeps (P : Registering U h pass again registers) (own : Owns s h id)
    (run : loop pass again fuel s = some (ks, t)) : ks.countP registers = 0 ∧
      loopCount pass again (evictsAll registers) fuel s = 0 ∧ SameRegistry s t := by
  induction fuel generalizing s ks with
  | zero => cases run
  | succ fuel ih =>
      obtain ⟨none, same⟩ := P.owner s id own
      have quiet : evictsAll registers s (pass s).1 = false := by rw [evictsAll, none, Bool.false_and]
      rw [loop] at run
      rw [loopCount, quiet, if_neg Bool.false_ne_true, Nat.zero_add]
      split_ifs at run with more
      · obtain ⟨⟨rest, u⟩, inner, eq⟩ := Option.map_eq_some_iff.mp run
        cases eq
        obtain ⟨fewer, silent, same'⟩ := ih (same.owns.mpr own) inner
        rw [if_pos more, List.countP_cons_of_neg (by simp [none])]
        exact ⟨fewer, silent, same.trans same'⟩
      · cases run
        rw [if_neg more]
        exact ⟨by simp [none], rfl, same⟩

/-- A call of a handle without a slot registers it once, and evicts all readers
when no slot is free. -/
theorem Registering.registers_once (P : Registering U h pass again registers)
    (registered : (s.handle h).readerId = some id) (none : Slotless s h)
    (run : loop pass again fuel s = some (ks, t)) : ks.countP registers = 1 ∧
      loopCount pass again (evictsAll registers) fuel s = (if full s.q then 1 else 0) ∧
        SameRegistry (initSubscriber U s h) t := by
  obtain ⟨one, yes, more⟩ := P.slotless s id registered none
  cases fuel with
  | zero => cases run
  | succ fuel =>
      rw [loop, if_pos more] at run
      obtain ⟨⟨rest, u⟩, inner, eq⟩ := Option.map_eq_some_iff.mp run
      cases eq
      rw [one] at inner
      obtain ⟨fewer, silent, same⟩ := P.keeps (initSubscriber_owns s h) inner
      rw [loopCount, if_pos more, evictsAll, yes, Bool.true_and, one, silent, List.countP_cons_of_pos yes, fewer]
      exact ⟨rfl, rfl, same⟩

variable {live : Finset Nat} {e : Turn}

theorem not_slotless : ¬ Slotless s h ↔ ∃ id, Owns s h id := by
  constructor
  · intro owner
    by_contra none
    exact owner fun id registered same => none ⟨id, registered, same⟩
  · rintro ⟨id, own⟩ none
    exact none.no_owner own

theorem Registering.slotStep (P : Registering U h pass again registers) (mem : h ∈ live)
    (registered : (s.handle h).readerId = some id) (run : loop pass again fuel s = some (ks, t)) :
    SlotStep U live s (.call h (ks.countP registers) (loopCount pass again (evictsAll registers) fuel s)) t := by
  by_cases none : Slotless s h
  · obtain ⟨once, evicted, same⟩ := P.registers_once registered none run
    rw [once, evicted]
    exact .registers mem none same
  · obtain ⟨id', own⟩ := not_slotless.mp none
    obtain ⟨never, silent, same⟩ := P.keeps own run
    rw [never, silent]
    exact .keeps mem none same

theorem AnyStep.sameRegistry {e : AnyEvent} (step : AnyStep U G s e t) (send : e.isSend = true) : SameRegistry s t := by
  cases step with
  | @sentEmpty h q ret signalled accepted =>
      obtain ⟨-, -, rfl, -⟩ := msgSend_accepted accepted
      exact sameRegistry_sendQueue G.size s []
  | call one =>
      cases one with
      | @sent h m q ret signalled accepted =>
          obtain ⟨-, rfl, -⟩ := msgSend_sent accepted
          exact sameRegistry_sendQueue G.size s m.data
      | refused | aborted => exact .rfl
      | initPublisher | initSubscriber | recv | ready => cases send

theorem LiveStep.slots (step : LiveStep U G live s e t)
    (registered : ∀ h ∈ live, ∃ id, (s.handle h).readerId = some id) : SlotStep U live s e t := by
  cases step with
  | send one isSend => exact .send (one.sameRegistry isSend)
  | @recv h alloc fuel passes t mem run =>
      obtain ⟨id, reader⟩ := registered h mem
      exact registering_recv.slotStep mem reader run
  | @ready h fuel passes t mem run =>
      obtain ⟨id, reader⟩ := registered h mem
      exact registering_ready.slotStep mem reader run

end calls

/-! The invariant. -/

/-- The live handles that own a slot. -/
def owners (live : Finset Nat) (s : State) : Finset Nat := live.filter fun h => ¬ Slotless s h

/-- A handle has registered at most once for each eviction, and once more only if
it owns a slot now; behind an eviction only the live own slots. -/
structure Converging (U : UidSource) (live : Finset Nat) (past : List Turn) (s : State) : Prop where
  registry : Registry U s
  registered : ∀ h ∈ live, ∃ id, (s.handle h).readerId = some id
  once : evictions past ≤ 1
  owner : ∀ h, registrations h past ≤ evictions past + 1
  slotless : ∀ h, Slotless s h → registrations h past ≤ evictions past
  room : evictions past = 1 → s.q.numReaders ≤ (owners live s).card

section convergence
variable {U : UidSource} {G : Segment} {live : Finset Nat} {past : List Turn} {s t : State} {e : Turn} {h h' id : Nat}

theorem SameRegistry.slotless (same : SameRegistry s t) : Slotless t h ↔ Slotless s h := by
  unfold Slotless
  rw [same.handle, same.readUids]

theorem SameRegistry.owners (same : SameRegistry s t) : owners live t = owners live s := by
  unfold Msgq.owners
  simp only [same.slotless]

/-- With a slot free, a registration leaves the other owners alone. -/
theorem slotless_initSubscriber_room (R : Registry U s) (room : full s.q = false) (ne : h' ≠ h) :
    Slotless (initSubscriber U s h) h' ↔ Slotless s h' := by
  rw [← not_iff_not, not_slotless, not_slotless]
  constructor
  · rintro ⟨id, own⟩
    exact ⟨id, (initSubscriber_owner_ne R.roster ne own).1⟩
  · rintro ⟨id, own⟩
    have other : id ≠ newSlot s.q := by
      have below := R.below h' id own
      simp only [newSlot, room, Bool.false_eq_true, if_false]
      exact below.ne
    refine ⟨id, ?_, ?_⟩
    · rw [initSubscriber_handle_ne s ne]
      exact own.1
    · rw [initSubscriber_handle_ne s ne, (initSubscriber_room s h room other).1]
      exact own.2

theorem not_slotless_initSubscriber (s : State) (h : Nat) : ¬ Slotless (initSubscriber U s h) h :=
  not_slotless.mpr ⟨_, initSubscriber_owns s h⟩

theorem owners_initSubscriber_room (R : Registry U s) (room : full s.q = false) (mem : h ∈ live) :
    owners live (initSubscriber U s h) = insert h (owners live s) := by
  ext h'
  by_cases same : h' = h
  · subst same
    simp [owners, mem, not_slotless_initSubscriber]
  · simp [owners, same, slotless_initSubscriber_room R room same]

/-- Behind an eviction the live own all slots, so none is full while one of them has no slot. -/
theorem Converging.first_eviction (K : Converging U live past s) (few : live.card ≤ NUM_READERS) (mem : h ∈ live)
    (none : Slotless s h) (isFull : full s.q = true) : evictions past = 0 := by
  have fewer : (owners live s).card < live.card :=
    Finset.card_lt_card (Finset.filter_ssubset.mpr ⟨h, mem, not_not.mpr none⟩)
  have once := K.once
  by_contra before
  have := K.room (by omega)
  rw [full, decide_eq_true_iff] at isFull
  omega

/-- Where an eviction has been, the live own all slots behind a registration too. -/
theorem Converging.fills (K : Converging U live past s) (mem : h ∈ live) (none : Slotless s h)
    (evicted : evictions past + (if full s.q then 1 else 0) = 1) :
    (initSubscriber U s h).q.numReaders ≤ (owners live (initSubscriber U s h)).card := by
  rw [initSubscriber_numReaders]
  cases isFull : full s.q with
  | true =>
      have slot : newSlot s.q = 0 := by simp [newSlot, isFull]
      rw [slot]
      exact Finset.card_pos.mpr ⟨h, by simp [owners, mem, not_slotless_initSubscriber]⟩
  | false =>
      have slot : newSlot s.q = s.q.numReaders := by simp [newSlot, isFull]
      have apart : h ∉ owners live s := by simp [owners, none]
      rw [isFull] at evicted
      rw [slot, owners_initSubscriber_room K.registry isFull mem, Finset.card_insert_of_notMem apart]
      exact Nat.succ_le_succ (K.room evicted)

/-- A registration keeps the invariant. -/
theorem Converging.register (K : Converging U live past s) (few : live.card ≤ NUM_READERS) (mem : h ∈ live)
    (none : Slotless s h) (same : SameRegistry (initSubscriber U s h) t) :
    Converging U live (past ++ [.call h 1 (if full s.q then 1 else 0)]) t := by
  have counted : ∀ h', registrations h' (past ++ [.call h 1 (if full s.q then 1 else 0)]) =
      registrations h' past + if h = h' then 1 else 0 := fun _ => registrations_snoc _ _ _
  have evicted : evictions (past ++ [.call h 1 (if full s.q then 1 else 0)]) =
      evictions past + if full s.q then 1 else 0 := evictions_snoc _ _
  refine ⟨(initSubscriber_registry K.registry h).congr same, ?_, ?_, ?_, ?_, ?_⟩
  · intro h' mem'
    rw [same.handle]
    by_cases mine : h' = h
    · rw [mine]
      exact ⟨_, initSubscriber_readerId s h⟩
    · rw [initSubscriber_handle_ne s mine]
      exact K.registered h' mem'
  · rw [evicted]
    split_ifs with isFull
    · rw [K.first_eviction few mem none isFull]
    · exact K.once
  · intro h'
    rw [counted, evicted]
    by_cases mine : h = h'
    · subst mine
      have before := K.slotless h none
      rw [if_pos rfl]
      omega
    · rw [if_neg mine]
      exact (K.owner h').trans (by omega)
  · intro h' none'
    rw [same.slotless] at none'
    have mine : h' ≠ h := by
      rintro rfl
      exact not_slotless_initSubscriber s h' none'
    rw [counted, evicted, if_neg mine.symm, Nat.add_zero]
    cases isFull : full s.q with
    | true => exact K.owner h'
    | false => exact K.slotless h' ((slotless_initSubscriber_room K.registry isFull mine).mp none')
  · intro evictedOnce
    rw [evicted] at evictedOnce
    rw [same.owners, same.numReaders]
    exact K.fills mem none evictedOnce

/-- What leaves the registry alone keeps the invariant. -/
theorem Converging.same (K : Converging U live past s) (same : SameRegistry s t) (quiet : e.evictions = 0)
    (silent : ∀ h, e.registrations h = 0) : Converging U live (past ++ [e]) t := by
  refine ⟨K.registry.congr same, ?_, ?_, ?_, ?_, ?_⟩
  · rw [same.handle]
    exact K.registered
  · rw [evictions_snoc, quiet]
    exact K.once
  · intro h
    rw [registrations_snoc, silent, evictions_snoc, quiet]
    exact K.owner h
  · intro h none
    rw [registrations_snoc, silent, evictions_snoc, quiet]
    exact K.slotless h (same.slotless.mp none)
  · rw [evictions_snoc, quiet, same.numReaders, same.owners]
    exact K.room

theorem Converging.step (K : Converging U live past s) (few : live.card ≤ NUM_READERS)
    (step : LiveStep U G live s e t) : Converging U live (past ++ [e]) t := by
  cases step.slots K.registered with
  | send same => exact K.same same rfl fun _ => rfl
  | keeps mem owner same => exact K.same same rfl fun _ => by simp [Turn.registrations]
  | registers mem none same => exact K.register few mem none same

theorem Converging.run {more : List Turn} (K : Converging U live past s) (few : live.card ≤ NUM_READERS)
    (run : Run (LiveStep U G live) s more t) : Converging U live (past ++ more) t := by
  induction run with
  | nil => rwa [List.append_nil]
  | snoc _ one ih =>
      rw [← List.append_assoc]
      exact ih.step few one

/-- The handle of a call owns a slot behind it, and so do the owners before it
unless the call evicts. -/
theorem SlotStep.owner (step : SlotStep U live s e t) (R : Registry U s) :
    (e.caller? = some h → ¬ Slotless t h) ∧ (e.evictions = 0 → ¬ Slotless s h → ¬ Slotless t h) := by
  cases step with
  | send same =>
      rw [same.slotless]
      exact ⟨fun caller => (Option.some_ne_none _ caller.symm).elim, fun _ => id⟩
  | keeps mem owner same =>
      rw [same.slotless]
      refine ⟨fun caller => ?_, fun _ => id⟩
      cases caller
      exact owner
  | @registers h' t mem none same =>
      rw [same.slotless]
      constructor
      · intro caller
        cases caller
        exact not_slotless_initSubscriber s h
      · intro quiet owner
        by_cases mine : h = h'
        · rw [mine]
          exact not_slotless_initSubscriber s h'
        · have room : full s.q = false := by
            cases isFull : full s.q with
            | true => simp [Turn.evictions, isFull] at quiet
            | false => rfl
          rwa [slotless_initSubscriber_room R room mine]

/-- Behind the last eviction, who has called owns a slot. -/
theorem Converging.settles {rest : List Turn} (K : Converging U live past s) (few : live.card ≤ NUM_READERS)
    (run : Run (LiveStep U G live) s rest t) (quiet : evictions rest.tail = 0)
    (called : ∃ e ∈ rest, e.caller? = some h) : ¬ Slotless t h := by
  induction run with
  | nil =>
      obtain ⟨e, mem, -⟩ := called
      cases mem
  | @snoc rest u e v run one ih =>
      have K' := K.run few run
      obtain ⟨calls, keeps⟩ := (one.slots K'.registered).owner (h := h) K'.registry
      obtain ⟨c, mem, caller⟩ := called
      rcases List.mem_append.mp mem with before | last
      · have nonempty : rest ≠ [] := List.ne_nil_of_mem before
        rw [List.tail_append_of_ne_nil nonempty, evictions_snoc] at quiet
        exact keeps (by omega) (ih (by omega) ⟨c, before, caller⟩)
      · rw [List.mem_singleton] at last
        exact calls (last ▸ caller)

/-- Where all live handles own a slot, the slots stay as they are. -/
theorem Converging.settled {more : List Turn} (K : Converging U live past s) (few : live.card ≤ NUM_READERS)
    (all : ∀ h ∈ live, ¬ Slotless s h) (run : Run (LiveStep U G live) s more t) : SameRegistry s t := by
  induction run with
  | nil => exact .rfl
  | snoc run one ih =>
      have K' := K.run few run
      cases one.slots K'.registered with
      | send same => exact ih.trans same
      | keeps _ _ same => exact ih.trans same
      | registers mem none => exact absurd (ih.slotless.mp none) (all _ mem)

/-- Evictions come to an end. With room for all live handles the evict-all branch
runs at most once more, nobody registers more than twice, and once every live
handle has called behind the last eviction, all of them own slots of their own for good. -/
theorem evictions_converge {conflate : Nat → Bool} {before : List AnyEvent}
    (reached : Run (AnyStep U G) (State.fresh conflate) before s) (few : live.card ≤ NUM_READERS)
    (registered : ∀ h ∈ live, ∃ id, (s.handle h).readerId = some id) (run : Run (LiveStep U G live) s past t) :
    evictions past ≤ 1 ∧ (∀ h, registrations h past ≤ 2) ∧
      ∀ first rest, past = first ++ rest → evictions rest.tail = 0 →
        (∀ h ∈ live, ∃ e ∈ rest, e.caller? = some h) →
        (∀ h ∈ live, ∃ id < t.q.numReaders, Owns t h id) ∧
        (∀ h h' id, Owns t h id → Owns t h' id → h = h') ∧
        ∀ more u, Run (LiveStep U G live) t more u →
          u.q.readUids = t.q.readUids ∧ ∀ h id, Owns u h id ↔ Owns t h id := by
  have R : Registry U s := reached.invariant (I := fun _ s => Registry U s) (registry_fresh U conflate)
    fun _ _ _ _ _ R step => R.anyStep step
  have start : Converging U live [] s :=
    ⟨R, registered, Nat.zero_le 1, fun _ => Nat.zero_le 1, fun _ _ => Nat.le_refl 0, fun none => by cases none⟩
  have K := start.run few run
  rw [List.nil_append] at K
  have once := K.once
  refine ⟨once, fun h => (K.owner h).trans (by omega), ?_⟩
  rintro first rest rfl quiet called
  obtain ⟨u, early, late⟩ := run.split
  have K' := start.run few early
  have all : ∀ h ∈ live, ¬ Slotless t h := fun h mem => K'.settles few late quiet (called h mem)
  refine ⟨?_, fun h h' id => K.registry.roster.owner_unique, ?_⟩
  · intro h mem
    obtain ⟨id, own⟩ := not_slotless.mp (all h mem)
    exact ⟨id, K.registry.below h id own, own⟩
  · intro more v on
    have same := K.settled few all on
    exact ⟨same.readUids, fun h id => same.owns⟩

end convergence

/-- Two handles and, behind them, so many others that both are evicted and no slot is free. -/
def crowdingCalls : List Call := (List.range 50).map fun i => .initSubscriber (i + 1)

theorem evictions_converge_crowded : ∃ s past t, Run (LiveStep countingUids tinySegment {1, 2}) s past t ∧
    (evictions past = 1 ∧ past.map Turn.caller? = [some 1, some 2]) ∧
    evictions past ≤ 1 ∧ (∀ h, registrations h past ≤ 2) ∧
      ∀ first rest, past = first ++ rest → evictions rest.tail = 0 →
        (∀ h ∈ ({1, 2} : Finset Nat), ∃ e ∈ rest, e.caller? = some h) →
        (∀ h ∈ ({1, 2} : Finset Nat), ∃ id < t.q.numReaders, Owns t h id) ∧
        (∀ h h' id, Owns t h id → Owns t h' id → h = h') ∧
        ∀ more u, Run (LiveStep countingUids tinySegment {1, 2}) t more u →
          u.q.readUids = t.q.readUids ∧ ∀ h id, Owns u h id ↔ Owns t h id := by
  obtain ⟨before, s, -, run, reader, reader', goes⟩ := script_shows (fun _ _ => True) blankState crowdingCalls
    (p := fun _ s => (s.handle 1).readerId = some 0 ∧ (s.handle 2).readerId = some 1 ∧
      ((msgRecv countingUids tinySegment.size true 1 2 s).any fun r =>
        loopCount (recvPass countingUids tinySegment.size true 1) Pass.again (evictsAll Pass.registers) 2 s = 1 ∧
        (msgReady countingUids 2 2 r.2).any fun _ =>
          loopCount (readyPass countingUids 2) ReadyPass.again (evictsAll ReadyPass.registers) 2 r.2 = 0) = true)
    (by decide +kernel)
  obtain ⟨⟨passes, u⟩, first, shows⟩ := (Option.any_eq_true _ _).mp goes
  obtain ⟨evicts, more⟩ := of_decide_eq_true shows
  obtain ⟨⟨passes', t⟩, second, last⟩ := (Option.any_eq_true _ _).mp more
  have spares := of_decide_eq_true last
  have received : LiveStep countingUids tinySegment {1, 2} s _ u := .recv (by decide) first
  have turns := (Run.nil.snoc received).snoc (.ready (by decide) second)
  refine ⟨s, _, t, turns, ⟨?_, rfl⟩, ?_⟩
  · simp only [evictions, List.nil_append, List.map_append, List.map_cons, List.map_nil, Turn.evictions, evicts, spares]
    rfl
  · refine evictions_converge (anyRun_of_run (run_of_where run)) (by decide) ?_ turns
    intro h mem
    rcases Finset.mem_insert.mp mem with rfl | one
    · exact ⟨_, reader⟩
    · exact ⟨_, Finset.mem_singleton.mp one ▸ reader'⟩

end Msgq
