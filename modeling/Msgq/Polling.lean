import Mathlib.Algebra.BigOperators.Group.List.Basic
import Msgq.Run

/-! Waiting for messages on several queues. A poll checks every item, sleeps
unless one was ready, and checks again; a signal ends a sleep early and leaves
the time that remained in the request. -/
namespace Msgq
open Traces

/-- `q` names an endpoint and a handle on it; `revents` is nonzero. -/
structure PollItem where
  q : Nat × Nat
  revents : Bool
  deriving DecidableEq

structure Timespec where
  sec : Nat
  nsec : Nat
  deriving DecidableEq

/-- In nanoseconds. -/
def Timespec.total (ts : Timespec) : Nat := ts.sec * 1000000000 + ts.nsec

/-- A time in milliseconds. -/
def Timespec.ofMs (ms : Nat) : Timespec := ⟨ms / 1000, ms % 1000 * 1000 * 1000⟩

/-- The timeout is `-1` or not negative. -/
def pollMs (timeout : Int) : Nat := if timeout = -1 then 100 else timeout.toNat

/-- Where `msgq_poll` stands: in the first pass over the items, before a sleep, in
the pass behind a sleep that returned `ret`, or at its end. -/
inductive PollPc
  | first
  | sleep
  | again (ret : Int)
  | returned
  deriving DecidableEq

/-- `items` are those the running pass has gone over, `rest` those before it. -/
structure Poll where
  pc : PollPc
  items : List PollItem
  rest : List PollItem
  num : Nat
  ts : Timespec
  deriving DecidableEq

/-- The whole array. -/
def Poll.polls (p : Poll) : List PollItem := p.items ++ p.rest

/-- Back to the head of the sleeping loop. -/
def Poll.head (p : Poll) : Poll :=
  { p with pc := if p.num = 0 then .sleep else .returned, items := [], rest := p.items ++ p.rest }

/-- The end of a pass, once no item is left. -/
def Poll.endPass (timeout : Int) (p : Poll) : Poll :=
  match p.rest, p.pc with
  | [], .first => p.head
  | [], .again ret =>
      if timeout ≠ -1 ∧ ret = 0 then { p with pc := .returned, items := [], rest := p.items } else p.head
  | _, _ => p

def Poll.start (items : List PollItem) (timeout : Int) : Poll :=
  Poll.endPass timeout ⟨.first, [], items, 0, .ofMs (pollMs timeout)⟩

/-- The segments of the endpoints and the running call. -/
structure PollWorld where
  endpoint : Nat → State
  poll : Poll

inductive PollEvent
  | elsewhere (i : Nat) (e : AnyEvent)
  | checked (i : Nat) (ready : Bool)
  | passed (i : Nat)
  | slept (request time : Nat) (finished : Bool)
  deriving DecidableEq

/-- `nanosleep` returns 0 after the requested time, or -1 on a signal with the
time that remained. -/
inductive SleepOutcome
  | finished
  | interrupted (remaining : Timespec)

/-- `msgq_msg_ready` on the queue of an item; none when its assertion fails. -/
def checkItem (U : UidSource) (fuel : Nat) (endpoint : Nat → State) (x : PollItem) :
    Option (Bool × (Nat → State)) :=
  (msgReady U x.q.2 fuel (endpoint x.q.1)).bind fun (passes, t) =>
    match passes.getLast? with
    | some (.answer ready) => some (ready, Function.update endpoint x.q.1 t)
    | _ => none

/-- The items behind the check of the next one, `x`. -/
def Poll.check (p : Poll) (x : PollItem) (xs : List PollItem) (ready : Bool) : Poll :=
  { p with
    items := p.items ++ [{ x with revents := ready }]
    rest := xs
    num := if ready then p.num + 1 else p.num }

/-- The next step of the call; `outcome` is what a sleep comes to. -/
def pollStep (U : UidSource) (timeout : Int) (fuel : Nat) (outcome : SleepOutcome) (w : PollWorld) :
    Option (PollEvent × PollWorld) :=
  let p := w.poll
  match p.pc, p.rest with
  | .first, x :: xs =>
      (checkItem U fuel w.endpoint x).map fun (ready, endpoint) =>
        (.checked p.items.length ready, ⟨endpoint, (p.check x xs ready).endPass timeout⟩)
  | .again _, x :: xs =>
      if x.revents then
        some (.passed p.items.length,
          { w with poll := ({ p with items := p.items ++ [x], rest := xs } : Poll).endPass timeout })
      else
        (checkItem U fuel w.endpoint x).map fun (ready, endpoint) =>
          (.checked p.items.length ready, ⟨endpoint, (p.check x xs ready).endPass timeout⟩)
  | .sleep, _ =>
      match outcome with
      | .finished =>
          some (.slept p.ts.total p.ts.total true, { w with poll := ({ p with pc := .again 0 } : Poll).endPass timeout })
      | .interrupted remaining =>
          if remaining.total ≤ p.ts.total then
            some (.slept p.ts.total (p.ts.total - remaining.total) false,
              { w with poll := ({ p with pc := .again (-1), ts := remaining } : Poll).endPass timeout })
          else none
  | .first, [] | .again _, [] | .returned, _ => none

/-- The call goes on, or something happens on one of the endpoints. -/
inductive PollStep (U : UidSource) (G : Nat → Segment) (timeout : Int) : PollWorld → PollEvent → PollWorld → Prop
  | poll {w e w'} (fuel outcome) : pollStep U timeout fuel outcome w = some (e, w') → PollStep U G timeout w e w'
  | elsewhere {w i e t} : AnyStep U (G i) (w.endpoint i) e t →
      PollStep U G timeout w (.elsewhere i e) { w with endpoint := Function.update w.endpoint i t }

/-! What is observed of a call. -/

def PollEvent.time : PollEvent → Nat
  | .slept _ time _ => time
  | .elsewhere _ _ | .checked _ _ | .passed _ => 0

/-- The time of a sleep that a signal ended. -/
def PollEvent.cut : PollEvent → Nat
  | .slept _ time false => time
  | .slept _ _ true | .elsewhere _ _ | .checked _ _ | .passed _ => 0

def PollEvent.isSleep : PollEvent → Bool
  | .slept _ _ _ => true
  | .elsewhere _ _ | .checked _ _ | .passed _ => false

/-- All the time slept, in nanoseconds. -/
def timeSlept (past : List PollEvent) : Nat := (past.map PollEvent.time).sum

def timeCut (past : List PollEvent) : Nat := (past.map PollEvent.cut).sum

/-- Behind the last sleep every listed item that is not flagged was checked and
found not ready. -/
def Rechecked (past : List PollEvent) (finished : Bool) (items : List PollItem) : Prop :=
  ∃ before request time after, past = before ++ .slept request time finished :: after ∧
    (∀ e ∈ after, e.isSleep = false) ∧
    ∀ i x, items[i]? = some x → x.revents = false → .checked i false ∈ after

/-- The sockets a poller waits for, each named by its queue, with their items. -/
structure Poller where
  fake : Bool
  sockets : List (Nat × Nat)
  polls : List PollItem
  same : polls.map PollItem.q = sockets

def Poller.new (fake : Bool) : Poller := ⟨fake, [], [], rfl⟩

def Poller.registerSocket (p : Poller) (socket : Nat × Nat) : Poller :=
  ⟨p.fake, p.sockets ++ [socket], p.polls ++ [⟨socket, false⟩], by rw [List.map_append, p.same]; rfl⟩

/-- What `Poller::poll` returns where `msgq_poll` left the items as `polls`. -/
def Poller.poll (p : Poller) (polls : List PollItem) : List (Nat × Nat) :=
  if p.fake then p.sockets else ((p.sockets.zip polls).filter fun s => s.2.revents).map Prod.fst

/-! One step, without the endpoints. -/

/-- All that a step does to the call; `asks` relates an item to what its check finds. -/
inductive PollMove (asks : PollItem → Bool → Prop) (timeout : Int) : Poll → PollEvent → Poll → Prop
  | elsewhere {p i e} : PollMove asks timeout p (.elsewhere i e) p
  | check {p x xs ready} : p.rest = x :: xs → p.pc = .first ∨ (∃ ret, p.pc = .again ret) ∧ x.revents = false →
      asks x ready → PollMove asks timeout p (.checked p.items.length ready) ((p.check x xs ready).endPass timeout)
  | pass {p x xs ret} : p.rest = x :: xs → p.pc = .again ret → x.revents = true →
      PollMove asks timeout p (.passed p.items.length)
        (({ p with items := p.items ++ [x], rest := xs } : Poll).endPass timeout)
  | sleep {p} : p.pc = .sleep → PollMove asks timeout p (.slept p.ts.total p.ts.total true)
      (({ p with pc := .again 0 } : Poll).endPass timeout)
  | wake {p remaining} : p.pc = .sleep → remaining.total ≤ p.ts.total →
      PollMove asks timeout p (.slept p.ts.total (p.ts.total - remaining.total) false)
        (({ p with pc := .again (-1), ts := remaining } : Poll).endPass timeout)

/-- A check is `msgq_msg_ready` on the queue of the item. -/
def Asks (U : UidSource) (w w' : PollWorld) (x : PollItem) (ready : Bool) : Prop :=
  ∃ fuel, checkItem U fuel w.endpoint x = some (ready, w'.endpoint)

section moves
variable {U : UidSource} {G : Nat → Segment} {timeout : Int} {w w' : PollWorld} {e : PollEvent}

theorem pollStep_move {fuel : Nat} {outcome : SleepOutcome}
    (step : pollStep U timeout fuel outcome w = some (e, w')) :
    PollMove (Asks U w w') timeout w.poll e w'.poll := by
  unfold pollStep at step
  dsimp only at step
  split at step
  · rename_i x xs pc rest
    obtain ⟨⟨ready, endpoint⟩, asks, same⟩ := Option.map_eq_some_iff.mp step
    cases same
    exact .check rest (Or.inl pc) ⟨fuel, asks⟩
  · rename_i ret x xs pc rest
    split at step
    · rename_i flagged
      cases step
      exact .pass rest pc flagged
    · rename_i clear
      obtain ⟨⟨ready, endpoint⟩, asks, same⟩ := Option.map_eq_some_iff.mp step
      cases same
      exact .check rest (Or.inr ⟨⟨ret, pc⟩, by simpa using clear⟩) ⟨fuel, asks⟩
  · rename_i pc
    split at step
    · cases step
      exact .sleep pc
    · split at step
      · rename_i short
        cases step
        exact .wake pc short
      · cases step
  · cases step
  · cases step
  · cases step

theorem PollStep.move (step : PollStep U G timeout w e w') :
    PollMove (Asks U w w') timeout w.poll e w'.poll := by
  cases step with
  | poll fuel outcome one => exact pollStep_move one
  | elsewhere => exact .elsewhere

end moves

/-! The accounts of a call. -/

/-- A flag is set exactly by a check of this call that found the item ready, and `num` counts the flags. -/
structure Flagged (past : List PollEvent) (items : List PollItem) (num : Nat) : Prop where
  count : num = items.countP PollItem.revents
  found : ∀ i x, items[i]? = some x → (x.revents = true ↔ .checked i true ∈ past)
  inside : ∀ i, .checked i true ∈ past → i < items.length

/-- The items whose flags this call has set: all of them behind the first pass. -/
def Poll.known (p : Poll) : List PollItem := if p.pc = .first then p.items else p.items ++ p.rest

structure Accounted (qs : List (Nat × Nat)) (past : List PollEvent) (p : Poll) : Prop where
  same : p.polls.map PollItem.q = qs
  flags : Flagged past p.known p.num
  idle : p.pc = .sleep → p.items = [] ∧ p.num = 0
  behind : ∀ ret, p.pc = .again ret → Rechecked past (decide (ret = 0)) p.items
  ended : p.pc = .returned → p.items = [] ∧ (p.num = 0 → Rechecked past true p.rest)

section accounts
variable {timeout : Int} {qs : List (Nat × Nat)} {past : List PollEvent} {p p' : Poll} {e : PollEvent}
  {finished : Bool} {items xs : List PollItem} {x : PollItem} {num : Nat} {asks : PollItem → Bool → Prop}

theorem getElem?_snoc {α : Type*} {xs : List α} {x y : α} {i : Nat} (at_i : (xs ++ [x])[i]? = some y) :
    xs[i]? = some y ∨ i = xs.length ∧ y = x := by
  rcases Nat.lt_trichotomy i xs.length with inside | rfl | beyond
  · rw [List.getElem?_append_left inside] at at_i
    exact Or.inl at_i
  · rw [List.getElem?_concat_length] at at_i
    exact Or.inr ⟨rfl, (Option.some.inj at_i).symm⟩
  · rw [List.getElem?_eq_none (by rw [List.length_append]; exact beyond)] at at_i
    cases at_i

theorem Rechecked.snoc (R : Rechecked past finished items) (awake : e.isSleep = false) :
    Rechecked (past ++ [e]) finished items := by
  obtain ⟨before, request, time, after, rfl, none, all⟩ := R
  refine ⟨before, request, time, after ++ [e], by simp, ?_, ?_⟩
  · exact List.forall_mem_append.mpr ⟨none, List.forall_mem_singleton.mpr awake⟩
  · exact fun i x at_i clear => List.mem_append_left _ (all i x at_i clear)

theorem Rechecked.more (R : Rechecked past finished items) (awake : e.isSleep = false)
    (checked : x.revents = false → e = .checked items.length false) :
    Rechecked (past ++ [e]) finished (items ++ [x]) := by
  obtain ⟨before, request, time, after, rfl, none, all⟩ := R
  refine ⟨before, request, time, after ++ [e], by simp, ?_, ?_⟩
  · exact List.forall_mem_append.mpr ⟨none, List.forall_mem_singleton.mpr awake⟩
  · intro i y at_i clear
    rcases getElem?_snoc at_i with old | last
    · exact List.mem_append_left _ (all i y old clear)
    · obtain ⟨rfl, rfl⟩ := last
      exact List.mem_append_right _ (List.mem_singleton.mpr (checked clear).symm)

/-- An event that is no successful check. -/
theorem Flagged.snoc (F : Flagged past items num) (quiet : ∀ i, e ≠ .checked i true) :
    Flagged (past ++ [e]) items num := by
  have mem : ∀ i, PollEvent.checked i true ∈ past ++ [e] ↔ .checked i true ∈ past := by
    intro i
    simp [(quiet i).symm]
  exact ⟨F.count, fun i x at_i => (F.found i x at_i).trans (mem i).symm, fun i new => F.inside i ((mem i).mp new)⟩

/-- The items behind a check of the one at hand, which was not flagged. -/
theorem Flagged.check {ready : Bool} (F : Flagged past (items ++ x :: xs) num) (clear : x.revents = false) :
    Flagged (past ++ [.checked items.length ready]) (items ++ { x with revents := ready } :: xs)
      (if ready then num + 1 else num) := by
  have unchecked : PollEvent.checked items.length true ∉ past := by
    rw [← F.found items.length x (by simp), clear]
    decide
  refine ⟨?_, ?_, ?_⟩
  · rw [F.count, List.countP_append, List.countP_append, List.countP_cons, List.countP_cons, clear]
    cases ready <;> simp
    omega
  · intro i y at_i
    rcases eq_or_ne i items.length with rfl | other
    · rw [List.getElem?_append_right le_rfl, Nat.sub_self] at at_i
      cases at_i
      simp [unchecked, eq_comm]
    · have kept : (items ++ x :: xs)[i]? = some y := by
        rw [← at_i]
        rcases Nat.lt_or_gt_of_ne other with before | behind
        · rw [List.getElem?_append_left before, List.getElem?_append_left before]
        · obtain ⟨k, same⟩ := Nat.exists_eq_add_of_lt behind
          rw [List.getElem?_append_right behind.le, List.getElem?_append_right behind.le,
            show i - items.length = k + 1 by omega]
          rfl
      rw [F.found i y kept, List.mem_append, List.mem_singleton]
      simp [other]
  · intro i mem
    rcases List.mem_append.mp mem with old | new
    · simpa using F.inside i old
    · cases List.mem_singleton.mp new
      simp

/-- An item that this call has not checked yet joins those it has. -/
theorem Flagged.first {ready : Bool} (F : Flagged past items num) :
    Flagged (past ++ [.checked items.length ready]) (items ++ [{ x with revents := ready }])
      (if ready then num + 1 else num) := by
  have unchecked : PollEvent.checked items.length true ∉ past := fun mem => lt_irrefl _ (F.inside _ mem)
  have clear : Flagged past (items ++ [{ x with revents := false }]) num := by
    refine ⟨?_, ?_, ?_⟩
    · simpa using F.count
    · intro i y at_i
      rcases getElem?_snoc at_i with old | last
      · exact F.found i y old
      · obtain ⟨rfl, rfl⟩ := last
        simp [unchecked]
    · intro i mem
      rw [List.length_append]
      exact Nat.lt_add_right 1 (F.inside i mem)
  exact clear.check rfl

theorem Poll.known_first (p : Poll) (pc : p.pc = .first) : p.known = p.items := if_pos pc

theorem Poll.known_later (p : Poll) (pc : p.pc ≠ .first) : p.known = p.items ++ p.rest := if_neg pc

/-- Going back to the head of the loop changes no account. -/
theorem Accounted.head (A : Accounted qs past p) (pass : p.rest = []) : Accounted qs past p.head := by
  have known : p.known = p.items ++ p.rest := by
    rw [Poll.known, pass, List.append_nil]
    exact ite_self _
  have known_head : p.head.known = p.items ++ p.rest := by
    rw [Poll.known_later, Poll.head, List.nil_append]
    rw [Poll.head]
    dsimp only
    split <;> simp
  refine ⟨A.same, ?_, ?_, ?_, ?_⟩
  · rw [known_head, ← known]
    exact A.flags
  · intro pc
    refine ⟨rfl, ?_⟩
    by_contra some_ready
    have returned : p.head.pc = .returned := if_neg some_ready
    rw [returned] at pc
    cases pc
  · intro ret pc
    rw [Poll.head] at pc
    dsimp only at pc
    split at pc <;> cases pc
  · intro pc
    refine ⟨rfl, ?_⟩
    intro none
    have sleep : p.head.pc = .sleep := if_pos none
    rw [sleep] at pc
    cases pc

theorem Accounted.endPass (A : Accounted qs past p) : Accounted qs past (p.endPass timeout) := by
  unfold Poll.endPass
  split
  · rename_i rest pc
    exact A.head rest
  · rename_i ret rest pc
    split
    · rename_i over_time
      have R := A.behind ret pc
      rw [over_time.2] at R
      have flags := A.flags
      rw [Poll.known_later p (by simp [pc]), rest, List.append_nil] at flags
      refine ⟨?_, flags, ?_, ?_, ?_⟩
      · simpa [Poll.polls, rest] using A.same
      · rintro ⟨⟩
      · rintro ret ⟨⟩
      · exact fun _ => ⟨rfl, fun _ => R⟩
    · exact A.head rest
  · exact A

theorem Accounted.start (items : List PollItem) (timeout : Int) :
    Accounted (items.map PollItem.q) [] (Poll.start items timeout) := by
  refine Accounted.endPass ⟨rfl, ?_, ?_, ?_, ?_⟩
  · refine ⟨rfl, ?_, ?_⟩
    · rintro i x ⟨⟩
    · rintro i ⟨⟩
  · rintro ⟨⟩
  · rintro ret ⟨⟩
  · rintro ⟨⟩

theorem Accounted.elsewhere {i : Nat} {a : AnyEvent} (A : Accounted qs past p) :
    Accounted qs (past ++ [.elsewhere i a]) p :=
  ⟨A.same, A.flags.snoc (by simp), A.idle, fun ret pc => (A.behind ret pc).snoc rfl,
    fun pc => ⟨(A.ended pc).1, fun none => ((A.ended pc).2 none).snoc rfl⟩⟩

theorem Accounted.check {ready : Bool} (A : Accounted qs past p) (rest : p.rest = x :: xs)
    (pc : p.pc = .first ∨ (∃ ret, p.pc = .again ret) ∧ x.revents = false) :
    Accounted qs (past ++ [.checked p.items.length ready]) (p.check x xs ready) := by
  have inside : p.pc ≠ .sleep ∧ p.pc ≠ .returned := by
    rcases pc with first | ⟨⟨ret, later⟩, -⟩
    · simp [first]
    · simp [later]
  refine ⟨?_, ?_, fun sleep => absurd sleep inside.1, ?_, fun returned => absurd returned inside.2⟩
  · have same := A.same
    rw [Poll.polls, rest] at same
    simpa [Poll.polls, Poll.check] using same
  · have flags := A.flags
    rcases pc with first | ⟨⟨ret, later⟩, clear⟩
    · rw [Poll.known_first p first] at flags
      rw [Poll.known_first (p.check x xs ready) first]
      exact flags.first
    · rw [Poll.known_later p (by simp [later]), rest] at flags
      rw [Poll.known_later _ (by simp [Poll.check, later])]
      simpa [Poll.check] using flags.check clear
  · intro ret later
    refine (A.behind ret later).more rfl ?_
    intro clear
    rw [show ready = false from clear]

/-- An item that an earlier pass flagged is not checked again. -/
theorem Accounted.pass {ret : Int} (A : Accounted qs past p) (rest : p.rest = x :: xs) (pc : p.pc = .again ret)
    (flagged : x.revents = true) :
    Accounted qs (past ++ [.passed p.items.length]) { p with items := p.items ++ [x], rest := xs } := by
  refine ⟨?_, ?_, ?_, ?_, ?_⟩
  · simpa [Poll.polls, rest] using A.same
  · have flags : Flagged (past ++ [.passed p.items.length]) p.known p.num := A.flags.snoc (by simp)
    rw [Poll.known_later p (by simp [pc]), rest] at flags
    rw [Poll.known_later _ (by simp [pc])]
    simpa using flags
  · intro sleep
    exact absurd (sleep.symm.trans pc) (by simp)
  · intro ret' later
    refine (A.behind ret' later).more rfl ?_
    rw [flagged]
    rintro ⟨⟩
  · intro returned
    exact absurd (returned.symm.trans pc) (by simp)

/-- A sleep ends and a pass begins. -/
theorem Accounted.wake {request time : Nat} {ret : Int} {ts : Timespec} (A : Accounted qs past p) (pc : p.pc = .sleep)
    (outcome : finished = decide (ret = 0)) :
    Accounted qs (past ++ [.slept request time finished]) { p with pc := .again ret, ts := ts } := by
  refine ⟨A.same, ?_, ?_, ?_, ?_⟩
  · have flags : Flagged (past ++ [.slept request time finished]) p.known p.num := A.flags.snoc (by simp)
    rwa [Poll.known_later p (by simp [pc])] at flags
  · rintro ⟨⟩
  · rintro ret' ⟨⟩
    rw [← outcome]
    refine ⟨past, request, time, [], rfl, by simp, ?_⟩
    intro i x at_i
    rw [show p.items = [] from (A.idle pc).1] at at_i
    cases at_i
  · rintro ⟨⟩

theorem Accounted.move (A : Accounted qs past p) (move : PollMove asks timeout p e p') :
    Accounted qs (past ++ [e]) p' := by
  cases move with
  | elsewhere => exact A.elsewhere
  | check rest pc asked => exact (A.check rest pc).endPass
  | pass rest pc flagged => exact (A.pass rest pc flagged).endPass
  | sleep pc =>
      have outcome : true = decide ((0 : Int) = 0) := rfl
      exact (A.wake pc outcome).endPass
  | wake pc short =>
      have outcome : false = decide ((-1 : Int) = 0) := rfl
      exact (A.wake pc outcome).endPass

theorem Accounted.run {U : UidSource} {G : Nat → Segment} {endpoint : Nat → State} {w : PollWorld}
    (run : Run (PollStep U G timeout) ⟨endpoint, .start items timeout⟩ past w) :
    Accounted (items.map PollItem.q) past w.poll := by
  induction run with
  | nil => exact Accounted.start items timeout
  | snoc _ one ih => exact ih.move one.move

end accounts

/-! The time of a call that has a timeout. -/

/-- Until a sleep finishes, what was slept and what the next sleep asks for make
up the whole time; the sleep that finishes has used it up. -/
structure Budget (whole : Nat) (past : List PollEvent) (p : Poll) : Prop where
  left : p.pc ≠ .returned → p.pc ≠ .again 0 → timeSlept past + p.ts.total = whole
  spent : p.pc = .again 0 ∨ p.pc = .returned ∧ p.num = 0 → timeSlept past = whole

section budget
variable {timeout : Int} {whole : Nat} {past : List PollEvent} {p p' : Poll} {e : PollEvent} {items : List PollItem}
  {asks : PollItem → Bool → Prop}

@[simp] theorem timeSlept_snoc (past : List PollEvent) (e : PollEvent) :
    timeSlept (past ++ [e]) = timeSlept past + e.time := by simp [timeSlept]

@[simp] theorem timeCut_snoc (past : List PollEvent) (e : PollEvent) :
    timeCut (past ++ [e]) = timeCut past + e.cut := by
  simp [timeCut]

theorem Timespec.ofMs_total (ms : Nat) : (Timespec.ofMs ms).total = ms * 1000000 := by
  change ms / 1000 * 1000000000 + ms % 1000 * 1000 * 1000 = ms * 1000000
  omega

/-- The loop goes on only behind an interrupted sleep. -/
theorem Budget.head (B : Budget whole past p) (pc : p.pc ≠ .returned) (on : p.pc ≠ .again 0) :
    Budget whole past p.head := by
  refine ⟨fun _ _ => B.left pc on, ?_⟩
  rintro (again | ⟨returned, none⟩)
  · rw [Poll.head] at again
    dsimp only at again
    split at again <;> cases again
  · have sleep : p.head.pc = .sleep := if_pos none
    rw [sleep] at returned
    cases returned

theorem Budget.endPass (B : Budget whole past p) (timed : timeout ≠ -1) :
    Budget whole past (p.endPass timeout) := by
  unfold Poll.endPass
  split
  · rename_i rest pc
    exact B.head (by simp [pc]) (by simp [pc])
  · rename_i ret rest pc
    split
    · rename_i finished
      refine ⟨fun returned => absurd rfl returned, fun _ => B.spent (Or.inl ?_)⟩
      rw [pc, finished.2]
    · rename_i on
      refine B.head (by simp [pc]) ?_
      rw [pc]
      rintro ⟨⟩
      exact on ⟨timed, rfl⟩
  · exact B

theorem Budget.move (B : Budget whole past p) (timed : timeout ≠ -1) (move : PollMove asks timeout p e p') :
    Budget whole (past ++ [e]) p' := by
  cases move with
  | elsewhere => exact ⟨by simpa [PollEvent.time] using B.left, by simpa [PollEvent.time] using B.spent⟩
  | @check x xs ready rest pc asked =>
      have inside : p.pc ≠ .returned := by
        rcases pc with first | ⟨⟨ret, later⟩, -⟩
        · simp [first]
        · simp [later]
      refine Budget.endPass ⟨?_, ?_⟩ timed
      · simpa [PollEvent.time, Poll.check] using B.left
      · rintro (again | ⟨returned, -⟩)
        · simpa [PollEvent.time] using B.spent (Or.inl again)
        · exact absurd returned inside
  | pass rest pc flagged =>
      refine Budget.endPass ⟨?_, ?_⟩ timed
      · simpa [PollEvent.time] using B.left
      · simpa [PollEvent.time] using B.spent
  | sleep pc =>
      refine Budget.endPass ⟨fun _ again => absurd rfl again, ?_⟩ timed
      intro _
      rw [timeSlept_snoc]
      exact B.left (by simp [pc]) (by simp [pc])
  | @wake remaining pc short =>
      refine Budget.endPass ⟨?_, ?_⟩ timed
      · intro _ _
        have all := B.left (by simp [pc]) (by simp [pc])
        rw [timeSlept_snoc, PollEvent.time]
        dsimp only
        omega
      · simp

theorem Budget.run {U : UidSource} {G : Nat → Segment} {endpoint : Nat → State} {w : PollWorld} (timed : timeout ≠ -1)
    (run : Run (PollStep U G timeout) ⟨endpoint, .start items timeout⟩ past w) :
    Budget (pollMs timeout * 1000000) past w.poll := by
  induction run with
  | nil =>
      refine Budget.endPass ⟨fun _ _ => ?_, ?_⟩ timed
      · rw [Timespec.ofMs_total]
        exact Nat.zero_add _
      · simp
  | snoc _ one ih => exact ih.move timed one.move

end budget

/-- What a call that returned has done for its items. -/
structure PollReport (U : UidSource) (G : Nat → Segment) (timeout : Int) (start : PollWorld) (items : List PollItem)
    (past : List PollEvent) (p : Poll) : Prop where
  same : p.polls.map PollItem.q = items.map PollItem.q
  count : p.num = p.polls.countP PollItem.revents
  found : ∀ i x, p.polls[i]? = some x → (x.revents = true ↔ .checked i true ∈ past)
  asked : ∀ i ready, .checked i ready ∈ past → ∃ before mid fuel x endpoint,
    Run (PollStep U G timeout) start before mid ∧ before ++ [.checked i ready] <+: past ∧
      (items.map PollItem.q)[i]? = some x.q ∧ checkItem U fuel mid.endpoint x = some (ready, endpoint)
  timedOut : p.num = 0 → timeSlept past = timeout.toNat * 1000000 ∧
    ∃ before request time after, past = before ++ .slept request time true :: after ∧
      (∀ e ∈ after, e.isSleep = false) ∧ ∀ i < items.length, .checked i false ∈ after

section reports
variable {U : UidSource} {G : Nat → Segment} {timeout : Int} {endpoint : Nat → State} {w : PollWorld}
  {items : List PollItem} {past : List PollEvent} {i : Nat} {ready : Bool}

theorem PollMove.checked {asks : PollItem → Bool → Prop} {p p' : Poll}
    (move : PollMove asks timeout p (.checked i ready) p') :
    ∃ x xs, p.rest = x :: xs ∧ i = p.items.length ∧ asks x ready := by
  cases move with
  | check rest pc asked => exact ⟨_, _, rest, rfl, asked⟩

theorem checked_asked (run : Run (PollStep U G timeout) ⟨endpoint, .start items timeout⟩ past w)
    (mem : .checked i ready ∈ past) : ∃ before mid fuel x endpoint',
      Run (PollStep U G timeout) ⟨endpoint, .start items timeout⟩ before mid ∧ before ++ [.checked i ready] <+: past ∧
        (items.map PollItem.q)[i]? = some x.q ∧ checkItem U fuel mid.endpoint x = some (ready, endpoint') := by
  obtain ⟨before, after, rfl⟩ := List.append_of_mem mem
  rw [List.append_cons] at run
  obtain ⟨w₁, upto, -⟩ := run.split
  obtain ⟨mid, first, one⟩ := upto.last
  obtain ⟨x, xs, rest, rfl, fuel, asks⟩ := one.move.checked
  refine ⟨before, mid, fuel, x, _, first, ⟨after, by simp⟩, ?_, asks⟩
  rw [← (Accounted.run first).same, Poll.polls, rest]
  simp

/-- All that a call that returned owes its caller. -/
theorem PollReport.of_run (nonneg : 0 ≤ timeout)
    (run : Run (PollStep U G timeout) ⟨endpoint, .start items timeout⟩ past w) (returned : w.poll.pc = .returned) :
    PollReport U G timeout ⟨endpoint, .start items timeout⟩ items past w.poll := by
  have timed : timeout ≠ -1 := by omega
  have A := Accounted.run run
  have known : w.poll.known = w.poll.polls := Poll.known_later w.poll (by simp [returned])
  have flags := A.flags
  rw [known] at flags
  refine ⟨A.same, flags.count, flags.found, fun i ready => checked_asked run, ?_⟩
  intro none
  refine ⟨?_, ?_⟩
  · rw [(Budget.run timed run).spent (Or.inr ⟨returned, none⟩), pollMs, if_neg timed]
  · obtain ⟨empty, rechecked⟩ := A.ended returned
    obtain ⟨before, request, time, after, split, awake, all⟩ := rechecked none
    refine ⟨before, request, time, after, split, awake, ?_⟩
    have rest : w.poll.rest = w.poll.polls := by rw [Poll.polls, empty, List.nil_append]
    have length : w.poll.rest.length = items.length := by
      rw [rest, ← List.length_map (f := PollItem.q), A.same, List.length_map]
    have clear : ∀ x ∈ w.poll.rest, ¬ x.revents = true := by
      rw [rest]
      exact List.countP_eq_zero.mp (flags.count.symm.trans none)
    intro i inside
    rw [← length] at inside
    exact all i _ (List.getElem?_eq_getElem inside) (by simpa using clear _ (List.getElem_mem inside))

/-- What is flagged and what was found ready are the same sockets, counted from `k`. -/
theorem flagged_sockets {polls : List PollItem} {ready : Nat → Prop} [DecidablePred ready] (k : Nat)
    (found : ∀ i x, polls[i]? = some x → (x.revents = true ↔ ready (k + i))) :
    ((((polls.map PollItem.q).zip polls).filter fun s => s.2.revents).map Prod.fst) =
      (((polls.map PollItem.q).zipIdx k).filter fun s => ready s.2).map Prod.fst := by
  induction polls generalizing k with
  | nil => rfl
  | cons x xs ih =>
      have first : x.revents = decide (ready k) := by
        rw [Bool.eq_iff_iff, decide_eq_true_iff]
        exact found 0 x rfl
      have rest := ih (k + 1) fun i y at_i => by
        rw [Nat.add_assoc, Nat.add_comm 1 i]
        exact found (i + 1) y at_i
      rw [List.map_cons, List.zip_cons_cons, List.zipIdx_cons, List.filter_cons, List.filter_cons, first]
      cases decide (ready k) with
      | true => exact congrArg (List.cons x.q) rest
      | false => exact rest

end reports

/-- A call that returns reports exactly the items that its checks found ready, and
none only behind the whole time; a poller returns their sockets. -/
theorem poll_accounts {U : UidSource} {G : Nat → Segment} {timeout : Int} {endpoint : Nat → State}
    {items : List PollItem} {past : List PollEvent} {w : PollWorld} (nonneg : 0 ≤ timeout)
    (run : Run (PollStep U G timeout) ⟨endpoint, .start items timeout⟩ past w) (returned : w.poll.pc = .returned) :
    PollReport U G timeout ⟨endpoint, .start items timeout⟩ items past w.poll ∧
      ∀ poller : Poller, poller.fake = false → poller.polls = items →
        poller.poll w.poll.polls = (poller.sockets.zipIdx.filter fun s => .checked s.2 true ∈ past).map Prod.fst := by
  have report := PollReport.of_run nonneg run returned
  refine ⟨report, ?_⟩
  rintro poller real rfl
  have sockets : poller.sockets = w.poll.polls.map PollItem.q := poller.same.symm.trans report.same.symm
  rw [Poller.poll, real, sockets]
  exact flagged_sockets 0 fun i x at_i => by simpa using report.found i x at_i

/-! Executing a call. -/

inductive PollAction
  | poll (outcome : SleepOutcome)
  | elsewhere (i : Nat) (c : Call)

def pollAct (U : UidSource) (G : Nat → Segment) (timeout : Int) (fuel : Nat) (w : PollWorld) :
    PollAction → Option (PollEvent × PollWorld)
  | .poll outcome => pollStep U timeout fuel outcome w
  | .elsewhere i c => (exec U (G i) fuel (w.endpoint i) c).map fun (e, t) =>
      (.elsewhere i (.call e), { w with endpoint := Function.update w.endpoint i t })

theorem pollAct_step {U : UidSource} {G : Nat → Segment} {timeout : Int} {fuel : Nat} {w w' : PollWorld} {e : PollEvent}
    {a : PollAction} (act : pollAct U G timeout fuel w a = some (e, w')) : PollStep U G timeout w e w' := by
  cases a with
  | poll outcome => exact .poll fuel outcome act
  | elsewhere i c =>
      obtain ⟨⟨e', t⟩, one, same⟩ := Option.map_eq_some_iff.mp act
      cases same
      exact .elsewhere (.call (exec_step one))

/-- A call on endpoints that are all small and attended. -/
def pollScript (timeout : Int) (items : List PollItem) :
    List PollAction → Option (List PollEvent × PollWorld) :=
  perform (pollAct countingUids (fun _ => tinySegment) timeout 4) (fun _ _ => True)
    ⟨fun _ => attendedState, .start items timeout⟩

theorem pollScript_shows (timeout : Int) (items : List PollItem) (acts : List PollAction)
    {p : List PollEvent → PollWorld → Prop} [∀ es w, Decidable (p es w)]
    (h : (pollScript timeout items acts).any (fun r => p r.1 r.2) = true) : ∃ past w,
      Run (PollStep countingUids (fun _ => tinySegment) timeout) ⟨fun _ => attendedState, .start items timeout⟩ past w ∧
        p past w := by
  obtain ⟨⟨past, w⟩, ends, shows⟩ := (Option.any_eq_true _ _).mp h
  have run := performed ends fun _ _ _ _ => pollAct_step
  exact ⟨past, w, run.mono fun _ _ _ step => step.1, of_decide_eq_true shows⟩

/-- One queue polled twice and another one. -/
def threeItems : List PollItem := [⟨(0, 1), false⟩, ⟨(0, 1), false⟩, ⟨(1, 1), false⟩]

/-- A signal leaves 2 ms of 5, another pass finds nothing, and the sleep finishes. -/
def quietActions : List PollAction :=
  List.replicate 3 (.poll .finished) ++ [.poll (.interrupted (.ofMs 2))] ++ List.replicate 7 (.poll .finished)

/-- The message comes between the first pass and the sleep that its signal ends. -/
def wakingActions : List PollAction :=
  List.replicate 3 (.poll .finished) ++ [.elsewhere 0 (.send 0 (byteMsg 1)), .poll (.interrupted (.ofMs 2))] ++
    List.replicate 3 (.poll .finished)

theorem poll_accounts_quiet_waking :
    (∃ (past : List PollEvent) (w : PollWorld), w.poll.num = 0 ∧
      PollReport countingUids (fun _ => tinySegment) 5 ⟨fun _ => attendedState, .start threeItems 5⟩ threeItems past
        w.poll) ∧
    ∃ (past : List PollEvent) (w : PollWorld), w.poll.num = 2 ∧
      PollReport countingUids (fun _ => tinySegment) 5 ⟨fun _ => attendedState, .start threeItems 5⟩ threeItems past
        w.poll ∧
      ∀ poller : Poller, poller.fake = false → poller.polls = threeItems →
        poller.poll w.poll.polls = (poller.sockets.zipIdx.filter fun s => .checked s.2 true ∈ past).map Prod.fst := by
  constructor
  · obtain ⟨past, w, run, returned, none⟩ := pollScript_shows 5 threeItems quietActions
      (p := fun _ w => w.poll.pc = .returned ∧ w.poll.num = 0) (by decide +kernel)
    exact ⟨past, w, none, (poll_accounts (by decide) run returned).1⟩
  · obtain ⟨past, w, run, returned, both⟩ := pollScript_shows 5 threeItems wakingActions
      (p := fun _ w => w.poll.pc = .returned ∧ w.poll.num = 2) (by decide +kernel)
    exact ⟨past, w, both, poll_accounts (by decide) run returned⟩

end Msgq
