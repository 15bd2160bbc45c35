import Msgq.Blocking

/-! How long a receive sleeps. It tries again only where another call took away
what its poll had found, and one that something lies before returns at once. -/
namespace Msgq
open ByteMemory FramedRecords Traces

/-- The handle owns a flagged slot with something before it. -/
def Unread (s : State) (h : Nat) : Prop :=
  ∃ id, Owns s h id ∧ s.q.readValids id = true ∧ s.q.readOffset id ≠ s.q.writeOffset

/-- In nanoseconds. -/
def Receive.whole (c : Receive) : Nat := c.timeout.toNat * 1000000

/-- The retries of a call are paid for by disturbances, and its sleeps by the
timeout and one more timeout for each retry. -/
structure Paced (h : Nat) (past : List SocketEvent) (w : SocketWorld) : Prop where
  retries : retriesIn (sinceCall past) ≤ disturbancesIn (sinceCall past)
  first : ∀ c, w.pc = .first c → sleptIn (sinceCall past) = 0
  polling : ∀ c p, w.pc = .polling c p → 0 ≤ c.timeout →
    sleptIn (sinceCall past) ≤ c.whole * retriesIn (sinceCall past) + timeSlept (lastPoll past)
  poll : ∀ c p, w.pc = .polling c p → timeSlept (lastPoll past) ≤ pollMs c.t * 1000000
  ended : ∀ c, lastCall past = some c → 0 ≤ c.timeout →
    sleptIn (sinceCall past) ≤ c.whole * (retriesIn (sinceCall past) + 1)
  found : ∀ c p, w.pc = .polling c p → p.num = 0 ∨ Unread w.state h ∨
    retriesIn (sinceCall past) < disturbancesIn (sinceCall past)

section pace
variable {U : UidSource} {G : Segment} {conflate : Nat → Bool} {h : Nat} {before calls : List Event} {s t : State}
  {past : List SocketEvent} {w w' : SocketWorld} {e : SocketEvent} {c : Receive} {passes : List Pass} {id : Nat}

/-- A call of another handle that disturbs nobody. -/
theorem step_sameSlot {a : Event} (R : Registry U s) (own : Owns s h id) (valid : s.q.readValids id = true)
    (step : Step U G s a t) (other : a.caller ≠ h) (calm : disturbs s a = false) : SameSlot h id s t := by
  obtain ⟨unsent, peace⟩ : a.sent? = none ∧ Peaceful s a := by simpa [disturbs] using calm
  have aside : ∀ {h' : Nat} {u v : State}, h' ≠ h → OnePass U h' u v →
      Registry U u ∧ SameSlot h id s u ∧ ¬ Evicts u h' → Registry U v ∧ SameSlot h id s v ∧ ¬ Evicts v h' := by
    rintro h' u v ne one ⟨R, same, peace⟩
    have own' := same.owns own
    have registered : Registered u h := ⟨id, own', same.valid.trans valid⟩
    exact ⟨one.registry R, same.trans (one.sameSlot ne R own' peace), (one.registered R registered peace).2⟩
  cases step with
  | initPublisher => exact peace.elim
  | initSubscriber h' => exact sameSlot_initSubscriber other R own peace
  | sent => cases unsent
  | refused | aborted => exact .rfl
  | recv run => exact (recv_keeps (aside other) ⟨R, .rfl, peace⟩ run).2.1
  | ready run => exact (ready_keeps (aside other) ⟨R, .rfl, peace⟩ run).2.1

theorem Unread.step {a : Event} (R : Registry U s) (unread : Unread s h) (step : Step U G s a t) (other : a.caller ≠ h)
    (calm : disturbs s a = false) : Unread t h := by
  obtain ⟨id, own, valid, away⟩ := unread
  have same := step_sameSlot R own valid step other calm
  refine ⟨id, same.owns own, same.valid.trans valid, ?_⟩
  rw [Queue.readOffset, same.pointer, Queue.writeOffset, same.writePointer]
  exact away

/-- A check that finds the queue ready. -/
theorem unread_of_ready {fuel : Nat} {passes : List ReadyPass} (run : msgReady U h fuel s = some (passes, t))
    (last : passes.getLast? = some (.answer true)) : Unread t h := by
  obtain ⟨ws, u, rfl, rfl, -, -⟩ := loop_ends (I := fun _ _ => True) (fun _ _ _ _ => trivial) trivial run
  rw [List.getLast?_concat] at last
  have answer := Option.some.inj last
  unfold readyPass at answer ⊢
  split at answer
  · cases answer
  · rename_i id registered
    split_ifs at answer with huid valid
    rw [if_neg huid, if_neg valid]
    exact ⟨id, ⟨registered, not_not.mp huid⟩, by simpa using valid, by simpa using answer⟩

/-- With something before it a receive takes it or fails to allocate. -/
theorem Unread.recv {alloc : Bool} {fuel : Nat} (unread : Unread s h) (prior : Run (Step U G) (State.fresh conflate) before s)
    (few : wrapCount before < 2 ^ 32) (run : msgRecv U G.size alloc h fuel s = some (passes, t)) :
    recvCode passes ≠ some 0 := by
  obtain ⟨id, own, valid, away⟩ := unread
  obtain ⟨ms, marks, trail, -⟩ := (intactRun prior few).trail own valid
  have some_left : ms ≠ [] := trail.nil_iff.not.mpr away
  have walk : OnTrail G.size s h id ms marks := ⟨own, valid, trail⟩
  obtain ⟨fuel', passes', u, returns, something⟩ := (walk.agree U G.small).recv
  obtain ⟨m, got⟩ := something.mpr some_left
  intro zero
  by_cases failed : ∃ p, passes.getLast? = some (.noMemory p)
  · obtain ⟨p, last⟩ := failed
    simp [recvCode, last] at zero
  · have taken : msgRecv U G.size true h fuel s = some (passes, t) := by
      cases alloc with
      | true => exact run
      | false => exact recv_unlimited run fun p last => failed ⟨p, last⟩
    obtain ⟨rfl, -⟩ := Prod.mk.inj (loop_unique taken returns)
    rw [recvCode_returned got] at zero
    have := returned_positive prior few returns got
    rw [Option.some.inj zero] at this
    exact lt_irrefl 0 this

/-- Only a sleep takes time, and no more than it asked for. -/
theorem PollMove.time_le {asks : PollItem → Bool → Prop} {timeout : Int} {p p' : Poll} {a : PollEvent}
    (move : PollMove asks timeout p a p') : a.time = 0 ∨ p.pc = .sleep ∧ a.time ≤ p.ts.total := by
  cases move with
  | elsewhere | check | pass => exact Or.inl rfl
  | sleep pc =>
      refine Or.inr ⟨pc, ?_⟩
      rw [PollEvent.time]
  | wake pc short =>
      refine Or.inr ⟨pc, ?_⟩
      rw [PollEvent.time]
      exact Nat.sub_le _ _

theorem Budget.time_le {whole : Nat} {polled : List PollEvent} {asks : PollItem → Bool → Prop} {timeout : Int}
    {p p' : Poll} {a : PollEvent} (B : Budget whole polled p) (short : timeSlept polled ≤ whole)
    (move : PollMove asks timeout p a p') : timeSlept (polled ++ [a]) ≤ whole := by
  rw [timeSlept_snoc]
  rcases move.time_le with none | ⟨pc, time⟩
  · rw [none]
    exact short
  · have left := B.left (by simp [pc]) (by simp [pc])
    omega

theorem Accounted.last_item {q : Nat × Nat} {polled : List PollEvent} {p : Poll} {x : PollItem} {xs : List PollItem}
    (A : Accounted [q] polled p) (rest : p.rest = x :: xs) : x.q = q ∧ p.items = [] ∧ xs = [] := by
  have same := A.same
  rw [Poll.polls, rest, List.map_append, List.map_cons] at same
  have length := congrArg List.length same
  rw [List.length_append, List.length_cons, List.length_map, List.length_map, List.length_singleton] at length
  have items : p.items = [] := List.eq_nil_of_length_eq_zero (by omega)
  rw [items] at same
  exact ⟨(List.cons.inj same).1, items, List.eq_nil_of_length_eq_zero (by omega)⟩

/-- The one item of a poll is not checked again once it is flagged. -/
theorem Accounted.unflagged {q : Nat × Nat} {polled : List PollEvent} {p : Poll} (A : Accounted [q] polled p)
    (due : p.pc = .first ∨ (∃ ret, p.pc = .again ret) ∧ ∀ x ∈ p.rest.head?, x.revents = false)
    (some_left : p.rest ≠ []) : p.num = 0 := by
  obtain ⟨x, xs, rest⟩ := List.exists_cons_of_ne_nil some_left
  obtain ⟨-, items, last⟩ := A.last_item rest
  rw [A.flags.count]
  rcases due with first | ⟨⟨ret, later⟩, clear⟩
  · rw [Poll.known_first p first, items]
    rfl
  · have head : x.revents = false := clear x (by simp [rest])
    rw [Poll.known_later p (by simp [later]), items, rest, last]
    simp [head]

theorem Receive.whole_eq (timed : 0 ≤ c.timeout) : pollMs c.t * 1000000 = c.whole := by
  have blocks : c.timeout ≠ -1 := by omega
  rw [pollMs, if_neg c.t_timed, Receive.t, if_pos blocks, Receive.whole]

theorem sinceCall_grows (past : List SocketEvent) (e : SocketEvent)
    (other : e.since (sinceCall past) = sinceCall past ++ [e]) :
    sleptIn (sinceCall (past ++ [e])) = sleptIn (sinceCall past) + e.time ∧
      retriesIn (sinceCall (past ++ [e])) = retriesIn (sinceCall past) + e.retries.toNat ∧
      disturbancesIn (sinceCall (past ++ [e])) = disturbancesIn (sinceCall past) + e.disturbing.toNat := by
  rw [sinceCall_append, other, sleptIn_snoc, retriesIn_snoc, disturbancesIn_snoc]
  exact ⟨rfl, rfl, rfl⟩

/-- The end of a call. -/
theorem Paced.ends {pc : SocketPc} (P : Paced h past w) (other : e.since (sinceCall past) = sinceCall past ++ [e])
    (time : e.time = 0) (retries : e.retries = false) (calm : e.disturbing = false)
    (same : e.call (lastCall past) = lastCall past) (finished : pc = .idle ∨ pc = .died) :
    Paced h (past ++ [e]) ⟨t, pc⟩ := by
  obtain ⟨slept, tried, disturbed⟩ := sinceCall_grows past e other
  rw [time, Nat.add_zero] at slept
  rw [retries, Bool.toNat_false, Nat.add_zero] at tried
  rw [calm, Bool.toNat_false, Nat.add_zero] at disturbed
  have away : ∀ {c p}, pc ≠ .first c ∧ pc ≠ .polling c p := by
    intro c p
    rcases finished with rfl | rfl
    · simp
    · simp
  refine ⟨?_, ?_, ?_, ?_, ?_, ?_⟩
  · rw [tried, disturbed]
    exact P.retries
  · intro c first
    exact absurd first (away (p := .start [] 0)).1
  · intro c p polling
    exact absurd polling away.2
  · intro c p polling
    exact absurd polling away.2
  · rw [slept, tried, lastCall_append, same]
    exact P.ended
  · intro c p polling
    exact absurd polling away.2

theorem Paced.called (c : Receive) (s : State) : Paced h (past ++ [.called c]) ⟨s, .first c⟩ := by
  have since : sinceCall (past ++ [.called c]) = [] := sinceCall_append past _
  refine ⟨?_, ?_, ?_, ?_, ?_, ?_⟩
  · rw [since]
    exact le_rfl
  · intro _ _
    rw [since]
    rfl
  · intro c p polling
    cases polling
  · intro c p polling
    cases polling
  · intro c' _ _
    rw [since]
    exact Nat.zero_le _
  · intro c p polling
    cases polling

theorem Paced.elsewhere {a : Event} (P : Paced h past w) (R : Registry U w.state) (step : Step U G w.state a t)
    (other : a.caller ≠ h) : Paced h (past ++ [.elsewhere a (disturbs w.state a)]) ⟨t, w.pc⟩ := by
  have polled : lastPoll (past ++ [.elsewhere a (disturbs w.state a)]) = lastPoll past := lastPoll_append past _
  have call : lastCall (past ++ [.elsewhere a (disturbs w.state a)]) = lastCall past := lastCall_append past _
  obtain ⟨slept, tried, disturbed⟩ := sinceCall_grows past (.elsewhere a (disturbs w.state a)) rfl
  simp only [SocketEvent.time, SocketEvent.retries, SocketEvent.disturbing, Bool.toNat_false, Nat.add_zero]
    at slept tried disturbed
  refine ⟨?_, ?_, ?_, ?_, ?_, ?_⟩
  · rw [tried, disturbed]
    exact P.retries.trans (Nat.le_add_right _ _)
  · rw [slept]
    exact P.first
  · rw [slept, tried, polled]
    exact P.polling
  · rw [polled]
    exact P.poll
  · rw [slept, tried, call]
    exact P.ended
  · intro c p polling
    rw [tried, disturbed]
    rcases P.found c p polling with none | unread | paid
    · exact Or.inl none
    · cases calm : disturbs w.state a with
      | false => exact Or.inr (Or.inl (unread.step R step other calm))
      | true =>
          refine Or.inr (Or.inr ?_)
          change _ < _ + 1
          exact Nat.lt_succ_of_le P.retries
    · exact Or.inr (Or.inr (Nat.lt_add_right _ paid))

theorem Paced.polled {p : Poll} {a : PollEvent} {v : PollWorld} {fuel : Nat} {outcome : SleepOutcome}
    (P : Paced h past w) (polling : w.pc = .polling c p) (S : Standing h past (.polling c p))
    (one : pollStep U c.t fuel outcome ⟨fun _ => w.state, p⟩ = some (a, v)) :
    Paced h (past ++ [.polled a]) ⟨v.endpoint 0, .polling c v.poll⟩ := by
  obtain ⟨last, A, B⟩ := S
  have moves := pollStep_move one
  have short : timeSlept (lastPoll past ++ [a]) ≤ pollMs c.t * 1000000 := B.time_le (P.poll c p polling) moves
  have polled : lastPoll (past ++ [.polled a]) = lastPoll past ++ [a] := lastPoll_append past _
  obtain ⟨slept, tried, disturbed⟩ := sinceCall_grows past (.polled a) rfl
  simp only [SocketEvent.time, SocketEvent.retries, SocketEvent.disturbing, Bool.toNat_false, Nat.add_zero]
    at slept tried disturbed
  have paid : 0 ≤ c.timeout → sleptIn (sinceCall past) + a.time ≤
      c.whole * retriesIn (sinceCall past) + timeSlept (lastPoll past ++ [a]) := by
    intro timed
    rw [timeSlept_snoc, ← Nat.add_assoc]
    exact Nat.add_le_add_right (P.polling c p polling timed) _
  refine ⟨?_, ?_, ?_, ?_, ?_, ?_⟩
  · rw [tried, disturbed]
    exact P.retries
  · intro c first
    cases first
  · rintro c' p' ⟨⟩ timed
    rw [slept, tried, polled]
    exact paid timed
  · rintro c' p' ⟨⟩
    rw [polled]
    exact short
  · intro c' same timed
    rw [lastCall_append] at same
    obtain rfl : c = c' := Option.some.inj (last.symm.trans same)
    rw [slept, tried, Nat.mul_succ]
    refine (paid timed).trans (Nat.add_le_add_left ?_ _)
    rw [← Receive.whole_eq timed]
    exact short
  · rintro c' p' ⟨⟩
    rw [tried, disturbed]
    rcases pollStep_mine A.mine one with ⟨ready, checks⟩ | ⟨same, num⟩
    · have none := A.unflagged checks.due checks.some_left
      obtain ⟨passes, run, answer⟩ := checks.answer
      cases ready with
      | true => exact Or.inr (Or.inl (unread_of_ready run answer))
      | false => exact Or.inl (checks.num.trans none)
    · rw [same, num]
      exact P.found c p polling

theorem Poll.start_num (items : List PollItem) (timeout : Int) : (Poll.start items timeout).num = 0 :=
  Poll.endPass_num _ _

/-- The loop goes round: with a timeout only behind a poll that reported a
message, which something has taken away since. -/
theorem Paced.again {n : Option Nat} {alloc : Bool} {fuel : Nat} (P : Paced h past w) (S : Standing h past w.pc)
    (prior : Run (Step U G) (State.fresh conflate) before w.state) (few : wrapCount before < 2 ^ 32)
    (due : RecvDue w.pc c n) (run : msgRecv U G.size alloc h fuel w.state = some (passes, t))
    (code : recvCode passes = some 0) (on : c.goesOn 0 n = true) :
    Paced h (past ++ [.again n passes]) ⟨t, .polling c (.start [⟨(0, h), false⟩] c.t)⟩ := by
  have polled : lastPoll (past ++ [.again n passes]) = [] := lastPoll_append past _
  obtain ⟨slept, tried, disturbed⟩ := sinceCall_grows past (.again n passes) rfl
  simp only [SocketEvent.time, SocketEvent.disturbing, Bool.toNat_false, Nat.add_zero] at slept disturbed
  have calls := S.due due
  have paid : 0 ≤ c.timeout → sleptIn (sinceCall past) ≤
      c.whole * (retriesIn (sinceCall past) + (SocketEvent.again n passes).retries.toNat) := by
    intro timed
    generalize here : w.pc = pc at due
    cases due with
    | first => exact (P.first c here).le.trans (Nat.zero_le _)
    | @polled _ p returned =>
        have blocks : c.timeout ≠ -1 := by omega
        have one : p.num = 1 := by simpa [Receive.goesOn, blocks] using on
        have short := P.poll c p here
        rw [Receive.whole_eq timed] at short
        rw [SocketEvent.retries, one]
        change _ ≤ c.whole * (_ + 1)
        rw [Nat.mul_succ]
        exact (P.polling c p here timed).trans (Nat.add_le_add_left short _)
  refine ⟨?_, ?_, ?_, ?_, ?_, ?_⟩
  · rw [tried, disturbed]
    generalize here : w.pc = pc at due
    cases due with
    | first => exact P.retries
    | @polled _ p returned =>
        by_cases one : p.num = 1
        · rcases P.found c p here with none | unread | paid
          · omega
          · exact absurd code (unread.recv prior few run)
          · rw [SocketEvent.retries, one]
            exact paid
        · rw [SocketEvent.retries, beq_false_of_ne one]
          exact P.retries
  · intro c first
    cases first
  · rintro c' p' ⟨⟩ timed
    rw [slept, tried, polled]
    exact (paid timed).trans (Nat.le_add_right _ _)
  · rintro c' p' ⟨⟩
    rw [polled]
    exact Nat.zero_le _
  · intro c' same timed
    rw [lastCall_append] at same
    obtain rfl : c = c' := Option.some.inj (calls.symm.trans same)
    rw [slept, tried]
    exact (paid timed).trans (Nat.mul_le_mul_left _ (Nat.le_succ _))
  · rintro c' p' ⟨⟩
    exact Or.inl (Poll.start_num _ _)

theorem paced_run (prior : Run (Step U G) (State.fresh conflate) before s)
    (run : Run (SocketStep U G h) ⟨s, .idle⟩ past w)
    (few : wrapCount before + past.countP SocketEvent.wraps < 2 ^ 32) : Paced h past w := by
  induction run with
  | nil =>
      refine ⟨le_rfl, ?_, ?_, ?_, ?_, ?_⟩
      · intro c first
        cases first
      · intro c p polling
        cases polling
      · intro c p polling
        cases polling
      · intro c called
        cases called
      · intro c p polling
        cases polling
  | @snoc past w e w' run one ih =>
      have few' := wraps_before few
      have P := ih few'
      have S := standing_run run
      obtain ⟨calls, T⟩ := traced_run prior run few'
      have reached := prior.append T.run
      cases one.move with
      | called c idle => exact Paced.called c w.state
      | polled polling polls =>
          rw [polling] at S
          exact P.polled polling S polls
      | again due returns code on =>
          refine P.again S reached ?_ due returns code on
          rw [wrapCount_append, T.wraps]
          exact few'
      | returned => exact P.ends rfl rfl rfl rfl rfl (Or.inl rfl)
      | died => exact P.ends rfl rfl rfl rfl rfl (Or.inr rfl)
      | elsewhere call other => exact P.elsewhere (registry_reached reached) call other

/-- How long one receive sleeps: it tries again only as often as other calls
disturbed it, and a receive with a timeout sleeps at most that long and once more
for each disturbance. -/
theorem receive_time (prior : Run (Step U G) (State.fresh conflate) before s)
    (run : Run (SocketStep U G h) ⟨s, .idle⟩ past w)
    (few : wrapCount before + past.countP SocketEvent.wraps < 2 ^ 32) :
    retriesIn (sinceCall past) ≤ disturbancesIn (sinceCall past) ∧
      ∀ c, lastCall past = some c → 0 ≤ c.timeout →
        sleptIn (sinceCall past) ≤ c.whole * (disturbancesIn (sinceCall past) + 1) := by
  have P := paced_run prior run few
  refine ⟨P.retries, ?_⟩
  intro c last timed
  exact (P.ended c last timed).trans (Nat.mul_le_mul_left _ (Nat.succ_le_succ P.retries))

end pace

theorem receive_time_retried : ∃ (past : List SocketEvent) (w : SocketWorld),
    w.pc = .idle ∧ lastCall past = some fiveMs ∧ sleptIn (sinceCall past) = 8 * 1000000 ∧
    retriesIn (sinceCall past) ≤ disturbancesIn (sinceCall past) ∧
      ∀ c, lastCall past = some c → 0 ≤ c.timeout →
        sleptIn (sinceCall past) ≤ c.whole * (disturbancesIn (sinceCall past) + 1) := by
  obtain ⟨past, w, run, idle, last, slept, few⟩ := socketScript_shows ⟨attendedState, .idle⟩ retryingActions
    (p := fun past w => w.pc = .idle ∧ lastCall past = some fiveMs ∧ sleptIn (sinceCall past) = 8 * 1000000 ∧
      wrapCount [.initPublisher 0, .initSubscriber 1 false] + past.countP SocketEvent.wraps < 2 ^ 32) (by decide +kernel)
  exact ⟨past, w, idle, last, slept, receive_time attended_run run few⟩

/-! A receive that something lies before. -/

def SocketEvent.mine : SocketEvent → Bool
  | .elsewhere _ _ => false
  | _ => true

def SocketEvent.sleeps : SocketEvent → Bool
  | .polled e => e.isSleep
  | _ => false

def PollPc.stepsLeft : PollPc → Nat
  | .returned => 1
  | .first | .again _ => 2
  | .sleep => 3

/-- How many steps a receive takes at most when there is something to receive. -/
def SocketPc.stepsLeft : SocketPc → Nat
  | .idle | .died => 0
  | .first _ => 1
  | .polling _ p => p.pc.stepsLeft

/-- How many of them sleep. -/
def SocketPc.sleepsLeft : SocketPc → Nat
  | .polling _ p => if p.pc = .sleep then 1 else 0
  | _ => 0

/-- A pass that goes on has an item left. -/
def Poll.Going (p : Poll) : Prop := p.pc = .first ∨ (∃ ret, p.pc = .again ret) → p.rest ≠ []

section soon
variable {U : UidSource} {G : Segment} {conflate : Nat → Bool} {h : Nat} {before : List Event} {s : State}
  {past more : List SocketEvent} {w w' : SocketWorld} {e : SocketEvent} {c : Receive} {p : Poll}

theorem Poll.endPass_going (timeout : Int) (p : Poll) : (p.endPass timeout).Going := by
  have head : ∀ p : Poll, p.head.Going := by
    intro p on
    rw [Poll.head] at on
    dsimp only at on
    split_ifs at on <;> simp at on
  unfold Poll.endPass
  split
  · exact head p
  · split_ifs
    · intro on
      simp at on
    · exact head p
  · rename_i apart here
    intro on none
    rcases on with first | ⟨ret, again⟩
    · exact apart none first
    · exact here ret none again

theorem PollMove.going {asks : PollItem → Bool → Prop} {timeout : Int} {p' : Poll} {a : PollEvent} (G : p.Going)
    (move : PollMove asks timeout p a p') : p'.Going := by
  cases move with
  | elsewhere => exact G
  | check | pass | sleep | wake => exact Poll.endPass_going _ _

theorem going_run (run : Run (SocketStep U G h) ⟨s, .idle⟩ past w) : ∀ c p, w.pc = .polling c p → p.Going := by
  induction run with
  | nil =>
      intro c p polling
      cases polling
  | snoc _ one ih =>
      cases one.move with
      | polled polling polls =>
          rintro c' p' ⟨⟩
          exact (pollStep_move polls).going (ih _ _ polling)
      | again =>
          rintro c' p' ⟨⟩
          exact Poll.endPass_going _ _
      | elsewhere => exact ih
      | called | returned | died =>
          intro c p polling
          cases polling

/-- The pass over its one item ends a poll that has found something. -/
theorem returned_of_num {timeout : Int} (pc : p.pc = .first ∨ ∃ ret, p.pc = .again ret) (last : p.rest = [])
    (found : p.num ≠ 0) : (p.endPass timeout).pc = .returned := by
  have head : p.head.pc = .returned := if_neg found
  unfold Poll.endPass
  rcases pc with first | ⟨ret, again⟩
  · rw [last, first]
    exact head
  · rw [last, again]
    dsimp only
    split_ifs
    · rfl
    · exact head

/-- A subscriber that something lies before is told so at once. -/
theorem Unread.ready {fuel : Nat} {passes : List ReadyPass} {t : State} (unread : Unread s h)
    (run : msgReady U h fuel s = some (passes, t)) : passes.getLast? = some (.answer true) ∧ t = s := by
  obtain ⟨id, own, valid, away⟩ := unread
  have answer : readyPass U h s = (.answer true, s) := by
    simp [readyPass, own.1, own.2, valid, away]
  obtain ⟨rfl, rfl⟩ := Prod.mk.inj (loop_unique run (loop_done 0 answer rfl))
  exact ⟨rfl, rfl⟩

theorem pollStep_own {timeout : Int} {fuel : Nat} {outcome : SleepOutcome} {a : PollEvent} {v v' : PollWorld}
    (one : pollStep U timeout fuel outcome v = some (a, v')) (i : Nat) (other : AnyEvent) : a ≠ .elsewhere i other := by
  rintro rfl
  unfold pollStep at one
  dsimp only at one
  split at one
  · obtain ⟨r, -, same⟩ := Option.map_eq_some_iff.mp one
    cases same
  · split at one
    · cases one
    · obtain ⟨r, -, same⟩ := Option.map_eq_some_iff.mp one
      cases same
  · split at one
    · cases one
    · split at one <;> cases one
  · cases one
  · cases one
  · cases one

/-- A step of a poll with something before the subscriber. -/
theorem Unread.polled {polled : List PollEvent} {timeout : Int} {fuel : Nat} {outcome : SleepOutcome} {a : PollEvent}
    {v : PollWorld} (unread : Unread s h) (A : Accounted [(0, h)] polled p)
    (one : pollStep U timeout fuel outcome ⟨fun _ => s, p⟩ = some (a, v)) :
    v.endpoint 0 = s ∧ v.poll.pc.stepsLeft < p.pc.stepsLeft ∧
      (if v.poll.pc = .sleep then 1 else 0) + a.isSleep.toNat ≤ if p.pc = .sleep then 1 else 0 := by
  have ends : ∀ {q : Poll}, (p.pc = .first ∨ ∃ ret, p.pc = .again ret) → q.pc = .returned →
      q.pc.stepsLeft < p.pc.stepsLeft ∧ (if q.pc = .sleep then 1 else 0) + 0 ≤ if p.pc = .sleep then 1 else 0 := by
    rintro q (first | ⟨ret, again⟩) returned
    · simp [returned, first, PollPc.stepsLeft]
    · simp [returned, again, PollPc.stepsLeft]
  -- behind a sleep another pass over the item is due
  have wakes : ∀ {q : Poll} {ret : Int}, p.pc = .sleep → q.rest = p.rest → q.pc = .again ret → p.items = [] →
      (q.endPass timeout).pc.stepsLeft < p.pc.stepsLeft ∧
        (if (q.endPass timeout).pc = .sleep then 1 else 0) + 1 ≤ if p.pc = .sleep then 1 else 0 := by
    intro q ret sleep rest again none
    have stays : q.endPass timeout = q := by
      unfold Poll.endPass
      rw [rest, again]
      have polls : p.rest ≠ [] := by
        intro empty
        have same := A.same
        rw [Poll.polls, none, empty] at same
        cases same
      split
      · contradiction
      · contradiction
      · rfl
    rw [stays, again, sleep]
    exact ⟨Nat.lt_succ_self 2, le_rfl⟩
  have still : (∀ ready, ¬ Checks U h fuel timeout s p ready v) → v.endpoint 0 = s := by
    intro none
    rcases pollStep_mine A.mine one with ⟨ready, checks⟩ | ⟨same, -⟩
    · exact absurd checks (none ready)
    · exact same
  have asleep : p.pc = .sleep → ∀ ready, ¬ Checks U h fuel timeout s p ready v := by
    intro pc ready checks
    rcases checks.due with first | ⟨⟨ret, again⟩, -⟩
    · rw [pc] at first
      cases first
    · rw [pc] at again
      cases again
  have moves := pollStep_move one
  generalize hp : v.poll = p' at moves
  cases moves with
  | @check x xs ready rest pc asks =>
      obtain ⟨here, items, last⟩ := A.last_item rest
      obtain ⟨fuel', asked⟩ := asks
      obtain ⟨passes, run, answer⟩ := checkItem_ready here asked
      obtain ⟨truth, same⟩ := unread.ready run
      obtain rfl : ready = true := by simpa [answer] using truth
      refine ⟨same, ends (pc.imp_right And.left) ?_⟩
      exact returned_of_num (pc.imp_right And.left) last (Nat.succ_ne_zero _)
  | @pass x xs ret rest pc flagged =>
      replace rest : p.rest = x :: xs := rest
      replace pc : p.pc = .again ret := pc
      obtain ⟨here, items, last⟩ := A.last_item rest
      refine ⟨still ?_, ends (Or.inr ⟨ret, pc⟩) (returned_of_num (Or.inr ⟨ret, pc⟩) last ?_)⟩
      · intro ready checks
        rcases checks.due with first | ⟨-, clear⟩
        · rw [pc] at first
          cases first
        · have clear := clear x (by simp [rest])
          rw [flagged] at clear
          cases clear
      · have count := A.flags.count
        rw [Poll.known_later p (by simp [pc]), items, rest, last] at count
        simp [count, flagged]
  | sleep pc => exact ⟨still (asleep pc), wakes pc rfl rfl (A.idle pc).1⟩
  | wake pc short => exact ⟨still (asleep pc), wakes pc rfl rfl (A.idle pc).1⟩
  | elsewhere => exact absurd rfl (pollStep_own one _ _)

theorem SocketPc.stepsLeft_le (pc : SocketPc) : pc.stepsLeft ≤ 3 := by
  cases pc with
  | idle => exact Nat.zero_le 3
  | died => exact Nat.zero_le 3
  | first => exact Nat.succ_le_succ (Nat.zero_le 2)
  | polling c p =>
      change p.pc.stepsLeft ≤ 3
      cases p.pc with
      | first => exact Nat.le_succ 2
      | again => exact Nat.le_succ 2
      | sleep => exact le_rfl
      | returned => exact Nat.succ_le_succ (Nat.zero_le 2)

theorem SocketPc.sleepsLeft_le (pc : SocketPc) : pc.sleepsLeft ≤ 1 := by
  unfold SocketPc.sleepsLeft
  split
  · split_ifs
    · exact le_rfl
    · exact Nat.zero_le 1
  · exact Nat.zero_le 1

/-- What a receive under way comes to behind `more`: it has returned within its
steps, with a message unless the allocation failed, or it has so many left. -/
def Soon (h : Nat) (pc : SocketPc) (more : List SocketEvent) (w : SocketWorld) : Prop :=
  (∃ early passes m late, more = early ++ .returned passes m :: late ∧
    early.countP SocketEvent.mine < pc.stepsLeft ∧ early.countP SocketEvent.sleeps ≤ pc.sleepsLeft ∧
    (m = none → ∃ p, passes.getLast? = some (.noMemory p))) ∨
  Unread w.state h ∧ 0 < w.pc.stepsLeft ∧ more.countP SocketEvent.mine + w.pc.stepsLeft ≤ pc.stepsLeft ∧
    more.countP SocketEvent.sleeps + w.pc.sleepsLeft ≤ pc.sleepsLeft

/-- One step of a receive that something lies before. -/
theorem Unread.move (unread : Unread w.state h) (busy : 0 < w.pc.stepsLeft) (S : Standing h past w.pc)
    (reached : Run (Step U G) (State.fresh conflate) before w.state) (few : wrapCount before < 2 ^ 32)
    (calm : e.disturbing = false) (move : SocketMove U G h w e w') :
    (∃ passes m, e = .returned passes m ∧ (m = none → ∃ p, passes.getLast? = some (.noMemory p))) ∨
      Unread w'.state h ∧ 0 < w'.pc.stepsLeft ∧ e.mine.toNat + w'.pc.stepsLeft ≤ w.pc.stepsLeft ∧
        e.sleeps.toNat + w'.pc.sleepsLeft ≤ w.pc.sleepsLeft := by
  have start : Traced U G h w.state [] w.state [] := ⟨.nil, rfl, rfl, rfl⟩
  have few' : wrapCount before + [].countP SocketEvent.wraps < 2 ^ 32 := few
  cases move with
  | called c idle =>
      rw [idle] at busy
      cases busy
  | @polled c p a fuel outcome v polling one =>
      rw [polling] at S ⊢
      obtain ⟨same, steps, sleeps⟩ := unread.polled S.2.1 one
      refine Or.inr ⟨?_, ?_, ?_, ?_⟩
      · rw [same]
        exact unread
      · change 0 < v.poll.pc.stepsLeft
        cases v.poll.pc <;> exact Nat.succ_pos _
      · change 1 + v.poll.pc.stepsLeft ≤ p.pc.stepsLeft
        omega
      · rw [Nat.add_comm]
        exact sleeps
  | again due run code on => exact absurd code (unread.recv reached few run)
  | @returned c n passes t alloc fuel rc due run code off =>
      refine Or.inl ⟨_, _, rfl, ?_⟩
      intro none
      have nothing := (code_of_returned reached start few' run code).symm.trans none
      refine recvCode_other nothing code ?_
      rintro rfl
      exact unread.recv reached few run code
  | died due run dies =>
      obtain ⟨id, own, -⟩ := unread
      have unregistered := unregistered_of_died reached start few' run dies
      rw [own.1] at unregistered
      cases unregistered
  | @elsewhere a t one other =>
      have kept := unread.step (registry_reached reached) one other calm
      refine Or.inr ⟨kept, busy, ?_, ?_⟩
      · exact (Nat.zero_add _).le
      · exact (Nat.zero_add _).le

theorem soon_run (prior : Run (Step U G) (State.fresh conflate) before s)
    (run : Run (SocketStep U G h) ⟨s, .idle⟩ past w) (unread : Unread w.state h) (busy : 0 < w.pc.stepsLeft)
    (rest : Run (SocketStep U G h) w more w') (calm : ∀ e ∈ more, e.disturbing = false)
    (few : wrapCount before + (past ++ more).countP SocketEvent.wraps < 2 ^ 32) : Soon h w.pc more w' := by
  induction rest with
  | nil => exact Or.inr ⟨unread, busy, (Nat.zero_add _).le, (Nat.zero_add _).le⟩
  | @snoc more v e u rest one ih =>
      have before_e : wrapCount before + (past ++ more).countP SocketEvent.wraps < 2 ^ 32 := by
        rw [← List.append_assoc] at few
        exact wraps_before few
      have whole := run.append rest
      rcases ih (fun e mem => calm e (List.mem_append_left _ mem)) before_e with done | ⟨kept, on, steps, sleeps⟩
      · obtain ⟨early, passes, m, late, split, fast, awake, reason⟩ := done
        exact Or.inl ⟨early, passes, m, late ++ [e], by rw [split]; simp, fast, awake, reason⟩
      · obtain ⟨calls, T⟩ := traced_run prior whole before_e
        have few' : wrapCount (before ++ calls) < 2 ^ 32 := by
          rw [wrapCount_append, T.wraps]
          exact before_e
        rcases kept.move on (standing_run whole) (prior.append T.run) few' (calm e (by simp)) one.move with
          ⟨passes, m, rfl, reason⟩ | ⟨kept', on', steps', sleeps'⟩
        · refine Or.inl ⟨more, passes, m, [], rfl, ?_, ?_, reason⟩
          · omega
          · omega
        · refine Or.inr ⟨kept', on', ?_, ?_⟩
          · rw [List.countP_append, List.countP_singleton]
            cases mine : e.mine
            all_goals
              rw [mine] at steps'
              simp at steps' ⊢
              omega
          · rw [List.countP_append, List.countP_singleton]
            cases slept : e.sleeps
            all_goals
              rw [slept] at sleeps'
              simp at sleeps' ⊢
              omega

/-- A receive under way is never stuck where something lies before it. -/
theorem Unread.can_step (unread : Unread w.state h) (busy : 0 < w.pc.stepsLeft) (S : Standing h past w.pc)
    (going : ∀ c p, w.pc = .polling c p → p.Going)
    (reached : Run (Step U G) (State.fresh conflate) before w.state) (few : wrapCount before < 2 ^ 32) :
    ∃ e w', SocketStep U G h w e w' ∧ e.mine = true := by
  obtain ⟨id, own, valid, away⟩ := unread
  obtain ⟨ms, marks, trail, -⟩ := (intactRun reached few).trail own valid
  have walk : OnTrail G.size w.state h id ms marks := ⟨own, valid, trail⟩
  have receives : ∃ fuel r, msgRecv U G.size true h fuel w.state = some r := by
    obtain ⟨fuel, passes, t, run, -⟩ := walk.recv U true G.small
    exact ⟨fuel, _, run⟩
  have mine : ∀ c n r, (receiveThen h c n r).1.mine = true := by
    intro c n r
    unfold receiveThen
    split
    · rfl
    · split_ifs <;> rfl
  obtain ⟨fuel, r, run⟩ := receives
  cases pc : w.pc with
  | idle =>
      rw [pc] at busy
      cases busy
  | died =>
      rw [pc] at busy
      cases busy
  | first c =>
      refine ⟨_, (receiveThen h c none r).2, .socket c true fuel .finished ?_, mine c none r⟩
      rw [socketStep, pc]
      dsimp only
      rw [run]
      rfl
  | polling c p =>
      rw [pc] at S
      by_cases returned : p.pc = .returned
      · refine ⟨_, (receiveThen h c (some p.num) r).2, .socket c true fuel .finished ?_, mine c (some p.num) r⟩
        rw [socketStep, pc]
        dsimp only
        rw [if_pos returned, run]
        rfl
      have polls : ∃ e v, pollStep U c.t 1 .finished ⟨fun _ => w.state, p⟩ = some (e, v) := by
        have answer : readyPass U h w.state = (.answer true, w.state) := by
          simp [readyPass, own.1, own.2, valid, away]
        have check : ∀ {x xs}, p.rest = x :: xs → ∃ r, checkItem U 1 (fun _ => w.state) x = some r := by
          intro x xs rest
          refine ⟨(true, Function.update (fun _ => w.state) 0 w.state), ?_⟩
          rw [checkItem, (S.2.1.last_item rest).1, msgReady, loop_done 0 answer rfl]
          rfl
        have on := going c p pc
        unfold pollStep
        dsimp only
        split
        · rename_i rest
          obtain ⟨r, asked⟩ := check rest
          rw [asked]
          exact ⟨_, _, rfl⟩
        · rename_i rest
          split
          · exact ⟨_, _, rfl⟩
          · obtain ⟨r, asked⟩ := check rest
            rw [asked]
            exact ⟨_, _, rfl⟩
        · exact ⟨_, _, rfl⟩
        · rename_i first rest
          exact absurd rest (on (Or.inl first))
        · rename_i ret again rest
          exact absurd rest (on (Or.inr ⟨ret, again⟩))
        · contradiction
      obtain ⟨e, v, one⟩ := polls
      refine ⟨.polled e, ⟨v.endpoint 0, .polling c v.poll⟩, .socket c true 1 .finished ?_, rfl⟩
      rw [socketStep, pc]
      dsimp only
      rw [if_neg returned, one]
      rfl

/-- How fast a message is noticed, a lost signal included: once something lies
before a receive under way, and as long as no other call disturbs it, it is never
stuck and returns with its third step at the latest, having slept at most once;
it returns a message unless the allocation fails. -/
theorem unread_received_soon (prior : Run (Step U G) (State.fresh conflate) before s)
    (run : Run (SocketStep U G h) ⟨s, .idle⟩ past w) (unread : Unread w.state h) (busy : 0 < w.pc.stepsLeft)
    (rest : Run (SocketStep U G h) w more w') (calm : ∀ e ∈ more, e.disturbing = false)
    (few : wrapCount before + (past ++ more).countP SocketEvent.wraps < 2 ^ 32) :
    (∃ early passes m late, more = early ++ .returned passes m :: late ∧
      early.countP SocketEvent.mine ≤ 2 ∧ early.countP SocketEvent.sleeps ≤ 1 ∧
      (m = none → ∃ p, passes.getLast? = some (.noMemory p))) ∨
    more.countP SocketEvent.mine ≤ 2 ∧ ∃ e v, SocketStep U G h w' e v ∧ e.mine = true := by
  have most := w.pc.stepsLeft_le
  rcases soon_run prior run unread busy rest calm few with
    ⟨early, passes, m, late, split, fast, awake, reason⟩ | ⟨kept, on, steps, -⟩
  · exact Or.inl ⟨early, passes, m, late, split, by omega, awake.trans w.pc.sleepsLeft_le, reason⟩
  · refine Or.inr ⟨by omega, ?_⟩
    have whole := run.append rest
    obtain ⟨calls, T⟩ := traced_run prior whole few
    refine kept.can_step on (standing_run whole) (going_run whole) (prior.append T.run) ?_
    rw [wrapCount_append, T.wraps]
    exact few

end soon

/-- The message comes, unsignalled, between the check of the queue and the sleep. -/
def sleepingActions : List SocketAction := [goesOn, goesOn, goesOn, .elsewhere (.send 0 (byteMsg 1))]

theorem unread_received_soon_asleep : ∃ (past more : List SocketEvent) (w w' : SocketWorld),
    Run (SocketStep countingUids tinySegment 1) ⟨attendedState, .idle⟩ past w ∧
    Run (SocketStep countingUids tinySegment 1) w more w' ∧ more.countP SocketEvent.sleeps = 1 ∧
    ((∃ early passes m late, more = early ++ .returned passes m :: late ∧
      early.countP SocketEvent.mine ≤ 2 ∧ early.countP SocketEvent.sleeps ≤ 1 ∧
      (m = none → ∃ p, passes.getLast? = some (.noMemory p))) ∨
    more.countP SocketEvent.mine ≤ 2 ∧ ∃ e v, SocketStep countingUids tinySegment 1 w' e v ∧ e.mine = true) := by
  obtain ⟨past, w, run, own, valid, away, busy, few, goes⟩ := socketScript_shows ⟨attendedState, .idle⟩ sleepingActions
    (p := fun past w => Owns w.state 1 0 ∧ w.state.q.readValids 0 = true ∧
      w.state.q.readOffset 0 ≠ w.state.q.writeOffset ∧ 0 < w.pc.stepsLeft ∧ past.countP SocketEvent.wraps = 0 ∧
      ((socketScript w [goesOn, goesOn, goesOn]).any fun r => r.1.countP SocketEvent.sleeps = 1 ∧
        r.1.countP SocketEvent.wraps = 0 ∧ ∀ e ∈ r.1, e.disturbing = false) = true) (by decide +kernel)
  obtain ⟨more, w', rest, slept, few', calm⟩ := socketScript_shows w [goesOn, goesOn, goesOn]
    (p := fun more _ => more.countP SocketEvent.sleeps = 1 ∧ more.countP SocketEvent.wraps = 0 ∧
      ∀ e ∈ more, e.disturbing = false) goes
  refine ⟨past, more, w, w', run, rest, slept, ?_⟩
  refine unread_received_soon attended_run run ⟨0, own, valid, away⟩ busy rest calm ?_
  rw [List.countP_append, few, few']
  decide

end Msgq
