import Msgq.Emptiness
import Msgq.Fake

/-! A publisher that waits for its readers. When every send follows a
`wait_for_readers` that returned, the ring is a rendezvous: no flag is ever
cleared and no subscriber, conflating or not, misses a message, on a segment of
any size and over any number of wraps. -/
namespace Msgq
open ByteMemory FramedRecords Traces

/-- `waited` says that the last `all_readers_updated` was true and nothing was sent since. -/
structure PubWorld where
  state : State
  waited : Bool

inductive PubEvent
  | checked (updated : Bool)
  | call (e : Event)
  deriving DecidableEq

def PubEvent.call? : PubEvent → Option Event
  | .call e => some e
  | .checked _ => none

def callsOf (past : List PubEvent) : List Event := past.filterMap PubEvent.call?

/-- One look of `wait_for_readers`, or any call; a message is sent only behind a
look that ended the wait. -/
inductive SyncedStep (U : UidSource) (G : Segment) : PubWorld → PubEvent → PubWorld → Prop
  | checked (w) : SyncedStep U G w (.checked (allReadersUpdated w.state.q)) ⟨w.state, allReadersUpdated w.state.q⟩
  | call {w e t} : Step U G w.state e t → (e.sent? ≠ none → w.waited = true) →
      SyncedStep U G w (.call e) ⟨t, w.waited && e.sent?.isNone⟩

def Event.registers (h : Nat) : Event → Bool
  | .initSubscriber h' _ => h' = h
  | .recv h' passes => h' = h && passes.contains .evicted
  | .ready h' passes => h' = h && passes.contains .evicted
  | .initPublisher _ | .sent _ _ _ | .refused _ _ | .aborted _ _ => false

def Event.sinceRegistered (h : Nat) (before : List Event) (e : Event) : List Event :=
  if e.registers h then [] else before ++ [e]

/-- What happened since the last registration of a handle. -/
def sinceRegistered (h : Nat) (past : List Event) : List Event := past.foldl (Event.sinceRegistered h) []

/-- Every owner's flag is set. -/
def AllValid (s : State) : Prop := ∀ h id, Owns s h id → s.q.readValids id = true

/-- Every owner stands at the write pointer. -/
def AllRead (s : State) : Prop := ∀ h id, Owns s h id → s.q.readPointers id = s.q.writePointer

section states
variable {U : UidSource} {G : Segment} {size : Nat} {s t : State} {h h' id : Nat} {alloc : Bool} {lap : List Bytes}
  {front : Nat} {b : Spec}

theorem AllValid.congr (V : AllValid s) (k : SameRegistry s t)
    (valids : ∀ id, s.q.readValids id = true → t.q.readValids id = true) : AllValid t := by
  intro h id own
  exact valids id (V h id (k.owns.mp own))

theorem AllValid.initSubscriber (R : Registry U s) (V : AllValid s) (h : Nat) :
    AllValid (Msgq.initSubscriber U s h) := by
  intro h' id own
  by_cases same : h' = h
  · subst same
    rw [own.slot_unique (initSubscriber_owns s h')]
    exact (initSubscriber_slot s h').2.1
  · obtain ⟨before, -, -, valids, -⟩ := initSubscriber_owner_ne R.roster same own
    rw [valids]
    exact V h' id before

theorem AllRead.initSubscriber (R : Registry U s) (A : AllRead s) (h : Nat) :
    AllRead (Msgq.initSubscriber U s h) := by
  intro h' id own
  rw [(initSubscriber_same s h).1]
  by_cases same : h' = h
  · subst same
    rw [own.slot_unique (initSubscriber_owns s h')]
    exact (initSubscriber_slot s h').2.2
  · obtain ⟨before, -, -, -, pointers⟩ := initSubscriber_owner_ne R.roster same own
    rw [pointers]
    exact A h' id before

/-- Where every flag is set a pass never resets. -/
theorem OnePass.allValid (one : OnePass U h s t) (both : Registry U s ∧ AllValid s) : Registry U t ∧ AllValid t := by
  obtain ⟨R, V⟩ := both
  refine ⟨one.registry R, ?_⟩
  cases one with
  | stay => exact V
  | register => exact V.initSubscriber R h
  | @reset id own unset =>
      rw [V h id own] at unset
      cases unset
  | @move id c o => exact V.congr (sameRegistry_setReadPointer s _ _) fun _ valid => valid

/-- Where everything is read a receive pass finds nothing, or registers. -/
theorem AllRead.recvPass (V : AllValid s) (A : AllRead s) :
    (Msgq.recvPass U size alloc h s).2 = s ∨ (Msgq.recvPass U size alloc h s).2 = Msgq.initSubscriber U s h := by
  cases hid : (s.handle h).readerId with
  | none =>
      rw [recvPass_unregistered hid]
      exact Or.inl rfl
  | some id =>
      by_cases huid : (s.handle h).readUidLocal = s.q.readUids id
      · have own : Owns s h id := ⟨hid, huid⟩
        have at_end : s.q.readOffset id = s.q.writeOffset := congrArg (fun v => (unpack64 v).2) (A h id own)
        rw [recvPass_empty own (V h id own) at_end]
        exact Or.inl rfl
      · rw [recvPass_evicted hid huid]
        exact Or.inr rfl

theorem AllRead.readyPass (V : AllValid s) :
    (Msgq.readyPass U h s).2 = s ∨ (Msgq.readyPass U h s).2 = Msgq.initSubscriber U s h := by
  unfold Msgq.readyPass
  cases hid : (s.handle h).readerId with
  | none => exact Or.inl rfl
  | some id =>
      by_cases huid : (s.handle h).readUidLocal = s.q.readUids id
      · have valid := V h id ⟨hid, huid⟩
        simp [huid, valid]
      · simp [huid]

/-- Calls other than an accepted send keep every flag set and every owner at the
write pointer. -/
theorem quiet_synced {e : Event} (R : Registry U s) (V : AllValid s) (step : Step U G s e t) (silent : e.sent? = none) :
    AllValid t ∧ (AllRead s → AllRead t) := by
  cases step with
  | initPublisher h =>
      have nobody := initPublisher_no_owner R h
      refine ⟨fun h' id own => absurd own (nobody h' id), ?_⟩
      intro _ h' id own
      exact absurd own (nobody h' id)
  | initSubscriber h => exact ⟨V.initSubscriber R h, fun A => A.initSubscriber R h⟩
  | refused => exact ⟨V, id⟩
  | aborted => exact ⟨V, id⟩
  | sent => cases silent
  | recv run =>
      refine ⟨(recv_keeps OnePass.allValid ⟨R, V⟩ run).2, ?_⟩
      intro A
      refine (loop_invariant (I := fun _ u => (Registry U u ∧ AllValid u) ∧ AllRead u) ?_ ⟨⟨R, V⟩, A⟩ run).2
      rintro ks u ⟨both, A'⟩
      refine ⟨(recvPass_onePass u).allValid both, ?_⟩
      rcases A'.recvPass both.2 with same | registers
      · rw [same]
        exact A'
      · rw [registers]
        exact A'.initSubscriber both.1 _
  | ready run =>
      refine ⟨(ready_keeps OnePass.allValid ⟨R, V⟩ run).2, ?_⟩
      intro A
      refine (loop_invariant (I := fun _ u => (Registry U u ∧ AllValid u) ∧ AllRead u) ?_ ⟨⟨R, V⟩, A⟩ run).2
      rintro ks u ⟨both, A'⟩
      refine ⟨(readyPass_onePass u).allValid both, ?_⟩
      rcases AllRead.readyPass both.2 with same | registers
      · rw [same]
        exact A'
      · rw [registers]
        exact A'.initSubscriber both.1 _

/-- No send ends at a reader that has read everything. -/
theorem AllRead.not_meets {m : Bytes} (hsize : size < 0xFFFFFFFF) (ok : (s.q.view size lap front).Ok)
    (fits : Fits size m) (A : AllRead s) (h : Nat) : ¬ Meets size h s m.length := by
  rintro ⟨id, own, -, meets, differ⟩
  have hr : s.q.readOffset id = s.q.writeOffset := congrArg (fun v => (unpack64 v).2) (A h id own)
  have hc : s.q.readCycles id = s.q.writeCycles := congrArg (fun v => (unpack64 v).1) (A h id own)
  rw [record_stop hsize ok fits] at meets
  cases hw : mustWrap size s.q m.length with
  | true =>
      have := mustWrap_offset hsize fits hw
      simp only [recordOffset, hw, if_true] at meets
      omega
  | false =>
      simp only [recordCycles, hw, Bool.false_eq_true, if_false] at differ
      exact differ hc

end states

/-! What one subscriber has before it. -/

section readers
variable {U : UidSource} {G : Segment} {size : Nat} {s t : State} {h id : Nat} {alloc : Bool} {lap : List Bytes}
  {closed : Nat → Prop} {b : Spec}

theorem Spec.pass_nothing (nothing : Broadcast.unread b h = []) (p : Pass) :
    Broadcast.unread (Spec.pass h b p) h = [] := by
  cases p with
  | evicted | invalid | lapped | torn =>
      rw [Spec.pass, Broadcast.unread_seek]
      exact Function.update_self ..
  | skipped =>
      rw [Spec.pass, Broadcast.unread_skip, Function.update_self, nothing]
      rfl
  | message =>
      rw [Spec.pass, Broadcast.unread_advance, Function.update_self, nothing]
      rfl
  | unregistered | empty | wrapped | garbage | noMemory => exact nothing

theorem Spec.passes_nothing (nothing : Broadcast.unread b h = []) (passes : List Pass) :
    Broadcast.unread (passes.foldl (Spec.pass h) b) h = [] := by
  induction passes generalizing b with
  | nil => exact nothing
  | cons p ps ih => exact ih (Spec.pass_nothing nothing p)

/-- A receive that registers again leaves nothing unread. -/
theorem Spec.passes_registered {passes : List Pass} (registers : Pass.evicted ∈ passes) (b : Spec) :
    Broadcast.unread (passes.foldl (Spec.pass h) b) h = [] := by
  obtain ⟨early, late, rfl⟩ := List.append_of_mem registers
  rw [List.foldl_append, List.foldl_cons]
  apply Spec.passes_nothing
  rw [Spec.pass, Broadcast.unread_seek]
  exact Function.update_self ..

theorem Spec.readyPasses_registered {passes : List ReadyPass} (registers : ReadyPass.evicted ∈ passes) (b : Spec) :
    Broadcast.unread (passes.foldl (Spec.readyPass h) b) h = [] := by
  have keeps : ∀ (ps : List ReadyPass) (b : Spec), Broadcast.unread b h = [] →
      Broadcast.unread (ps.foldl (Spec.readyPass h) b) h = [] := by
    intro ps
    induction ps with
    | nil => exact fun _ nothing => nothing
    | cons p ps ih =>
        intro b nothing
        apply ih
        cases p with
        | evicted | invalid =>
            rw [Spec.readyPass, Broadcast.unread_seek]
            exact Function.update_self ..
        | unregistered | answer => exact nothing
  obtain ⟨early, late, rfl⟩ := List.append_of_mem registers
  rw [List.foldl_append, List.foldl_cons]
  apply keeps
  rw [Spec.readyPass, Broadcast.unread_seek]
  exact Function.update_self ..

/-- An owner whose flag is set is neither registered again nor reset. -/
theorem recvPass_settled (own : Owns s h id) (valid : s.q.readValids id = true) {k : Pass}
    (label : (recvPass U size alloc h s).1 = k) :
    k ≠ .unregistered ∧ k ≠ .evicted ∧ k ≠ .invalid ∧ (∀ p, k ≠ .lapped p) ∧ ∀ p n, k ≠ .torn p n := by
  subst label
  have flagged : ∀ v, (setReadPointer s.q id v).readValids id = true := fun _ => valid
  simp only [recvPass, own.1, own.2, valid, flagged, ne_eq, not_true_eq_false, if_false, Bool.not_true,
    Bool.false_eq_true]
  split_ifs <;> simp

/-- With at most one message unread a pass takes it or leaves it, and never skips it. -/
theorem Followed.pass_lossless (alloc : Bool) (hsize : size < 0xFFFFFFFF)
    (F : Followed (exactLaps closed) (· = h) U size s lap (s.q.writeOffset + 1) b) (own : Owns s h id)
    (valid : s.q.readValids id = true) (single : (Broadcast.unread b h).length ≤ 1)
    (started : lap = [] → ∀ e, ¬ closed e) :
    Broadcast.unread b h = (Msgq.recvPass U size alloc h s).1.message?.toList ++
      Broadcast.unread (Spec.pass h b (Msgq.recvPass U size alloc h s).1) h := by
  obtain ⟨-, g, follows, -⟩ := recvPass_tracked alloc hsize (Nat.le_succ _) F.tracked rfl F.unread_nonempty
  have next := follows.unread
  have F' := F.recvPass alloc hsize h
  have kept : Owns (Msgq.recvPass U size alloc h s).2 h id ∧
      (Msgq.recvPass U size alloc h s).2.q.readValids id = true := (recvPass_onePass s).owner ⟨own, valid⟩
  generalize same : Msgq.recvPass U size alloc h s = r at follows next F' kept
  obtain ⟨k, t⟩ := r
  obtain ⟨registered, settled, flagged, unlapped, untorn⟩ :=
    recvPass_settled own valid (congrArg Prod.fst same)
  dsimp only at follows next F' kept ⊢
  cases k with
  | message p m =>
      obtain ⟨rest, ahead, rfl⟩ := follows
      rw [← next, Function.update_self, ahead]
      rfl
  | skipped p n =>
      obtain ⟨m, rest, ahead, -, rfl⟩ := follows
      have last : rest = [] := by simpa [ahead] using single
      obtain ⟨-, id', own', -, apart⟩ := recvPass_skipped same
      rw [own'.slot_unique kept.1] at apart
      have at_end := F'.tracked.caught_up rfl kept.1 kept.2 started (by rw [← next, Function.update_self, last])
      exact absurd at_end.1 apart
  | empty | wrapped | noMemory =>
      rw [← next, follows]
      rfl
  | garbage => exact follows.elim
  | unregistered => exact absurd rfl registered
  | evicted => exact absurd rfl settled
  | invalid => exact absurd rfl flagged
  | lapped p => exact absurd rfl (unlapped p)
  | torn p n => exact absurd rfl (untorn p n)

/-- A receive of a handle that owns no slot registers it, or changes nothing. -/
theorem recv_ownerless {fuel : Nat} {passes : List Pass} (run : msgRecv U size alloc h fuel s = some (passes, t))
    (ownerless : ∀ id, ¬ Owns s h id) (settled : Pass.evicted ∉ passes) : t = s := by
  obtain ⟨first, ends⟩ := loop_first run
  cases hid : (s.handle h).readerId with
  | none =>
      rw [recvPass_unregistered hid] at ends
      exact ends rfl
  | some id =>
      have huid : (s.handle h).readUidLocal ≠ s.q.readUids id := fun same => ownerless id ⟨hid, same⟩
      rw [recvPass_evicted hid huid] at first
      exact absurd first settled

theorem ready_ownerless {fuel : Nat} {passes : List ReadyPass} (run : msgReady U h fuel s = some (passes, t))
    (ownerless : ∀ id, ¬ Owns s h id) (settled : ReadyPass.evicted ∉ passes) : t = s := by
  obtain ⟨first, ends⟩ := loop_first run
  unfold readyPass at first ends
  cases hid : (s.handle h).readerId with
  | none =>
      rw [hid] at ends
      exact ends rfl
  | some id =>
      have huid : (s.handle h).readUidLocal ≠ s.q.readUids id := fun same => ownerless id ⟨hid, same⟩
      rw [hid] at first
      dsimp only at first
      rw [if_pos huid] at first
      exact absurd first settled

/-- A receive of an owner takes what it returns off the front, and skips nothing. -/
theorem Followed.recv_lossless {fuel : Nat} {passes : List Pass} (hsize : size < 0xFFFFFFFF)
    (F : Followed (exactLaps closed) (· = h) U size s lap (s.q.writeOffset + 1) b) (own : Owns s h id)
    (valid : s.q.readValids id = true) (single : (Broadcast.unread b h).length ≤ 1)
    (started : lap = [] → ∀ e, ¬ closed e) (run : msgRecv U size alloc h fuel s = some (passes, t)) :
    Owns t h id ∧ Broadcast.unread b h =
      passes.filterMap Pass.message? ++ Broadcast.unread (passes.foldl (Spec.pass h) b) h := by
  let I : List Pass → State → Prop := fun ks u => (Owns u h id ∧ u.q.readValids id = true) ∧
    Followed (exactLaps closed) (· = h) U size u lap (u.q.writeOffset + 1) (ks.foldl (Spec.pass h) b) ∧
      Broadcast.unread b h = ks.filterMap Pass.message? ++ Broadcast.unread (ks.foldl (Spec.pass h) b) h
  have keep : ∀ ks u, I ks u → I (ks ++ [(Msgq.recvPass U size alloc h u).1]) (Msgq.recvPass U size alloc h u).2 := by
    rintro ks u ⟨both, F', ahead⟩
    have short : (Broadcast.unread (ks.foldl (Spec.pass h) b) h).length ≤ 1 := by
      rw [ahead, List.length_append] at single
      omega
    have next := F'.pass_lossless alloc hsize both.1 both.2 short started
    refine ⟨(recvPass_onePass u).owner both, ?_, ?_⟩
    · have off : (Msgq.recvPass U size alloc h u).2.q.writeOffset = u.q.writeOffset := by
        rw [Queue.writeOffset, Queue.writeOffset, (recvPass_onePass u).quiet.writePointer]
      rw [off, List.foldl_append]
      exact F'.recvPass alloc hsize h
    · rw [ahead, List.foldl_append, List.filterMap_append, next, List.append_assoc]
      cases got : (Msgq.recvPass U size alloc h u).1.message? <;> simp [got]
  obtain ⟨both, -, ahead⟩ := loop_invariant keep ⟨⟨own, valid⟩, F, rfl⟩ run
  exact ⟨both.1, ahead⟩

/-- A reader at the write pointer has nothing unread. -/
theorem Followed.nothing_unread (F : Followed (exactLaps closed) (· = h) U size s lap (s.q.writeOffset + 1) b)
    (own : Owns s h id) (valid : s.q.readValids id = true) (at_end : s.q.readOffset id = s.q.writeOffset) :
    Broadcast.unread b h = [] := by
  rcases F.tracked.at_slot h id rfl own valid with here | back
  · exact (here.nil_iff F.tracked.ok).mpr at_end
  · have beyond : s.q.writeOffset + 1 ≤ s.q.readOffset id := back.2.1
    omega

/-- An owner keeps its slot through its own passes. -/
theorem OnePass.owns_self (one : OnePass U h s t) (own : Owns s h id) : Owns t h id := by
  cases one with
  | stay => exact own
  | @register id' hid huid =>
      obtain rfl := Option.some.inj (own.1.symm.trans hid)
      exact absurd own.2 huid
  | reset => exact (sameRegistry_resetReader s _).owns.mpr own
  | move => exact (sameRegistry_setReadPointer s _ _).owns.mpr own

/-- The passes of another handle make nobody an owner. -/
theorem OnePass.owns_back {h' : Nat} (one : OnePass U h' s t) (ne : h ≠ h') (R : Registry U s) (own : Owns t h id) :
    Owns s h id := by
  cases one with
  | stay => exact own
  | register => exact (initSubscriber_owner_ne R.roster ne own).1
  | reset => exact (sameRegistry_resetReader s _).owns.mp own
  | move => exact (sameRegistry_setReadPointer s _ _).owns.mp own

/-- Only its own registration makes a handle an owner. -/
theorem owner_before {G : Segment} {e : Event} (R : Registry U s) (step : Step U G s e t) (own : Owns t h id)
    (settled : e.registers h = false) : Owns s h id := by
  have aside : ∀ {h' : Nat} {u v : State}, h ≠ h' → OnePass U h' u v →
      Registry U u ∧ (Owns u h id → Owns s h id) → Registry U v ∧ (Owns v h id → Owns s h id) := by
    rintro h' u v ne one ⟨R, back⟩
    exact ⟨one.registry R, fun own => back (one.owns_back ne R own)⟩
  cases step with
  | initPublisher h' => exact absurd own (initPublisher_no_owner R h' h id)
  | initSubscriber h' =>
      have other : h' ≠ h := by simpa [Event.registers] using settled
      exact (initSubscriber_owner_ne R.roster other.symm own).1
  | sent accepted =>
      obtain ⟨-, rfl, -⟩ := msgSend_sent accepted
      exact (sameRegistry_sendQueue G.size s _).owns.mp own
  | refused => exact own
  | aborted => exact own
  | @recv h' alloc fuel passes t run =>
      by_cases same : h = h'
      · subst same
        have settled' : Pass.evicted ∉ passes := by simpa [Event.registers] using settled
        by_cases owner : ∃ id, Owns s h id
        · obtain ⟨id', own'⟩ := owner
          have kept : Owns t h id' := recv_keeps (I := fun u => Owns u h id') OnePass.owns_self own' run
          rw [own.slot_unique kept]
          exact own'
        · rw [recv_ownerless run (fun id own => owner ⟨id, own⟩) settled'] at own
          exact own
      · exact (recv_keeps (aside same) ⟨R, fun own => own⟩ run).2 own
  | @ready h' fuel passes t run =>
      by_cases same : h = h'
      · subst same
        have settled' : ReadyPass.evicted ∉ passes := by simpa [Event.registers] using settled
        by_cases owner : ∃ id, Owns s h id
        · obtain ⟨id', own'⟩ := owner
          have kept : Owns t h id' := ready_keeps (I := fun u => Owns u h id') OnePass.owns_self own' run
          rw [own.slot_unique kept]
          exact own'
        · rw [ready_ownerless run (fun id own => owner ⟨id, own⟩) settled'] at own
          exact own
      · exact (ready_keeps (aside same) ⟨R, fun own => own⟩ run).2 own

end readers

/-! Runs. -/

/-- What a subscriber was sent since it registered it has received or has unread,
and that is one message at most. -/
def Delivered (h : Nat) (past : List Event) : Prop :=
  sentOf (sinceRegistered h past) = receivedBy h (sinceRegistered h past) ++ Broadcast.unread (spec past) h ∧
    (Broadcast.unread (spec past) h).length ≤ 1

/-- What the calls of a waiting publisher and its readers keep. -/
structure Rendezvous (U : UidSource) (G : Segment) (conflate : Nat → Bool) (past : List Event) (w : PubWorld) :
    Prop where
  run : Run (Where U G fun s e => ∀ h, NeverMet G h s e) (State.fresh conflate) past w.state
  valids : AllValid w.state
  read : w.waited = true → AllRead w.state
  delivered : ∀ h id, Owns w.state h id → Delivered h past

section runs
variable {U : UidSource} {G : Segment} {conflate : Nat → Bool} {past : List Event} {w : PubWorld} {e : Event} {t : State}
  {h id : Nat}

theorem sinceRegistered_append (h : Nat) (past : List Event) (e : Event) :
    sinceRegistered h (past ++ [e]) = e.sinceRegistered h (sinceRegistered h past) := by
  simp [sinceRegistered]

theorem Rendezvous.calls (K : Rendezvous U G conflate past w) : Run (Step U G) (State.fresh conflate) past w.state :=
  run_of_where K.run

theorem Rendezvous.followed (K : Rendezvous U G conflate past w) (h : Nat) :
    Followed (sentLaps past) (· = h) U G.size w.state (sinceWrap past) (w.state.q.writeOffset + 1) (spec past) :=
  followed_of_neverMet (K.run.mono fun _ _ _ step => ⟨step.1, step.2 h⟩)

theorem NeverMet.of_silent {s : State} (silent : e.sent? = none) (h : Nat) : NeverMet G h s e := by
  cases e with
  | sent => cases silent
  | _ => trivial

/-- A registration starts with nothing unread. -/
theorem Spec.registered (registers : e.registers h = true) (b : Spec) :
    Broadcast.unread (Spec.event b e) h = [] := by
  cases e with
  | initSubscriber h' =>
      obtain rfl : h' = h := by simpa [Event.registers] using registers
      rw [Spec.event, Broadcast.unread_seek]
      exact Function.update_self ..
  | recv h' passes =>
      obtain ⟨rfl, mem⟩ : h' = h ∧ Pass.evicted ∈ passes := by simpa [Event.registers] using registers
      exact Spec.passes_registered mem b
  | ready h' passes =>
      obtain ⟨rfl, mem⟩ : h' = h ∧ ReadyPass.evicted ∈ passes := by simpa [Event.registers] using registers
      exact Spec.readyPasses_registered mem b
  | initPublisher | sent | refused | aborted => cases registers

/-- What a call other than a send does to the account of an owner. -/
theorem Rendezvous.silent (K : Rendezvous U G conflate past w) (step : Step U G w.state e t) (silent : e.sent? = none)
    (own : Owns t h id) : Delivered h (past ++ [e]) := by
  have F := K.followed h
  unfold Delivered
  rw [sinceRegistered_append, spec_append, Event.sinceRegistered]
  cases registers : e.registers h with
  | true =>
      rw [Spec.registered registers]
      exact ⟨rfl, Nat.zero_le 1⟩
  | false =>
      have owned := owner_before F.tracked.registry step own registers
      obtain ⟨account, single⟩ := K.delivered h id owned
      -- whatever the call was, it took what it returned off the front
      have taken : Broadcast.unread (spec past) h = e.receivedBy h ++ Broadcast.unread (Spec.event (spec past) e) h := by
        cases step with
        | initPublisher | refused | aborted => rfl
        | sent => cases silent
        | initSubscriber h' =>
            have other : h ≠ h' := by simpa [Event.registers, eq_comm] using registers
            exact (Broadcast.seek_same (spec past) other).unread.symm
        | @recv h' alloc fuel passes t run =>
            by_cases same : h' = h
            · subst same
              rw [Event.receivedBy, if_pos rfl]
              exact (F.recv_lossless G.small owned (K.valids h' id owned) single (sentLaps_started past) run).2
            · rw [Event.receivedBy, if_neg same]
              exact (Spec.passes_same (Ne.symm same) (spec past) passes).unread.symm
        | @ready h' fuel passes t run =>
            by_cases same : h' = h
            · subst same
              rw [msgReady_owner owned (K.valids h' id owned) run]
              rfl
            · exact (Spec.readyPasses_same (Ne.symm same) (spec past) passes).unread.symm
      rw [if_neg Bool.false_ne_true, sentOf_append, receivedBy_append, account, sentOf_singleton, silent,
        receivedBy_singleton]
      refine ⟨?_, ?_⟩
      · rw [taken]
        simp
      · rw [taken, List.length_append] at single
        omega

theorem Rendezvous.sends {h' : Nat} {m : Msg} {q : Queue} {ret : Int} {signalled : List Nat}
    (K : Rendezvous U G conflate past w) (waited : w.waited = true)
    (accepted : msgSend G.size w.state.q (w.state.handle h') m.data = .sent q ret signalled) :
    Rendezvous U G conflate (past ++ [.sent h' m (mustWrap G.size w.state.q m.data.length)])
      ⟨w.state.setQueue q, false⟩ := by
  have A := K.read waited
  obtain ⟨-, rfl, fits⟩ := msgSend_sent accepted
  have apart : ∀ h, ¬ Meets G.size h w.state m.data.length :=
    A.not_meets G.small (followed_none K.calls).tracked.ok fits
  refine ⟨K.run.snoc ⟨.sent accepted, apart⟩, ?_, ?_, ?_⟩
  · intro h id own
    have owned := (sameRegistry_sendQueue G.size w.state m.data).owns.mp own
    have wide : Followed (exactLaps fun _ => True) (· = h) U G.size w.state (sinceWrap past)
        (w.state.q.writeOffset + 1) (spec past) := (K.followed h).relax fun _ _ => trivial
    exact (wide.sendCaughtUp G.small fits trivial owned (K.valids h id owned)
      (congrArg (fun v => (unpack64 v).2) (A h id owned)) (congrArg (fun v => (unpack64 v).1) (A h id owned))).1
  · rintro ⟨⟩
  · intro h id own
    have owned := (sameRegistry_sendQueue G.size w.state m.data).owns.mp own
    obtain ⟨account, -⟩ := K.delivered h id owned
    have F := K.followed h
    have none := F.nothing_unread owned (K.valids h id owned) (congrArg (fun v => (unpack64 v).2) (A h id owned))
    unfold Delivered
    rw [sinceRegistered_append, spec_append]
    change sentOf (sinceRegistered h past ++ _) = receivedBy h (sinceRegistered h past ++ _) ++
      Broadcast.unread (Broadcast.push (spec past) m.data) h ∧ (Broadcast.unread (Broadcast.push _ _) h).length ≤ 1
    rw [Broadcast.unread_push (F.valid h rfl), none, sentOf_append, receivedBy_append, account, none]
    refine ⟨?_, le_rfl⟩
    simp [Event.sent?, Event.receivedBy]

theorem Rendezvous.step {e : PubEvent} {w' : PubWorld} {past : List PubEvent}
    (K : Rendezvous U G conflate (callsOf past) w) (step : SyncedStep U G w e w') :
    Rendezvous U G conflate (callsOf (past ++ [e])) w' := by
  have calls : callsOf (past ++ [e]) = callsOf past ++ e.call?.toList := by
    cases call : e.call? <;> simp [callsOf, call]
  rw [calls]
  cases step with
  | checked =>
      rw [PubEvent.call?, Option.toList_none, List.append_nil]
      refine ⟨K.run, K.valids, ?_, K.delivered⟩
      intro updated h id own
      exact readPointer_of_updated updated ((K.followed h).tracked.registry.below h id own) (K.valids h id own)
  | @call a t one waits =>
      change Rendezvous U G conflate (callsOf past ++ [a]) _
      cases silent : a.sent? with
      | none =>
          obtain ⟨valids, read⟩ := quiet_synced (K.followed 0).tracked.registry K.valids one silent
          rw [Option.isNone_none, Bool.and_true]
          exact ⟨K.run.snoc ⟨one, NeverMet.of_silent silent⟩, valids, fun waited => read (K.read waited),
            fun h id own => K.silent one silent own⟩
      | some m =>
          have waited := waits (by simp [silent])
          rw [Option.isNone_some, Bool.and_false]
          cases one with
          | sent accepted => exact K.sends waited accepted
          | initPublisher | initSubscriber | refused | aborted | recv | ready => cases silent

theorem rendezvous {past : List PubEvent} (run : Run (SyncedStep U G) ⟨State.fresh conflate, false⟩ past w) :
    Rendezvous U G conflate (callsOf past) w := by
  induction run with
  | nil =>
      have nobody : ∀ h id, ¬ Owns (State.fresh conflate) h id := by
        rintro h id ⟨none, -⟩
        cases none
      refine ⟨.nil, ?_, ?_, ?_⟩
      · exact fun h id own => absurd own (nobody h id)
      · rintro ⟨⟩
      · exact fun h id own => absurd own (nobody h id)
  | snoc _ one ih => exact ih.step one

/-- A publisher that waits before each send loses nothing: in every state the flag
of each registered subscriber is set, and it has received all that was sent since
it registered but for one message at most, none once the wait is over, which is
what its next receive returns. -/
theorem waiting_publisher_lossless {past : List PubEvent}
    (run : Run (SyncedStep U G) ⟨State.fresh conflate, false⟩ past w) (own : Owns w.state h id) :
    w.state.q.readValids id = true ∧ ∃ rest : List Bytes, rest.length ≤ 1 ∧ (w.waited = true → rest = []) ∧
      sentOf (sinceRegistered h (callsOf past)) = receivedBy h (sinceRegistered h (callsOf past)) ++ rest ∧
      ∃ fuel passes t, msgRecv U G.size true h fuel w.state = some (passes, t) ∧ returned passes = rest.head? := by
  have K := rendezvous run
  have F := K.followed h
  have valid := K.valids h id own
  obtain ⟨account, single⟩ := K.delivered h id own
  refine ⟨valid, Broadcast.unread (spec (callsOf past)) h, single, ?_, account, ?_⟩
  · intro waited
    exact F.nothing_unread own valid (congrArg (fun v => (unpack64 v).2) (K.read waited h id own))
  · cases ahead : Broadcast.unread (spec (callsOf past)) h with
    | nil =>
        have at_end := (F.tracked.caught_up rfl own valid (sentLaps_started _) ahead).1
        exact ⟨1, [.empty], w.state, loop_done 0 (recvPass_empty own valid at_end) rfl, rfl⟩
    | cons m rest =>
        have last : rest = [] := by simpa [ahead] using single
        rw [last] at ahead
        have sent : sentOf (callsOf past) ≠ [] := by
          rw [← spec_sent]
          exact List.ne_nil_of_mem (Broadcast.mem_sent_of_unread (a := m) (i := h) (by simp [ahead]))
        obtain ⟨fuel, passes, t, returns, got, -⟩ := F.receives own valid ahead (sinceWrap_ne_nil sent)
        exact ⟨fuel, passes, t, returns, got⟩

end runs

/-! Executing a waiting publisher. -/

inductive PubAction
  | check
  | call (c : Call)

def pubAct (U : UidSource) (G : Segment) (fuel : Nat) (w : PubWorld) : PubAction → Option (PubEvent × PubWorld)
  | .check => some (.checked (allReadersUpdated w.state.q), ⟨w.state, allReadersUpdated w.state.q⟩)
  | .call c => (exec U G fuel w.state c).bind fun r =>
      if r.1.sent?.isSome && !w.waited then none else some (.call r.1, ⟨r.2, w.waited && r.1.sent?.isNone⟩)

theorem pubAct_step {U : UidSource} {G : Segment} {fuel : Nat} {w w' : PubWorld} {e : PubEvent} {a : PubAction}
    (act : pubAct U G fuel w a = some (e, w')) : SyncedStep U G w e w' := by
  cases a with
  | check =>
      cases act
      exact .checked w
  | call c =>
      obtain ⟨⟨e', t⟩, one, same⟩ := Option.bind_eq_some_iff.mp act
      dsimp only at same
      split_ifs at same with blocked
      cases same
      refine .call (exec_step one) ?_
      intro sent
      by_contra early
      exact blocked (by simp [early, Option.isSome_iff_ne_none.mpr sent])

/-- A round of a conflating subscriber and its publisher. -/
def rounds (n : Nat) : List PubAction :=
  (List.range n).flatMap fun i => [.check, .call (.send 0 (byteMsg (.ofNat i))), .call (.ready 1), .call (.recv 1 true)]

/-- Five rounds go twice round the small ring. -/
theorem waiting_publisher_lossless_wrapped : ∃ (past : List PubEvent) (w : PubWorld),
    receivedBy 1 (callsOf past) = [[0], [1], [2], [3], [4]] ∧ w.state.q.readValids 0 = true ∧
    ∃ rest : List Bytes, rest.length ≤ 1 ∧ (w.waited = true → rest = []) ∧
      sentOf (sinceRegistered 1 (callsOf past)) = receivedBy 1 (sinceRegistered 1 (callsOf past)) ++ rest ∧
      ∃ fuel passes t, msgRecv countingUids tinySegment.size true 1 fuel w.state = some (passes, t) ∧
        returned passes = rest.head? := by
  have shows : ((perform (pubAct countingUids tinySegment 4) (fun _ _ => True) ⟨State.fresh fun _ => true, false⟩
      ([.call (.initPublisher 0), .call (.initSubscriber 1)] ++ rounds 5 ++ [.check])).any fun r =>
        receivedBy 1 (callsOf r.1) = [[0], [1], [2], [3], [4]] ∧ Owns r.2.state 1 0) = true := by decide +kernel
  obtain ⟨⟨past, w⟩, ends, both⟩ := (Option.any_eq_true _ _).mp shows
  obtain ⟨got, own⟩ := of_decide_eq_true both
  have run := performed ends fun _ _ _ _ => pubAct_step
  exact ⟨past, w, got, waiting_publisher_lossless (run.mono fun _ _ _ step => step.1) own⟩

end Msgq
