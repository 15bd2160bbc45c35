import Msgq.CaughtUp
import Msgq.Emptiness

/-! When the publisher and the subscribers agree that everything is read. The
publisher compares packed words and a subscriber compares offsets. -/
namespace Msgq
open ByteMemory FramedRecords Traces

/-- A send of `n` bytes ends exactly at a flagged slot of an older lap. -/
def MeetsSlot (size : Nat) (s : State) (n : Nat) : Prop :=
  ∃ id < s.q.numReaders, s.q.readValids id = true ∧
    s.q.readOffset id = align (recordOffset size s.q n + 8 + n) ∧ s.q.readCycles id ≠ recordCycles size s.q n

/-- The handle was evicted or never registered. -/
def Slotless (s : State) (h : Nat) : Prop :=
  ∀ id ∈ (s.handle h).readerId, (s.handle h).readUidLocal ≠ s.q.readUids id

/-- No send ends at a reader of an older lap, and no handle registers anew while
it owns a slot, which would leave that slot without an owner. -/
def InStep (G : Segment) (s : State) : Event → Prop
  | .sent _ m _ => ¬ MeetsSlot G.size s m.data.length
  | .initSubscriber h _ => Slotless s h
  | _ => True

instance (size : Nat) (s : State) (n : Nat) : Decidable (MeetsSlot size s n) :=
  inferInstanceAs (Decidable (∃ id < s.q.numReaders, _))

instance (s : State) (h : Nat) : Decidable (Slotless s h) :=
  inferInstanceAs (Decidable (∀ id ∈ (s.handle h).readerId, _))

instance (G : Segment) (s : State) : ∀ e, Decidable (InStep G s e)
  | .sent _ m _ => inferInstanceAs (Decidable (¬ MeetsSlot G.size s m.data.length))
  | .initSubscriber h _ => inferInstanceAs (Decidable (Slotless s h))
  | .initPublisher _ | .refused _ _ | .aborted _ _ | .recv _ _ | .ready _ _ => isTrue trivial

/-- Every flagged slot that send inspects has an owner. -/
def Peopled (s : State) : Prop :=
  ∀ id < s.q.numReaders, s.q.readValids id = true → ∃ h, Owns s h id

/-- The pointer words are packed: two halves of 32 bits. -/
structure Packed (q : Queue) : Prop where
  writer : q.writePointer < 2 ^ 64
  readers : ∀ i, q.readPointers i < 2 ^ 64

theorem Slotless.no_owner {s : State} {h id : Nat} (none : Slotless s h) : ¬ Owns s h id :=
  fun own => none id own.1 own.2

/-! Words. -/

section words
variable {q : Queue} {id v : Nat}

theorem pack64_lt {c o : Nat} (hc : c < 2 ^ 32) : pack64 c o < 2 ^ 64 := by
  unfold pack64
  omega

/-- Packed words with the same halves are the same. -/
theorem unpack64_injective {v w : Nat} (hv : v < 2 ^ 64) (hw : w < 2 ^ 64) (same : unpack64 v = unpack64 w) :
    v = w := by
  simp only [unpack64, Prod.mk.injEq] at same
  omega

theorem Packed.setReadPointer (k : Packed q) (id : Nat) (hv : v < 2 ^ 64) : Packed (setReadPointer q id v) := by
  constructor
  · exact k.writer
  · intro i
    change Function.update q.readPointers id v i < 2 ^ 64
    by_cases same : i = id
    · rw [same, Function.update_self]
      exact hv
    · rw [Function.update_of_ne same]
      exact k.readers i

theorem Packed.resetReader (k : Packed q) (id : Nat) : Packed (resetReader q id) :=
  Packed.setReadPointer (q := { q with readValids := Function.update q.readValids id true })
    ⟨k.writer, k.readers⟩ id k.writer

theorem Packed.initSubscriber {U : UidSource} {s : State} (k : Packed s.q) (h : Nat) :
    Packed (initSubscriber U s h).q := by
  have cleared : Packed (if full s.q then clearReaders s.q else s.q) := by
    split
    · exact ⟨k.writer, k.readers⟩
    · exact k
  have started := (cleared.setReadPointer (if full s.q then clearReaders s.q else s.q).numReaders
    (v := 0) (by omega)).readers
  unfold Msgq.initSubscriber
  apply Packed.resetReader
  exact ⟨cleared.writer, started⟩

theorem Packed.sendQueue (k : Packed q) (size : Nat) (m : Bytes) : Packed (sendQueue size q m) := by
  constructor
  · apply pack64_lt
    unfold recordCycles
    split
    · exact nextCycle_lt _
    · exact writeCycles_lt q
  · rw [sendQueue_readPointers]
    exact k.readers

end words

/-! One step. -/

section steps
variable {U : UidSource} {G : Segment} {size : Nat} {s t : State} {h : Nat} {alloc : Bool}

theorem Peopled.congr (p : Peopled s) (k : SameRegistry s t)
    (valids : ∀ id, t.q.readValids id = true → s.q.readValids id = true ∨ ∃ h, Owns s h id) : Peopled t := by
  intro id below valid
  rw [k.numReaders] at below
  rcases valids id valid with before | ⟨h, own⟩
  · obtain ⟨h, own⟩ := p id below before
    exact ⟨h, k.owns.mpr own⟩
  · exact ⟨h, k.owns.mpr own⟩

theorem Peopled.resetReader {id : Nat} (p : Peopled s) (own : Owns s h id) :
    Peopled (s.setQueue (resetReader s.q id)) := by
  apply p.congr (sameRegistry_resetReader s id)
  intro id' valid
  by_cases same : id' = id
  · exact Or.inr ⟨h, same ▸ own⟩
  · have kept : Function.update s.q.readValids id true id' = true := valid
    rw [Function.update_of_ne same] at kept
    exact Or.inl kept

/-- A handle without a slot takes one; nobody else loses the owner of a slot. -/
theorem Peopled.initSubscriber (p : Peopled s) (none : Slotless s h) :
    Peopled (Msgq.initSubscriber U s h) := by
  intro id below valid
  rw [initSubscriber_numReaders] at below
  by_cases new : id = newSlot s.q
  · exact ⟨h, new ▸ initSubscriber_owns s h⟩
  cases hfull : full s.q with
  | true =>
      simp only [newSlot, hfull, if_true] at below new
      omega
  | false =>
      have slot := initSubscriber_room (U := U) s h hfull new
      simp only [newSlot, hfull, Bool.false_eq_true, if_false] at below new
      obtain ⟨h', own⟩ := p id (by omega) (slot.2.1.symm.trans valid)
      have other : h' ≠ h := by
        rintro rfl
        exact none.no_owner own
      refine ⟨h', ?_, ?_⟩
      · rw [initSubscriber_handle_ne s other]
        exact own.1
      · rw [initSubscriber_handle_ne s other, slot.1]
        exact own.2

theorem Peopled.setReadPointer (p : Peopled s) (id v : Nat) :
    Peopled (s.setQueue (Msgq.setReadPointer s.q id v)) :=
  p.congr (sameRegistry_setReadPointer s id v) fun _ => Or.inl

theorem OnePass.peopled (one : OnePass U h s t) (both : Peopled s ∧ Packed s.q) : Peopled t ∧ Packed t.q := by
  obtain ⟨p, k⟩ := both
  cases one with
  | stay => exact ⟨p, k⟩
  | register registered huid =>
      refine ⟨p.initSubscriber ?_, k.initSubscriber h⟩
      intro id' mem
      rwa [← Option.some.inj (registered.symm.trans mem)]
  | reset own => exact ⟨p.resetReader own, k.resetReader _⟩
  | move c o own valid hc => exact ⟨p.setReadPointer _ _, k.setReadPointer _ (pack64_lt hc)⟩

/-- A send only clears flags. -/
theorem Peopled.send (p : Peopled s) (m : Bytes) : Peopled (s.setQueue (sendQueue size s.q m)) := by
  apply p.congr (sameRegistry_sendQueue size s m)
  intro id valid
  apply Or.inl
  by_contra unset
  rw [Bool.not_eq_true] at unset
  simp only [State.setQueue, sendQueue, recordQueue, wrapQueue, clearFlags] at valid
  split_ifs at valid <;> simp_all

theorem step_peopled {e : Event} (p : Peopled s) (k : Packed s.q) (step : Where U G (InStep G) s e t) :
    Peopled t ∧ Packed t.q := by
  obtain ⟨step, meets⟩ := step
  cases step with
  | initPublisher h =>
      exact ⟨fun id below => absurd below (Nat.not_lt_zero id), k.writer, k.readers⟩
  | initSubscriber h => exact ⟨p.initSubscriber meets, k.initSubscriber h⟩
  | sent accepted =>
      obtain ⟨-, rfl, -⟩ := msgSend_sent accepted
      exact ⟨p.send _, k.sendQueue _ _⟩
  | refused => exact ⟨p, k⟩
  | aborted => exact ⟨p, k⟩
  | recv run =>
      exact recv_keeps (I := fun u => Peopled u ∧ Packed u.q) OnePass.peopled ⟨p, k⟩ run
  | ready run =>
      exact ready_keeps (I := fun u => Peopled u ∧ Packed u.q) OnePass.peopled ⟨p, k⟩ run

end steps

/-! Runs. -/

section runs
variable {U : UidSource} {G : Segment} {conflate : Nat → Bool} {past : List Event} {s : State}

theorem peopled (run : Run (Where U G (InStep G)) (State.fresh conflate) past s) : Peopled s ∧ Packed s.q := by
  refine run.invariant (I := fun _ s => Peopled s ∧ Packed s.q) ?_ ?_
  · exact ⟨fun id below => absurd below (Nat.not_lt_zero id), Nat.two_pow_pos 64, fun _ => Nat.two_pow_pos 64⟩
  · intro past s e t _ both step
    exact step_peopled both.1 both.2 step

/-- No subscriber is met in such a run. -/
theorem neverMet_of_inStep (run : Run (Where U G (InStep G)) (State.fresh conflate) past s) (h : Nat) :
    Run (Where U G (NeverMet G h)) (State.fresh conflate) past s := by
  induction run with
  | nil => exact .nil
  | snoc before step ih =>
      refine ih.snoc ⟨step.1, ?_⟩
      have R := (followed_none (run_of_where before)).tracked.registry
      obtain ⟨one, meets⟩ := step
      cases one with
      | sent accepted =>
          rintro ⟨id, own, rest⟩
          exact meets ⟨id, R.below h id own, rest⟩
      | initPublisher | initSubscriber | refused | aborted | recv | ready => trivial

/-- A flagged slot holds the write pointer exactly when its owner finds nothing to read. -/
theorem drained_slot {h id : Nat} (run : Run (Where U G (InStep G)) (State.fresh conflate) past s)
    (own : Owns s h id) (valid : s.q.readValids id = true) :
    s.q.readPointers id = s.q.writePointer ↔
      ∃ fuel t, msgReady U h fuel s = some ([.answer false], t) := by
  have one : readyPass U h s = (.answer (s.q.readOffset id != s.q.writeOffset), s) := by
    simp [readyPass, own.1, own.2, valid]
  have F := followed_of_neverMet (neverMet_of_inStep run h)
  constructor
  · intro same
    have off : s.q.readOffset id = s.q.writeOffset := congrArg (fun word => (unpack64 word).2) same
    rw [off, bne_self_eq_false] at one
    exact ⟨1, s, loop_done 0 one rfl⟩
  · rintro ⟨fuel, t, answer⟩
    have off : s.q.readOffset id = s.q.writeOffset := by
      simpa using msgReady_owner own valid answer
    have cycles : s.q.readCycles id = s.q.writeCycles := by
      rcases F.tracked.at_slot h id rfl own valid with here | back
      · exact here.1
      · have beyond : s.q.writeOffset + 1 ≤ s.q.readOffset id := back.2.1
        omega
    have k := (peopled run).2
    exact unpack64_injective (k.readers id) k.writer (Prod.ext cycles off)

/-- The publisher sees all readers updated exactly when there is one and every
owner of a flagged slot is told that there is nothing to read. -/
theorem updated_iff_drained (run : Run (Where U G (InStep G)) (State.fresh conflate) past s) :
    allReadersUpdated s.q = true ↔ 0 < s.q.numReaders ∧ ∀ id < s.q.numReaders, s.q.readValids id = true →
      ∃ h, Owns s h id ∧ ∃ fuel t, msgReady U h fuel s = some ([.answer false], t) := by
  constructor
  · intro updated
    constructor
    · rw [allReadersUpdated, Bool.and_eq_true] at updated
      exact of_decide_eq_true updated.2
    · intro id below valid
      obtain ⟨h, own⟩ := (peopled run).1 id below valid
      exact ⟨h, own, (drained_slot run own valid).mp (readPointer_of_updated updated below valid)⟩
  · rintro ⟨some_reader, drained⟩
    rw [allReadersUpdated, Bool.and_eq_true, List.all_eq_true]
    refine ⟨?_, decide_eq_true some_reader⟩
    intro id mem
    cases valid : s.q.readValids id with
    | false => rfl
    | true =>
        obtain ⟨h, own, answer⟩ := drained id (List.mem_range.mp mem) valid
        rw [(drained_slot run own valid).mpr answer]
        simp

end runs

theorem updated_iff_drained_rounds : ∃ past s,
    Run (Where countingUids tinySegment (InStep tinySegment)) blankState past s ∧ wrapCount past = 2 ∧
    s.q.numReaders = 2 ∧
    (allReadersUpdated s.q = true ↔ 0 < s.q.numReaders ∧ ∀ id < s.q.numReaders, s.q.readValids id = true →
      ∃ h, Owns s h id ∧ ∃ fuel t, msgReady countingUids h fuel s = some ([.answer false], t)) ∧
    allReadersUpdated s.q = true := by
  -- the second subscriber is passed over and catches up
  obtain ⟨past, s, -, run, wraps, two, updated⟩ := script_shows (InStep tinySegment) blankState
    ([.initPublisher 0, .initSubscriber 1, .initSubscriber 2] ++ inTurns 5 ++
      [.recv 2 true, .send 0 (byteMsg 1), .recv 2 true, .recv 1 true])
    (p := fun past s => wrapCount past = 2 ∧ s.q.numReaders = 2 ∧ allReadersUpdated s.q = true) (by decide +kernel)
  exact ⟨past, s, run, wraps, two, updated_iff_drained run, updated⟩

/-- A subscriber that a send met is told that there is nothing to read, and the
publisher waits for it. -/
theorem drained_reader_not_updated : ∃ past s,
    script (fun _ _ => True) blankState meetingCalls = some (past, s) ∧
    Run (Step countingUids tinySegment) blankState past s ∧
    (s.q.numReaders = 1 ∧ s.q.readValids 0 = true ∧ Owns s 1 0 ∧
      (msgReady countingUids 1 1 s).map Prod.fst = some [.answer false] ∧ allReadersUpdated s.q = false) := by
  obtain ⟨past, s, ends, run, shows⟩ := script_shows (fun _ _ => True) blankState meetingCalls
    (p := fun _ s => s.q.numReaders = 1 ∧ s.q.readValids 0 = true ∧ Owns s 1 0 ∧
      (msgReady countingUids 1 1 s).map Prod.fst = some [.answer false] ∧ allReadersUpdated s.q = false)
    (by decide +kernel)
  exact ⟨past, s, ends, run_of_where run, shows⟩

/-- So it does for the slot of a handle that registered twice: nobody owns it. -/
theorem abandoned_slot_not_updated : ∃ past s,
    Run (Step countingUids tinySegment) blankState past s ∧
    (s.q.readValids 0 = true ∧ (s.handle 0).readerId = none ∧ (s.handle 1).readerId = some 1 ∧
      (msgReady countingUids 1 1 s).map Prod.fst = some [.answer false] ∧ allReadersUpdated s.q = false) := by
  obtain ⟨past, s, -, run, shows⟩ := script_shows (fun _ _ => True) blankState
    [.initPublisher 0, .initSubscriber 1, .initSubscriber 1, .send 0 (byteMsg 1), .recv 1 true]
    (p := fun _ s => s.q.readValids 0 = true ∧ (s.handle 0).readerId = none ∧ (s.handle 1).readerId = some 1 ∧
      (msgReady countingUids 1 1 s).map Prod.fst = some [.answer false] ∧ allReadersUpdated s.q = false)
    (by decide +kernel)
  exact ⟨past, s, run_of_where run, shows⟩

end Msgq
