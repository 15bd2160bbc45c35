import Msgq.Sending

/-! Readers tracked through registrations, resets and sends. A ghost `g` names
for every handle the messages it has ahead while it owns a valid slot. -/
namespace Msgq
open ByteMemory FramedRecords Traces

/-- The position a packed read pointer stands for. -/
def AtWord (L : Laps) (v : View) (word : Nat) (ahead : List Bytes) : Prop :=
  At L v (unpack64 word).1 (unpack64 word).2 ahead

/-- The registry is sound, the running lap is `lap`, and every handle of `P` that
owns a valid slot stands at a position with `g` of it ahead. -/
structure Tracked (L : Laps) (P : Nat → Prop) (U : UidSource) (size : Nat) (s : State)
    (lap : List Bytes) (front : Nat) (g : Nat → List Bytes) : Prop where
  registry : Registry U s
  ok : (s.q.view size lap front).Ok
  at_slot : ∀ h id, P h → Owns s h id → s.q.readValids id = true →
    AtWord L (s.q.view size lap front) (s.q.readPointers id) (g h)

section calls
variable {L : Laps} {P : Nat → Prop} {U : UidSource} {size bound : Nat} {s : State} {lap : List Bytes} {front : Nat}
  {g : Nat → List Bytes} {h id : Nat}

theorem view_congr {q q' : Queue} (hd : q'.data = q.data) (hw : q'.writePointer = q.writePointer)
    (size : Nat) (lap : List Bytes) (front : Nat) : q'.view size lap front = q.view size lap front := by
  simp only [Queue.view, Queue.writeCycles, Queue.writeOffset, hd, hw]

/-- Only the tracked handles' ghosts matter. -/
theorem Tracked.congr (T : Tracked L P U size s lap front g) {g' : Nat → List Bytes}
    (same : ∀ h, P h → g' h = g h) : Tracked L P U size s lap front g' := by
  refine ⟨T.registry, T.ok, ?_⟩
  intro h id hP own valid
  rw [same h hP]
  exact T.at_slot h id hP own valid

/-- A starting publisher keeps the ring and has no reader to keep. -/
theorem Tracked.initPublisher (T : Tracked L P U size s lap front g) (h front' : Nat)
    (g' : Nat → List Bytes) : Tracked L P U size (initPublisher U s h) lap front' g' where
  registry := initPublisher_registry T.registry h
  ok := T.ok.claim front'
  at_slot h' id _ own := absurd own (initPublisher_no_owner T.registry h h' id)

theorem Tracked.initSubscriber (T : Tracked L P U size s lap front g) (h : Nat) :
    Tracked L P U size (initSubscriber U s h) lap front (Function.update g h []) := by
  obtain ⟨hwp, -, hdata⟩ := initSubscriber_same (U := U) s h
  have hview := view_congr hdata hwp size lap front
  refine ⟨initSubscriber_registry T.registry h, ?_, ?_⟩
  · rw [hview]
    exact T.ok
  · intro h' id hP own valid
    rw [hview]
    by_cases same : h' = h
    · subst same
      obtain rfl := own.slot_unique (initSubscriber_owns s h')
      have hp := (initSubscriber_slot (U := U) s h').2.2
      rw [hp, Function.update_self]
      exact Or.inl (here_at_off T.ok (L.here_self s.q.writeCycles))
    · obtain ⟨before, -, -, hvalid, hp⟩ := initSubscriber_owner_ne T.registry.roster same own
      rw [hp, Function.update_of_ne same]
      exact T.at_slot h' id hP before (hvalid ▸ valid)

/-- Moving the read pointer of an owned slot to a position with `rest` ahead. -/
theorem Tracked.setReadPointer (T : Tracked L P U size s lap front g) (own : Owns s h id) {v : Nat}
    {rest : List Bytes} (at_new : P h → AtWord L (s.q.view size lap front) v rest) :
    Tracked L P U size (s.setQueue (setReadPointer s.q id v)) lap front (Function.update g h rest) := by
  refine ⟨T.registry.congr (sameRegistry_setReadPointer s id v), T.ok, ?_⟩
  intro h' id' hP own' valid
  have before : Owns s h' id' := (sameRegistry_setReadPointer s id v).owns.mp own'
  by_cases same : h' = h
  · subst same
    obtain rfl := before.slot_unique own
    change AtWord L (s.q.view size lap front) (Function.update s.q.readPointers id' v id') _
    rw [Function.update_self, Function.update_self]
    exact at_new hP
  · change AtWord L (s.q.view size lap front) (Function.update s.q.readPointers id v id') _
    rw [Function.update_of_ne (T.registry.roster.slot_ne own before same), Function.update_of_ne same]
    exact T.at_slot h' id' hP before valid

theorem Tracked.resetReader (T : Tracked L P U size s lap front g) (own : Owns s h id) :
    Tracked L P U size (s.setQueue (resetReader s.q id)) lap front (Function.update g h []) := by
  refine ⟨T.registry.congr (sameRegistry_resetReader s id), T.ok, ?_⟩
  intro h' id' hP own' valid
  have before : Owns s h' id' := (sameRegistry_resetReader s id).owns.mp own'
  by_cases same : h' = h
  · subst same
    obtain rfl := before.slot_unique own
    change AtWord L (s.q.view size lap front) (Function.update s.q.readPointers id' s.q.writePointer id') _
    rw [Function.update_self, Function.update_self]
    exact Or.inl (here_at_off T.ok (L.here_self s.q.writeCycles))
  · have hne := T.registry.roster.slot_ne own before same
    have hvalid : Function.update s.q.readValids id true id' = true := valid
    rw [Function.update_of_ne hne] at hvalid
    change AtWord L (s.q.view size lap front) (Function.update s.q.readPointers id s.q.writePointer id') _
    rw [Function.update_of_ne hne, Function.update_of_ne same]
    exact T.at_slot h' id' hP before hvalid

/-! Send, for one reader. -/

/-- The one case in which a send keeps a reader's flag and still loses messages:
the writer wraps at the very offset where the reader stands in an older lap. -/
def WrapsOver (L : Laps) (v : View) (wrap : Bool) (word : Nat) (ahead : List Bytes) : Prop :=
  wrap = true ∧ (unpack64 word).2 = v.off ∧ Back L v (unpack64 word).1 (unpack64 word).2 ahead

/-- A reader whose flag survives a send keeps what it had ahead and gains the
new message, unless the writer wraps over it. The sender may wrap earlier than at
the bound of the ring. -/
theorem Tracked.send_position {m : Bytes} (hsize : size < 0xFFFFFFFF)
    (T : Tracked L P U bound s lap s.q.writeOffset g) (fits : Fits size m)
    (hturn : mustWrap size s.q m.length = true → L.turn s.q.writeCycles ∧ L.closed s.q.writeOffset)
    (hP : P h) (own : Owns s h id)
    (kept : (sendQueue size s.q m).readValids id = true) :
    AtWord L ((s.q.view bound lap s.q.writeOffset).send (mustWrap size s.q m.length) m)
        (s.q.readPointers id) (g h ++ [m]) ∨
      WrapsOver L (s.q.view bound lap s.q.writeOffset) (mustWrap size s.q m.length) (s.q.readPointers id) (g h) := by
  obtain ⟨valid, beyond, area⟩ :=
    (sendQueue_readValids hsize T.ok fits (T.registry.below h id own)).mp kept
  have position := T.at_slot h id hP own valid
  have hspan := fits.span_ge
  cases hw : mustWrap size s.q m.length with
  | false =>
      simp only [recordOffset, recordCycles, hw, Bool.false_eq_true, if_false] at area
      exact Or.inl (position.send_flat rfl area)
  | true =>
      simp only [recordOffset, recordCycles, hw, if_true, Nat.zero_le, true_and, Nat.zero_add] at area
      have hoff := mustWrap_offset hsize fits hw
      have hroom : s.q.writeOffset + 8 < bound := by
        have := T.ok.room
        simp only [Queue.view] at this
        omega
      rcases position with here | back
      · exact Or.inl (here.send_wrap T.ok (hturn hw).1 (hturn hw).2 hroom area)
      · refine Or.inr ⟨rfl, ?_, back⟩
        have hlo : s.q.writeOffset ≤ (unpack64 (s.q.readPointers id)).2 := back.2.1
        have hne := L.back_ne back.1
        by_contra hgt
        exact beyond hw ⟨lt_of_le_of_ne hlo (Ne.symm hgt), hne⟩

/-- A change of the flags, the data or the write pointer, given where it leaves
every reader whose flag survives. -/
theorem Tracked.setRing {q' : Queue} {lap' : List Bytes} {front' : Nat} {g' : Nat → List Bytes}
    (T : Tracked L P U size s lap front g) (same : SameRegistry s (s.setQueue q'))
    (pointers : q'.readPointers = s.q.readPointers) (ok : (q'.view size lap' front').Ok)
    (positions : ∀ h id, P h → Owns s h id → q'.readValids id = true →
      AtWord L (q'.view size lap' front') (s.q.readPointers id) (g' h)) :
    Tracked L P U size (s.setQueue q') lap' front' g' := by
  refine ⟨T.registry.congr same, ok, ?_⟩
  intro h id hP own kept
  change AtWord L (q'.view size lap' front') (q'.readPointers id) (g' h)
  rw [pointers]
  exact positions h id hP (same.owns.mp own) kept

theorem sameRegistry_sendQueue (size : Nat) (s : State) (m : Bytes) :
    SameRegistry s (s.setQueue (sendQueue size s.q m)) := by
  unfold sendQueue
  cases mustWrap size s.q m.length <;> exact ⟨rfl, rfl, rfl, rfl, rfl⟩

/-- Every call keeps the registry, whatever is sent. -/
theorem Registry.step {G : Segment} {e : Event} {t : State} (R : Registry U s) (step : Step U G s e t) :
    Registry U t := by
  cases step with
  | initPublisher h => exact initPublisher_registry R h
  | initSubscriber h => exact initSubscriber_registry R h
  | @sent h m q ret signalled accepted =>
      obtain ⟨-, rfl, -⟩ := msgSend_sent accepted
      exact R.congr (sameRegistry_sendQueue G.size s m.data)
  | refused | aborted => exact R
  | recv run => exact recv_keeps OnePass.registry R run
  | ready run => exact ready_keeps OnePass.registry R run

theorem Registry.anyStep {G : Segment} {e : AnyEvent} {t : State} (R : Registry U s) (step : AnyStep U G s e t) :
    Registry U t := by
  cases step with
  | call one => exact R.step one
  | @sentEmpty h q ret signalled accepted =>
      obtain ⟨-, -, rfl, -⟩ := msgSend_accepted accepted
      exact R.congr (sameRegistry_sendQueue G.size s [])

/-- A whole send, given where it leaves every reader whose flag survives. -/
theorem Tracked.send {m : Bytes} (hsize : size < 0xFFFFFFFF) (inside : size ≤ bound)
    (T : Tracked L P U bound s lap s.q.writeOffset g) (fits : Fits size m) {g' : Nat → List Bytes}
    (positions : ∀ h id, P h → Owns s h id → (sendQueue size s.q m).readValids id = true →
      AtWord L ((s.q.view bound lap s.q.writeOffset).send (mustWrap size s.q m.length) m)
        (s.q.readPointers id) (g' h)) :
    Tracked L P U bound (s.setQueue (sendQueue size s.q m)) (sentLap (mustWrap size s.q m.length) lap m)
      (sendQueue size s.q m).writeOffset g' := by
  have hview := sendQueue_view hsize T.ok fits
  apply T.setRing (sameRegistry_sendQueue size s m) (sendQueue_readPointers size s.q m)
  · rw [hview]
    apply T.ok.send
    · have := fits.real hsize
      unfold Real at this
      omega
    · rw [base_off]
      exact (record_room hsize fits).trans_le inside
  · intro h id hP own kept
    rw [hview]
    exact positions h id hP own kept

end calls

end Msgq
