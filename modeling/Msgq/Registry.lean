import Msgq.Run

/-! Slots and their owners. A handle owns a slot while the slot holds the uid the
handle drew when it registered; with distinct nonzero uids every slot has at
most one owner, and every owned slot is one that send inspects. -/
namespace Msgq

/-- The handle is registered and was not evicted: recv and ready go on using the slot. -/
def Owns (s : State) (h id : Nat) : Prop :=
  (s.handle h).readerId = some id ∧ (s.handle h).readUidLocal = s.q.readUids id

instance (s : State) (h id : Nat) : Decidable (Owns s h id) := inferInstanceAs (Decidable (_ ∧ _))

structure Registry (U : UidSource) (s : State) : Prop where
  count : s.q.numReaders ≤ NUM_READERS
  ids : ∀ h id, (s.handle h).readerId = some id → id < NUM_READERS
  slots : ∀ i, s.q.readUids i = 0 ∨ ∃ j < s.drawn, s.q.readUids i = U.draw j
  locals : ∀ h id, (s.handle h).readerId = some id → ∃ j < s.drawn, (s.handle h).readUidLocal = U.draw j
  unique : ∀ h h' id id', (s.handle h).readerId = some id → (s.handle h').readerId = some id' →
    (s.handle h).readUidLocal = (s.handle h').readUidLocal → h = h'
  below : ∀ h id, Owns s h id → id < s.q.numReaders
  writers : ∀ h u, (s.handle h).writeUidLocal = some u → ∃ j < s.drawn, u = U.draw j
  writer : ∀ h h' u, (s.handle h).writeUidLocal = some u → (s.handle h').writeUidLocal = some u → h = h'

/-- The part of it that is about the registered handles alone. -/
structure Roster (U : UidSource) (s : State) : Prop where
  ids : ∀ h id, (s.handle h).readerId = some id → id < NUM_READERS
  locals : ∀ h id, (s.handle h).readerId = some id → ∃ j < s.drawn, (s.handle h).readUidLocal = U.draw j
  unique : ∀ h h' id id', (s.handle h).readerId = some id → (s.handle h').readerId = some id' →
    (s.handle h).readUidLocal = (s.handle h').readUidLocal → h = h'

section registry
variable {U : UidSource} {s t : State} {h h' id id' : Nat}

theorem Registry.roster (R : Registry U s) : Roster U s := ⟨R.ids, R.locals, R.unique⟩

theorem registry_fresh (U : UidSource) (conflate : Nat → Bool) : Registry U (State.fresh conflate) where
  count := Nat.zero_le _
  ids := by simp [State.fresh]
  slots _ := Or.inl rfl
  locals := by simp [State.fresh]
  unique := by simp [State.fresh]
  below := by simp [State.fresh, Owns]
  writers := by simp [State.fresh]
  writer := by simp [State.fresh]

/-- A slot has one owner. -/
theorem Roster.owner_unique (R : Roster U s) (a : Owns s h id) (b : Owns s h' id) : h = h' :=
  R.unique h h' id id a.1 b.1 (a.2.trans b.2.symm)

theorem Owns.slot_unique (a : Owns s h id) (b : Owns s h id') : id = id' :=
  Option.some.inj (a.1.symm.trans b.1)

theorem Roster.slot_ne (R : Roster U s) (a : Owns s h id) (b : Owns s h' id') (ne : h' ≠ h) :
    id' ≠ id := by
  rintro rfl
  exact ne (R.owner_unique b a)

/-- What only moves read pointers, flags, the write pointer or data leaves the registry alone. -/
structure SameRegistry (s t : State) : Prop where
  handle : t.handle = s.handle
  drawn : t.drawn = s.drawn
  numReaders : t.q.numReaders = s.q.numReaders
  readUids : t.q.readUids = s.q.readUids
  writeUid : t.q.writeUid = s.q.writeUid

theorem SameRegistry.rfl : SameRegistry s s := ⟨Eq.refl _, Eq.refl _, Eq.refl _, Eq.refl _, Eq.refl _⟩

theorem SameRegistry.trans {u : State} (a : SameRegistry s t) (b : SameRegistry t u) : SameRegistry s u :=
  ⟨b.handle.trans a.handle, b.drawn.trans a.drawn, b.numReaders.trans a.numReaders, b.readUids.trans a.readUids,
    b.writeUid.trans a.writeUid⟩

theorem SameRegistry.owns (k : SameRegistry s t) : Owns t h id ↔ Owns s h id := by
  unfold Owns
  rw [k.handle, k.readUids]

theorem Registry.congr (R : Registry U s) (k : SameRegistry s t) : Registry U t where
  count := by rw [k.numReaders]; exact R.count
  ids := by rw [k.handle]; exact R.ids
  slots := by rw [k.readUids, k.drawn]; exact R.slots
  locals := by rw [k.handle, k.drawn]; exact R.locals
  unique := by rw [k.handle]; exact R.unique
  below h id own := by rw [k.numReaders]; exact R.below h id (k.owns.mp own)
  writers := by rw [k.handle, k.drawn]; exact R.writers
  writer := by rw [k.handle]; exact R.writer

theorem sameRegistry_resetReader (s : State) (id : Nat) :
    SameRegistry s (s.setQueue (resetReader s.q id)) := ⟨rfl, rfl, rfl, rfl, rfl⟩

theorem sameRegistry_setReadPointer (s : State) (id v : Nat) :
    SameRegistry s (s.setQueue (setReadPointer s.q id v)) := ⟨rfl, rfl, rfl, rfl, rfl⟩

theorem drawn_weaken {n : Nat} {u : Nat} (h : ∃ j < n, u = U.draw j) : ∃ j < n + 1, u = U.draw j := by
  obtain ⟨j, hj, rfl⟩ := h
  exact ⟨j, Nat.lt_succ_of_lt hj, rfl⟩

/-- The next uid differs from every uid drawn before. -/
theorem draw_fresh {n : Nat} {u : Nat} (h : ∃ j < n, u = U.draw j) : u ≠ U.draw n := by
  obtain ⟨j, hj, rfl⟩ := h
  intro same
  exact hj.ne (U.distinct same)

/-- A roster is about the slots and uids that the handles hold. -/
theorem Roster.keep (R : Roster U s) (id : ∀ h, (t.handle h).readerId = (s.handle h).readerId)
    (uid : ∀ h, (t.handle h).readUidLocal = (s.handle h).readUidLocal) (drawn : s.drawn ≤ t.drawn) : Roster U t where
  ids h i registered := R.ids h i ((id h).symm.trans registered)
  locals h i registered := by
    obtain ⟨j, hj, same⟩ := R.locals h i ((id h).symm.trans registered)
    exact ⟨j, hj.trans_le drawn, (uid h).trans same⟩
  unique a b ia ib ha hb same := by
    rw [uid, uid] at same
    exact R.unique a b ia ib ((id a).symm.trans ha) ((id b).symm.trans hb) same

/-! Publisher start. -/

@[simp] theorem initPublisher_handle_ne (s : State) {h h' : Nat} (ne : h' ≠ h) :
    (initPublisher U s h).handle h' = s.handle h' := Function.update_of_ne ne _ _

@[simp] theorem initPublisher_readerId (s : State) (h h' : Nat) :
    ((initPublisher U s h).handle h').readerId = (s.handle h').readerId := by
  by_cases same : h' = h
  · subst same
    simp [initPublisher]
  · rw [initPublisher_handle_ne s same]

@[simp] theorem initPublisher_readUidLocal (s : State) (h h' : Nat) :
    ((initPublisher U s h).handle h').readUidLocal = (s.handle h').readUidLocal := by
  by_cases same : h' = h
  · subst same
    simp [initPublisher]
  · rw [initPublisher_handle_ne s same]

/-- A starting publisher leaves no slot owned. -/
theorem initPublisher_no_owner (R : Registry U s) (h h' id : Nat) :
    ¬ Owns (initPublisher U s h) h' id := by
  rintro ⟨hid, huid⟩
  rw [initPublisher_readerId] at hid
  rw [initPublisher_readUidLocal] at huid
  have hlt := R.ids h' id hid
  have hzero : (initPublisher U s h).q.readUids id = 0 := if_pos hlt
  obtain ⟨j, -, hj⟩ := R.locals h' id hid
  exact U.nonzero j (by rw [← hj, huid, hzero])

theorem initPublisher_registry (R : Registry U s) (h : Nat) : Registry U (initPublisher U s h) where
  count := Nat.zero_le _
  ids := by simpa using R.ids
  slots i := by
    by_cases hi : i < NUM_READERS
    · exact Or.inl (if_pos hi)
    · rw [show (initPublisher U s h).q.readUids i = s.q.readUids i from if_neg hi]
      exact (R.slots i).imp_right drawn_weaken
  locals h' id hid := by
    rw [initPublisher_readerId] at hid
    rw [initPublisher_readUidLocal]
    exact drawn_weaken (R.locals h' id hid)
  unique := by simpa using R.unique
  below h' id own := absurd own (initPublisher_no_owner R h h' id)
  writers h' u hu := by
    by_cases same : h' = h
    · subst same
      have : U.draw s.drawn = u := by simpa [initPublisher] using hu
      exact ⟨s.drawn, Nat.lt_succ_self _, this.symm⟩
    · rw [initPublisher_handle_ne s same] at hu
      exact drawn_weaken (R.writers h' u hu)
  writer a b u ha hb := by
    -- the new uid is on this handle only, the others keep theirs
    by_cases sa : a = h <;> by_cases sb : b = h
    · rw [sa, sb]
    · subst sa
      rw [initPublisher_handle_ne s sb] at hb
      have : U.draw s.drawn = u := by simpa [initPublisher] using ha
      exact absurd this.symm (draw_fresh (R.writers b u hb))
    · subst sb
      rw [initPublisher_handle_ne s sa] at ha
      have : U.draw s.drawn = u := by simpa [initPublisher] using hb
      exact absurd this.symm (draw_fresh (R.writers a u ha))
    · rw [initPublisher_handle_ne s sa] at ha
      rw [initPublisher_handle_ne s sb] at hb
      exact R.writer a b u ha hb

/-! Registration. -/

/-- The slot a registration takes. -/
def newSlot (q : Queue) : Nat := if full q then 0 else q.numReaders

theorem initSubscriber_numReaders (s : State) (h : Nat) :
    (initSubscriber U s h).q.numReaders = newSlot s.q + 1 := by
  simp only [initSubscriber, resetReader, newSlot]
  split_ifs <;> rfl

theorem newSlot_lt (q : Queue) : newSlot q < NUM_READERS := by
  unfold newSlot full
  split_ifs with hfull
  · decide
  · simp only [decide_eq_true_eq] at hfull
    omega

@[simp] theorem initSubscriber_handle_ne (s : State) {h h' : Nat} (ne : h' ≠ h) :
    (initSubscriber U s h).handle h' = s.handle h' := Function.update_of_ne ne _ _

theorem initSubscriber_readerId (s : State) (h : Nat) :
    ((initSubscriber U s h).handle h).readerId = some (newSlot s.q) := by
  simp only [initSubscriber, Function.update_self, newSlot]
  split_ifs <;> rfl

theorem initSubscriber_readUidLocal (s : State) (h : Nat) :
    ((initSubscriber U s h).handle h).readUidLocal = U.draw s.drawn := by
  simp [initSubscriber]

theorem initSubscriber_writeUidLocal (s : State) (h h' : Nat) :
    ((initSubscriber U s h).handle h').writeUidLocal = (s.handle h').writeUidLocal := by
  by_cases same : h' = h
  · subst same
    simp [initSubscriber]
  · rw [initSubscriber_handle_ne s same]

theorem initSubscriber_conflate (s : State) (h h' : Nat) :
    ((initSubscriber U s h).handle h').readConflate = (s.handle h').readConflate := by
  by_cases same : h' = h
  · subst same
    simp [initSubscriber]
  · rw [initSubscriber_handle_ne s same]

theorem initSubscriber_slot (s : State) (h : Nat) :
    (initSubscriber U s h).q.readUids (newSlot s.q) = U.draw s.drawn ∧
      (initSubscriber U s h).q.readValids (newSlot s.q) = true ∧
      (initSubscriber U s h).q.readPointers (newSlot s.q) = s.q.writePointer := by
  unfold initSubscriber newSlot resetReader
  split_ifs <;> simp [clearReaders]

/-- With a slot free, a registration leaves all other slots alone. -/
theorem initSubscriber_room (s : State) (h : Nat) {i : Nat} (room : full s.q = false) (hi : i ≠ newSlot s.q) :
    (initSubscriber U s h).q.readUids i = s.q.readUids i ∧
      (initSubscriber U s h).q.readValids i = s.q.readValids i ∧
      (initSubscriber U s h).q.readPointers i = s.q.readPointers i := by
  simp only [newSlot, room, Bool.false_eq_true, if_false] at hi
  simp [initSubscriber, resetReader, room, hi]

/-- A slot with an owner before and after was not evicted, so nothing of it changed. -/
theorem initSubscriber_other (s : State) (h : Nat) {i : Nat} (hi : i ≠ newSlot s.q)
    (hlt : i < NUM_READERS) (huid : (initSubscriber U s h).q.readUids i ≠ 0) :
    full s.q = false ∧ (initSubscriber U s h).q.readUids i = s.q.readUids i ∧
      (initSubscriber U s h).q.readValids i = s.q.readValids i ∧
      (initSubscriber U s h).q.readPointers i = s.q.readPointers i := by
  cases hfull : full s.q with
  | true =>
      simp only [newSlot, hfull, if_true] at hi
      simp [initSubscriber, resetReader, hfull, clearReaders, hi, hlt] at huid
  | false => exact ⟨rfl, initSubscriber_room s h hfull hi⟩

theorem initSubscriber_same (s : State) (h : Nat) :
    (initSubscriber U s h).q.writePointer = s.q.writePointer ∧
      (initSubscriber U s h).q.writeUid = s.q.writeUid ∧
      (initSubscriber U s h).q.data = s.q.data := by
  unfold initSubscriber resetReader
  split_ifs <;> exact ⟨rfl, rfl, rfl⟩

/-- After a registration every other owner owned its slot before, untouched. -/
theorem initSubscriber_owner_ne (R : Roster U s) {h h' id : Nat} (ne : h' ≠ h)
    (own : Owns (initSubscriber U s h) h' id) :
    Owns s h' id ∧ full s.q = false ∧ id ≠ newSlot s.q ∧
      (initSubscriber U s h).q.readValids id = s.q.readValids id ∧
      (initSubscriber U s h).q.readPointers id = s.q.readPointers id := by
  obtain ⟨hid, huid⟩ := own
  rw [initSubscriber_handle_ne s ne] at hid huid
  have drawn := R.locals h' id hid
  have hne : id ≠ newSlot s.q := by
    rintro rfl
    rw [(initSubscriber_slot s h).1] at huid
    exact draw_fresh drawn huid
  have hnz : (initSubscriber U s h).q.readUids id ≠ 0 := by
    obtain ⟨j, -, hj⟩ := drawn
    rw [← huid, hj]
    exact U.nonzero j
  obtain ⟨hfull, uids, valids, pointers⟩ := initSubscriber_other s h hne (R.ids h' id hid) hnz
  exact ⟨⟨hid, huid.trans uids⟩, hfull, hne, valids, pointers⟩

theorem initSubscriber_owns (s : State) (h : Nat) : Owns (initSubscriber U s h) h (newSlot s.q) :=
  ⟨initSubscriber_readerId s h,
    (initSubscriber_readUidLocal s h).trans (initSubscriber_slot s h).1.symm⟩

theorem initSubscriber_roster (R : Roster U s) (h : Nat) : Roster U (initSubscriber U s h) where
  ids h' id hid := by
    by_cases same : h' = h
    · subst same
      rw [initSubscriber_readerId] at hid
      exact Option.some.inj hid ▸ newSlot_lt s.q
    · rw [initSubscriber_handle_ne s same] at hid
      exact R.ids h' id hid
  locals h' id hid := by
    by_cases same : h' = h
    · subst same
      exact ⟨s.drawn, Nat.lt_succ_self _, initSubscriber_readUidLocal s h'⟩
    · rw [initSubscriber_handle_ne s same] at hid ⊢
      exact drawn_weaken (R.locals h' id hid)
  unique a b ia ib ha hb heq := by
    by_cases sa : a = h <;> by_cases sb : b = h
    · rw [sa, sb]
    · subst sa
      rw [initSubscriber_handle_ne s sb] at hb heq
      rw [initSubscriber_readUidLocal] at heq
      exact absurd heq.symm (draw_fresh (R.locals b ib hb))
    · subst sb
      rw [initSubscriber_handle_ne s sa] at ha heq
      rw [initSubscriber_readUidLocal] at heq
      exact absurd heq (draw_fresh (R.locals a ia ha))
    · rw [initSubscriber_handle_ne s sa] at ha heq
      rw [initSubscriber_handle_ne s sb] at hb heq
      exact R.unique a b ia ib ha hb heq

theorem initSubscriber_registry (R : Registry U s) (h : Nat) : Registry U (initSubscriber U s h) where
  count := by
    rw [initSubscriber_numReaders]
    exact newSlot_lt s.q
  ids := (initSubscriber_roster R.roster h).ids
  slots i := by
    by_cases hi : i = newSlot s.q
    · rw [hi, (initSubscriber_slot s h).1]
      exact Or.inr ⟨s.drawn, Nat.lt_succ_self _, rfl⟩
    · by_cases hz : (initSubscriber U s h).q.readUids i = 0
      · exact Or.inl hz
      · by_cases hlt : i < NUM_READERS
        · rw [(initSubscriber_other s h hi hlt hz).2.1]
          exact (R.slots i).imp_right drawn_weaken
        · have same : (initSubscriber U s h).q.readUids i = s.q.readUids i := by
            have hnew := newSlot_lt s.q
            unfold newSlot at hi
            simp only [initSubscriber, resetReader]
            split_ifs at hi ⊢ with hfull <;> simp [clearReaders, hi, hlt]
          rw [same]
          exact (R.slots i).imp_right drawn_weaken
  locals := (initSubscriber_roster R.roster h).locals
  unique := (initSubscriber_roster R.roster h).unique
  below h' id own := by
    rw [initSubscriber_numReaders]
    by_cases same : h' = h
    · subst same
      rw [own.slot_unique (initSubscriber_owns s h')]
      exact Nat.lt_succ_self _
    · obtain ⟨before, hfull, -, -, -⟩ := initSubscriber_owner_ne R.roster same own
      have hlt := R.below h' id before
      simp only [newSlot, hfull, Bool.false_eq_true, if_false]
      omega
  writers h' u hu := by
    rw [initSubscriber_writeUidLocal] at hu
    exact drawn_weaken (R.writers h' u hu)
  writer a b u ha hb := by
    rw [initSubscriber_writeUidLocal] at ha hb
    exact R.writer a b u ha hb

end registry

/-! What recv and ready do to the segment and the handles, pass by pass. -/

/-- All that one pass of either does. -/
inductive OnePass (U : UidSource) (h : Nat) (s : State) : State → Prop
  | stay : OnePass U h s s
  | register {id} : (s.handle h).readerId = some id → (s.handle h).readUidLocal ≠ s.q.readUids id →
      OnePass U h s (initSubscriber U s h)
  | reset {id} : Owns s h id → s.q.readValids id = false → OnePass U h s (s.setQueue (resetReader s.q id))
  | move {id} (c o) : Owns s h id → s.q.readValids id = true → c < 2 ^ 32 →
      OnePass U h s (s.setQueue (setReadPointer s.q id (pack64 c o)))

section passes
variable {U : UidSource} {G : Segment} {size h h' : Nat} {alloc : Bool} {s t : State}

theorem recvPass_onePass (s : State) : OnePass U h s (recvPass U size alloc h s).2 := by
  unfold recvPass
  cases hid : (s.handle h).readerId with
  | none => exact .stay
  | some id =>
      dsimp only
      split_ifs with huid unset
      · exact .register hid huid
      all_goals have own : Owns s h id := ⟨hid, not_not.mp huid⟩
      · exact .reset own (by simpa using unset)
      all_goals have valid : s.q.readValids id = true := by simpa using unset
      · exact .stay
      · exact .move _ _ own valid (nextCycle_lt _)
      · exact .stay
      · exact .move _ _ own valid (unpack64_fst_lt _)
      · exact .stay
      · rename_i torn
        -- the flag of the same segment was set above
        change (!s.q.readValids id) = true at torn
        rw [valid] at torn
        cases torn
      · exact .move _ _ own valid (unpack64_fst_lt _)

theorem readyPass_onePass (s : State) : OnePass U h s (readyPass U h s).2 := by
  unfold readyPass
  cases hid : (s.handle h).readerId with
  | none => exact .stay
  | some id =>
      dsimp only
      split_ifs with huid unset
      · exact .register hid huid
      · exact .reset ⟨hid, not_not.mp huid⟩ (by simpa using unset)
      · exact .stay

theorem OnePass.registry (one : OnePass U h s t) (R : Registry U s) : Registry U t := by
  cases one with
  | stay => exact R
  | register => exact initSubscriber_registry R h
  | reset => exact R.congr (sameRegistry_resetReader s _)
  | move => exact R.congr (sameRegistry_setReadPointer s _ _)

/-- What every pass keeps, a whole receive keeps. -/
theorem recv_keeps {I : State → Prop} {fuel : Nat} {passes : List Pass}
    (keep : ∀ {u v}, OnePass U h u v → I u → I v) (init : I s)
    (run : msgRecv U size alloc h fuel s = some (passes, t)) : I t :=
  Traces.loop_invariant (I := fun _ u => I u) (fun _ u => keep (recvPass_onePass u)) init run

theorem ready_keeps {I : State → Prop} {fuel : Nat} {passes : List ReadyPass}
    (keep : ∀ {u v}, OnePass U h u v → I u → I v) (init : I s)
    (run : msgReady U h fuel s = some (passes, t)) : I t :=
  Traces.loop_invariant (I := fun _ u => I u) (fun _ u => keep (readyPass_onePass u)) init run

theorem OnePass.handle_ne (one : OnePass U h s t) (ne : h' ≠ h) : t.handle h' = s.handle h' := by
  cases one with
  | register => exact initSubscriber_handle_ne s ne
  | stay | reset | move => rfl

/-- A call changes no handle but the caller's. -/
theorem step_handle_ne {e : Event} (step : Step U G s e t) (ne : h' ≠ e.caller) : t.handle h' = s.handle h' := by
  cases step with
  | initPublisher h => exact initPublisher_handle_ne s ne
  | initSubscriber h => exact initSubscriber_handle_ne s ne
  | sent | refused | aborted => rfl
  | recv run =>
      exact recv_keeps (I := fun u => u.handle h' = s.handle h') (fun one same => (one.handle_ne ne).trans same) rfl run
  | ready run =>
      exact ready_keeps (I := fun u => u.handle h' = s.handle h') (fun one same => (one.handle_ne ne).trans same) rfl run

end passes

end Msgq
