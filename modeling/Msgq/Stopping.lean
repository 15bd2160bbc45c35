import Msgq.Integrity

/-! A send that stops before its last store. Wherever it stops, every reader
whose flag is still set has intact records before it: flags are cleared before
the bytes behind them are overwritten, and the write pointer moves last. -/
namespace Msgq
open ByteMemory FramedRecords Traces

/-! The stores of a send, cut short. -/

section stores
variable {q p : Queue} {c w k : Nat} {msg : Bytes}

theorem applyAll_take_invalidations (q p : Queue) (test : Nat → Bool) (k : Nat) :
    Store.applyAll q ((invalidations p test).take k) =
      clearFlags q (((List.range p.numReaders).filter test).take k) := by
  rw [invalidations, ← List.map_take]
  exact applyAll_invalidate q _

/-- The slots whose flags the record half of a send clears. -/
def areaSlots (q : Queue) (c w n : Nat) : List Nat :=
  (List.range q.numReaders).filter (inArea q c w (align (w + 8 + n)))

/-- Short of the final write pointer, the record half has cleared some flags and,
once it has cleared them all, written inside its area. -/
theorem applyAll_take_recordStores (hn : p.numReaders = q.numReaders)
    (hp : p.readPointers = q.readPointers) (hk : k < (recordStores p c w msg).length) :
    ∃ is data, Store.applyAll q ((recordStores p c w msg).take k) = { clearFlags q is with data } ∧
      (∀ lo hi, hi ≤ w ∨ w + span msg.length ≤ lo → AgreeOn q.data data lo hi) ∧
      (data = q.data ∨ is = areaSlots q c w msg.length) := by
  have htest : inArea p c w (align (w + 8 + msg.length)) = inArea q c w (align (w + 8 + msg.length)) := by
    funext i
    rw [inArea, inArea, Queue.readOffset, Queue.readCycles, hp]
    rfl
  have hspan := le_span msg.length
  unfold recordStores at hk ⊢
  rw [List.take_append, applyAll_append, applyAll_take_invalidations, hn, htest]
  generalize hlen : (invalidations p (inArea q c w (align (w + 8 + msg.length)))).length = len at hk ⊢
  cases hj : k - len with
  | zero => exact ⟨_, q.data, rfl, fun _ _ _ _ _ _ => rfl, Or.inl rfl⟩
  | succ j =>
      have whole : ((List.range q.numReaders).filter (inArea q c w (align (w + 8 + msg.length)))).take k =
          areaSlots q c w msg.length := by
        apply List.take_of_length_le
        have count : (invalidations p (inArea q c w (align (w + 8 + msg.length)))).length =
            ((List.range q.numReaders).filter (inArea q c w (align (w + 8 + msg.length)))).length := by
          rw [invalidations, List.length_map, hn]
        omega
      have short : j ≤ (payloadStores (w + 8) msg).length := by
        rw [htest, List.length_append, hlen] at hk
        simp only [List.length_cons, List.length_append, List.length_nil] at hk
        omega
      have count : (payloadStores (w + 8) msg).length = pieceCount msg.length := by simp [payloadStores]
      rw [whole, List.take_succ_cons, applyAll_cons, List.take_append_of_le_length short, payloadStores,
        ← List.map_take, List.take_range, min_eq_left (count ▸ short)]
      have pieces := applyAll_pieces (Store.apply (clearFlags q (areaSlots q c w msg.length))
        (.word w msg.length)) (w + 8) msg (count ▸ short)
      refine ⟨_, _, pieces, ?_, Or.inr rfl⟩
      intro lo hi clear
      have cut : (msg.take (8 * j)).length ≤ msg.length := List.length_take_le' _ _
      exact (storeWord_agree q.data w _ (by omega)).symm.trans (writeBytes_agree _ _ _ (by omega)).symm

/-- Short of the wrapped write pointer, the wrap half has stored the tag and
cleared some flags, or done nothing. -/
theorem applyAll_take_wrapStores (hk : k < (wrapStores q).length) :
    ∃ is data, Store.applyAll q ((wrapStores q).take k) = { clearFlags q is with data } ∧
      (data = q.data ∧ is = [] ∨ data = storeWord q.data q.writeOffset (-1)) := by
  cases k with
  | zero => exact ⟨[], q.data, by simp [clearFlags], Or.inl ⟨rfl, rfl⟩⟩
  | succ k =>
      have short : k ≤ (invalidations q (beyondWriter q q.writeCycles q.writeOffset)).length := by
        simp only [wrapStores, List.length_cons, List.length_append, List.length_nil] at hk
        omega
      rw [wrapStores, List.take_succ_cons, applyAll_cons, List.take_append_of_le_length short,
        applyAll_take_invalidations]
      exact ⟨_, _, rfl, Or.inr rfl⟩

end stores

/-! What each stretch leaves of the readers. -/

section stretches
variable {L : Laps} {P : Nat → Prop} {U : UidSource} {size : Nat} {s : State} {lap : List Bytes}
  {front : Nat} {g : Nat → List Bytes}

theorem sameRegistry_marked (s : State) (is : List Nat) (data : Memory) :
    SameRegistry s (s.setQueue { clearFlags s.q is with data }) := ⟨rfl, rfl, rfl, rfl, rfl⟩

theorem valid_of_clearFlags {q : Queue} {is : List Nat} {i : Nat}
    (kept : (clearFlags q is).readValids i = true) : q.readValids i = true ∧ i ∉ is := by
  simpa [clearFlags] using kept

/-- Clearing flags only frees readers from the invariant. -/
theorem Tracked.clearFlags (T : Tracked L P U size s lap front g) (is : List Nat) :
    Tracked L P U size (s.setQueue (clearFlags s.q is)) lap front g := by
  apply T.setRing (sameRegistry_marked s is s.q.data) rfl T.ok
  intro h id hP own kept
  exact T.at_slot h id hP own (valid_of_clearFlags kept).1

/-- Behind the second invalidation loop no reader of an older lap is left in the area. -/
theorem Tracked.claim (T : Tracked L P U size s lap front g) {stop : Nat}
    (clear : ∀ h id, P h → Owns s h id → s.q.readValids id = true →
      ¬ (front ≤ s.q.readOffset id ∧ s.q.readOffset id < stop ∧ s.q.readCycles id ≠ s.q.writeCycles)) :
    Tracked L P U size s lap stop g := by
  refine ⟨T.registry, T.ok.claim stop, ?_⟩
  intro h id hP own valid
  rcases T.at_slot h id hP own valid with here | back
  · exact Or.inl (here.claim stop)
  · refine Or.inr (back.claim ?_)
    have low : front ≤ s.q.readOffset id := back.2.1
    have other : s.q.readCycles id ≠ s.q.writeCycles := L.back_ne back.1
    by_contra inside
    exact clear h id hP own valid ⟨low, not_le.mp inside, other⟩

/-- Inside the claimed area the data may change. -/
theorem Tracked.write (T : Tracked L P U size s lap front g) {data : Memory}
    (below : AgreeOn s.q.data data 0 s.q.writeOffset) (above : ∀ hi, AgreeOn s.q.data data front hi) :
    Tracked L P U size (s.setQueue { s.q with data }) lap front g := by
  have same : SameRegistry s (s.setQueue { s.q with data }) := ⟨rfl, rfl, rfl, rfl, rfl⟩
  apply T.setRing same rfl (T.ok.write below)
  intro h id hP own kept
  exact (T.at_slot h id hP own kept).write above

end stretches

section intact
variable {U : UidSource} {size : Nat} {s : State} {sent lap : List Bytes}
  {received : Nat → List Bytes} {front : Nat} {g g' : Nat → List Bytes}

theorem Intact.lose {t : State} {lap' : List Bytes} {front' : Nat}
    (I : Intact U size s sent received lap front g)
    (T : Tracked looseLaps (fun _ => True) U size t lap' front' g') (less : ∀ h, (g' h).Sublist (g h)) :
    Intact U size t sent received lap' front' g' :=
  ⟨T, fun h => ((List.Sublist.refl _).append (less h)).trans (I.order h), I.nonempty⟩

theorem Intact.clearFlags (I : Intact U size s sent received lap front g) (is : List Nat) :
    Intact U size (s.setQueue (Msgq.clearFlags s.q is)) sent received lap front g :=
  I.lose (I.tracked.clearFlags is) fun _ => List.Sublist.refl _

/-- The wrap tag, with the write pointer still before it: a reader of an older
lap right there is led past the rest of its lap. -/
theorem Intact.tag (I : Intact U size s sent received lap s.q.writeOffset g) :
    ∃ g', Intact U size (s.setQueue { s.q with data := storeWord s.q.data s.q.writeOffset (-1) }) sent
      received lap s.q.writeOffset g' := by
  have each : ∀ h, ∃ ahead : List Bytes, ahead.Sublist (g h) ∧ ∀ id, Owns s h id → s.q.readValids id = true →
      AtWord looseLaps (s.q.view size lap s.q.writeOffset).tag (s.q.readPointers id) ahead := by
    intro h
    by_cases at_tag : ∃ id, Owns s h id ∧ (unpack64 (s.q.readPointers id)).2 = s.q.writeOffset ∧
        Back looseLaps (s.q.view size lap s.q.writeOffset) (unpack64 (s.q.readPointers id)).1
          (unpack64 (s.q.readPointers id)).2 (g h)
    · obtain ⟨id, own, hr, back⟩ := at_tag
      refine ⟨lap, ?_, ?_⟩
      · obtain ⟨-, -, -, old, e, ahead, -⟩ := back
        rw [ahead]
        exact List.sublist_append_right old lap
      · intro id' own' _
        obtain rfl := own'.slot_unique own
        exact Or.inr (back.tag_at hr trivial)
    · refine ⟨g h, List.Sublist.refl _, ?_⟩
      intro id own valid
      rcases I.tracked.at_slot h id trivial own valid with here | back
      · exact Or.inl here.tag
      · refine Or.inr (back.tag I.tracked.ok (lt_of_le_of_ne back.2.1 ?_))
        intro same
        exact at_tag ⟨id, own, same.symm, back⟩
  choose g' less positions using each
  refine ⟨g', I.lose (I.tracked.setRing ⟨rfl, rfl, rfl, rfl, rfl⟩ rfl I.tracked.ok.tag ?_) less⟩
  exact fun h id _ own valid => positions h id own valid

theorem wrapQueue_view (q : Queue) (size : Nat) (lap : List Bytes) :
    (wrapQueue q).view size [] 0 = (q.view size lap q.writeOffset).tag.turn := by
  have cycles : (wrapQueue q).writeCycles = nextCycle q.writeCycles := unpack64_pack64_fst (nextCycle_lt _)
  have off : (wrapQueue q).writeOffset = 0 := unpack64_pack64_snd (by omega)
  rw [Queue.view, cycles, off]
  rfl

/-- The whole wrap half. Of the older lap only readers right at the tag are left. -/
theorem Intact.wrap (I : Intact U size s sent received lap s.q.writeOffset g)
    (hturn : s.q.writeCycles + 1 < 2 ^ 32) (hroom : s.q.writeOffset + 8 < size) :
    ∃ g', Intact U size (s.setQueue (wrapQueue s.q)) sent received [] 0 g' := by
  have each : ∀ h, ∃ ahead : List Bytes, ahead.Sublist (g h) ∧ ∀ id, Owns s h id →
      (wrapQueue s.q).readValids id = true →
      AtWord looseLaps (s.q.view size lap s.q.writeOffset).tag.turn (s.q.readPointers id) ahead := by
    intro h
    by_cases at_tag : ∃ id, Owns s h id ∧ (unpack64 (s.q.readPointers id)).2 = s.q.writeOffset ∧
        Back looseLaps (s.q.view size lap s.q.writeOffset) (unpack64 (s.q.readPointers id)).1
          (unpack64 (s.q.readPointers id)).2 (g h)
    · obtain ⟨id, own, hr, back⟩ := at_tag
      refine ⟨[], List.nil_sublist _, ?_⟩
      intro id' own' _
      obtain rfl := own'.slot_unique own
      exact Or.inr (back.tag_turn_at hr (looseLaps_stay back.1 hturn) trivial)
    · refine ⟨g h, List.Sublist.refl _, ?_⟩
      intro id own kept
      obtain ⟨valid, beyond⟩ := (wrapQueue_readValids (I.tracked.registry.below h id own)).mp kept
      rcases I.tracked.at_slot h id trivial own valid with here | back
      · exact Or.inr (here.tag.turn I.tracked.ok.tag (View.tag_mark _) hturn trivial hroom)
      · have other : s.q.readCycles id ≠ s.q.writeCycles := looseLaps.back_ne back.1
        have low : s.q.writeOffset ≤ s.q.readOffset id := back.2.1
        rw [beyondWriter_iff] at beyond
        by_cases same : s.q.readOffset id = s.q.writeOffset
        · exact absurd ⟨id, own, same, back⟩ at_tag
        · exact absurd ⟨lt_of_le_of_ne low (Ne.symm same), other⟩ beyond
  choose g' less positions using each
  refine ⟨g', I.lose (I.tracked.setRing ⟨rfl, rfl, rfl, rfl, rfl⟩ rfl ?_ ?_) less⟩
  · rw [wrapQueue_view s.q size lap]
    exact View.Ok.turn _
  · intro h id _ own kept
    rw [wrapQueue_view s.q size lap]
    exact positions h id own kept

/-- The record half cut short, for a record at the write offset. -/
theorem Intact.recordPrefix {p : Queue} {m : Bytes} {k : Nat}
    (I : Intact U size s sent received lap s.q.writeOffset g) (hn : p.numReaders = s.q.numReaders)
    (hp : p.readPointers = s.q.readPointers)
    (hstop : align (s.q.writeOffset + 8 + m.length) = s.q.writeOffset + span m.length)
    (hk : k < (recordStores p s.q.writeCycles s.q.writeOffset m).length) :
    ∃ front', Intact U size (s.setQueue (Store.applyAll s.q
      ((recordStores p s.q.writeCycles s.q.writeOffset m).take k))) sent received lap front' g := by
  obtain ⟨is, data, result, agree, before | all⟩ := applyAll_take_recordStores (q := s.q) hn hp hk
  · rw [result, before]
    exact ⟨_, I.clearFlags is⟩
  rw [result, all]
  have cleared := I.clearFlags (areaSlots s.q s.q.writeCycles s.q.writeOffset m.length)
  have claimed : Tracked looseLaps (fun _ => True) U size
      (s.setQueue (Msgq.clearFlags s.q (areaSlots s.q s.q.writeCycles s.q.writeOffset m.length))) lap
      (s.q.writeOffset + span m.length) g := by
    apply cleared.tracked.claim
    intro h id _ own kept inside
    apply (valid_of_clearFlags kept).2
    rw [areaSlots, List.mem_filter, List.mem_range, inArea_iff, hstop]
    exact ⟨cleared.tracked.registry.below h id own, inside⟩
  refine ⟨_, cleared.lose (claimed.write ?_ ?_) fun _ => List.Sublist.refl _⟩
  · exact agree _ _ (Or.inl (le_refl _))
  · exact fun hi => agree _ _ (Or.inr (le_refl _))

/-- Whether a send that stopped after `k` stores had moved on to the next cycle. -/
def turned (size : Nat) (q : Queue) (n k : Nat) : Bool := mustWrap size q n && (wrapStores q).length ≤ k

/-- A send cut short anywhere before its last store. -/
theorem Intact.stop {m : Bytes} {k : Nat} (hsize : size < 0xFFFFFFFF)
    (I : Intact U size s sent received lap s.q.writeOffset g) (fits : Fits size m)
    (hturn : turned size s.q m.length k = true → s.q.writeCycles + 1 < 2 ^ 32)
    (hk : k < (sendStores size s.q m).length) :
    (Store.applyAll s.q ((sendStores size s.q m).take k)).writeCycles =
        s.q.writeCycles + (if turned size s.q m.length k then 1 else 0) ∧
      ∃ lap' front' g', Intact U size (s.setQueue (Store.applyAll s.q ((sendStores size s.q m).take k)))
        sent received lap' front' g' := by
  have stop := record_stop hsize I.tracked.ok fits
  unfold recordOffset at stop
  unfold turned at hturn ⊢
  unfold sendStores at hk ⊢
  cases hw : mustWrap size s.q m.length with
  | false =>
      simp only [hw, Bool.false_eq_true, if_false] at hk stop ⊢
      obtain ⟨is, data, result, -⟩ := applyAll_take_recordStores (q := s.q) rfl rfl hk
      refine ⟨by rw [result]; rfl, ?_⟩
      obtain ⟨front', I'⟩ := I.recordPrefix rfl rfl stop hk
      exact ⟨lap, front', g, I'⟩
  | true =>
      simp only [hw, if_true, Bool.true_and, decide_eq_true_eq] at hk stop hturn ⊢
      have hoff := mustWrap_offset hsize fits hw
      have hroom : s.q.writeOffset + 8 < size := by
        have := I.tracked.ok.room
        simp only [Queue.view] at this
        omega
      rw [List.take_append]
      by_cases early : k < (wrapStores s.q).length
      · have none : k - (wrapStores s.q).length = 0 := by omega
        rw [none, List.take_zero, List.append_nil, if_neg (not_le.mpr early)]
        obtain ⟨is, data, result, ⟨rfl, rfl⟩ | rfl⟩ := applyAll_take_wrapStores early
        · rw [result]
          exact ⟨rfl, lap, _, g, I.clearFlags []⟩
        · rw [result]
          obtain ⟨g', tagged⟩ := I.tag
          exact ⟨rfl, lap, _, g', tagged.clearFlags is⟩
      · have late : (wrapStores s.q).length ≤ k := not_lt.mp early
        have cycles : (wrapQueue s.q).writeCycles = nextCycle s.q.writeCycles :=
          unpack64_pack64_fst (nextCycle_lt _)
        have off : (wrapQueue s.q).writeOffset = 0 := unpack64_pack64_snd (by omega)
        have rest : k - (wrapStores s.q).length <
            (recordStores s.q (nextCycle s.q.writeCycles) 0 m).length := by
          rw [List.length_append] at hk
          omega
        rw [List.take_of_length_le late, applyAll_append, applyAll_wrapStores, if_pos late]
        obtain ⟨g', wrapped⟩ := I.wrap (hturn late) hroom
        have I' : Intact U size (s.setQueue (wrapQueue s.q)) sent received [] (wrapQueue s.q).writeOffset g' :=
          off ▸ wrapped
        constructor
        · obtain ⟨is, data, result, -⟩ := applyAll_take_recordStores (p := s.q) (q := wrapQueue s.q) rfl rfl rest
          rw [result]
          exact cycles.trans (nextCycle_eq (hturn late))
        · rw [← off, ← cycles] at rest ⊢
          obtain ⟨front', I''⟩ := I'.recordPrefix (p := s.q) rfl rfl (off.symm ▸ stop) rest
          exact ⟨[], front', g', I''⟩

end intact

end Msgq
