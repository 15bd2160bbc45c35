import Msgq.Tracking

/-! A receive, pass by pass. What a pass does is said once, from the handle and
its slot; a pass leaves the messages its handle has ahead, drops the first of
them or gives them all up. -/
namespace Msgq
open ByteMemory FramedRecords Traces

section calls
variable {L : Laps} {P : Nat → Prop} {U : UidSource} {size bound : Nat} {s : State} {lap : List Bytes} {front : Nat}
  {g : Nat → List Bytes} {h id : Nat} {alloc : Bool}

/-! The passes of a receive, by what the handle and its slot look like. -/

theorem recvPass_unregistered (hid : (s.handle h).readerId = none) :
    recvPass U size alloc h s = (.unregistered, s) := by
  simp [recvPass, hid]

theorem recvPass_evicted (hid : (s.handle h).readerId = some id)
    (huid : (s.handle h).readUidLocal ≠ s.q.readUids id) :
    recvPass U size alloc h s = (.evicted, Msgq.initSubscriber U s h) := by
  simp [recvPass, hid, huid]

theorem recvPass_invalid (own : Owns s h id) (hv : s.q.readValids id = false) :
    recvPass U size alloc h s = (.invalid, s.setQueue (Msgq.resetReader s.q id)) := by
  simp [recvPass, own.1, own.2, hv]

theorem recvPass_empty (own : Owns s h id) (hv : s.q.readValids id = true)
    (hr : s.q.readOffset id = s.q.writeOffset) : recvPass U size alloc h s = (.empty, s) := by
  simp [recvPass, own.1, own.2, hv, hr]

/-- The slot's state behind the wrap tag. -/
def pastMark (s : State) (id : Nat) : State :=
  s.setQueue (Msgq.setReadPointer s.q id (pack64 (nextCycle (s.q.readCycles id)) 0))

theorem recvPass_wrapped (own : Owns s h id) (hv : s.q.readValids id = true)
    (hr : s.q.readOffset id ≠ s.q.writeOffset) (hm : MarkAt s.q.data (s.q.readOffset id)) :
    recvPass U size alloc h s = (.wrapped (s.q.readOffset id), pastMark s id) := by
  have hn : loadWord s.q.data (s.q.readOffset id) = -1 := hm
  simp [recvPass, own.1, own.2, hv, hr, hn, pastMark]

/-- The slot's state behind a record at its offset. -/
def pastRecord (s : State) (id : Nat) (m : Bytes) : State :=
  s.setQueue (Msgq.setReadPointer s.q id
    (pack64 (s.q.readCycles id) (s.q.readOffset id + span m.length)))

theorem pastRecord_readCycles (s : State) (id : Nat) (m : Bytes) :
    (pastRecord s id m).q.readCycles id = s.q.readCycles id := by
  change (unpack64 (Function.update s.q.readPointers id _ id)).1 = _
  rw [Function.update_self, unpack64_pack64_fst (readCycles_lt s.q id)]

theorem pastRecord_readOffset {m : Bytes} (hlt : s.q.readOffset id + span m.length < 2 ^ 32) :
    (pastRecord s id m).q.readOffset id = s.q.readOffset id + span m.length := by
  change (unpack64 (Function.update s.q.readPointers id _ id)).2 = _
  rw [Function.update_self, unpack64_pack64_snd hlt]

theorem Tracked.pastRecord (T : Tracked L P U size s lap front g) (own : Owns s h id) {m : Bytes}
    {rest : List Bytes} (hlt : s.q.readOffset id + span m.length < 2 ^ 32)
    (next : P h →
      At L (s.q.view size lap front) (s.q.readCycles id) (s.q.readOffset id + span m.length) rest) :
    Tracked L P U size (Msgq.pastRecord s id m) lap front (Function.update g h rest) := by
  refine T.setReadPointer own fun hP => ?_
  rw [AtWord, unpack64_pack64_fst (readCycles_lt s.q id), unpack64_pack64_snd hlt]
  exact next hP

theorem Tracked.pastMark (T : Tracked L P U size s lap front g) (own : Owns s h id) (hg : g h = lap)
    (next : Here L (s.q.view size lap front) (nextCycle (s.q.readCycles id)) 0 lap) :
    Tracked L P U size (Msgq.pastMark s id) lap front g := by
  have tracked : Tracked L P U size (Msgq.pastMark s id) lap front (Function.update g h (g h)) := by
    refine T.setReadPointer own fun _ => ?_
    rw [AtWord, unpack64_pack64_fst (nextCycle_lt _), unpack64_pack64_snd (by omega), hg]
    exact Or.inl next
  rwa [Function.update_eq_self] at tracked

theorem recvPass_record (U : UidSource) (alloc : Bool) {m : Bytes} (own : Owns s h id) (hv : s.q.readValids id = true)
    (hr : s.q.readOffset id ≠ s.q.writeOffset) (hrec : RecordAt s.q.data (s.q.readOffset id) m)
    (hne : m ≠ []) (hdvd : 8 ∣ s.q.readOffset id)
    (hroom : s.q.readOffset id + span m.length + 8 ≤ size) (hsize : size < 0xFFFFFFFF) :
    recvPass U size alloc h s =
      if (s.handle h).readConflate = true ∧ s.q.readOffset id + span m.length ≠ s.q.writeOffset then
        (.skipped (s.q.readOffset id) m.length, pastRecord s id m)
      else if alloc = false then (.noMemory (s.q.readOffset id), s)
      else (.message (s.q.readOffset id) m, pastRecord s id m) := by
  obtain ⟨htag, hbytes⟩ := hrec
  have hspan := le_span m.length
  have hpos := List.length_pos_iff.mpr hne
  have hnot : ¬ (m.length : Int) = -1 := by omega
  have hu : toU64 (m.length : Int) = m.length := by
    unfold toU64
    omega
  have hreal : Real m.length := by
    unfold Real
    omega
  have hnew : align (s.q.readOffset id + 8 + m.length) % 2 ^ 32 =
      s.q.readOffset id + span m.length := by
    rw [align_record hdvd (by omega) hreal, Nat.mod_eq_of_lt (by omega)]
  have hlt : m.length < size := by omega
  have hvalid : (Msgq.setReadPointer s.q id (pack64 (s.q.readCycles id)
      (s.q.readOffset id + span m.length))).readValids id = true := hv
  simp only [recvPass, own.1, own.2, hv, hr, htag, hnot, hu, hlt, hpos, hnew, hbytes, hvalid, pastRecord,
    ne_eq, not_true_eq_false, if_false, Bool.not_true, Bool.false_eq_true, Int.toNat_natCast,
    Nat.cast_pos, decide_true, Bool.and_self, Bool.and_eq_true, bne_iff_ne, Bool.not_eq_true']

/-- Only a conflating reader skips, and never up to the write offset. -/
theorem recvPass_skipped {p n : Nat} {t : State} (pass : recvPass U size alloc h s = (.skipped p n, t)) :
    (s.handle h).readConflate = true ∧
      ∃ id, Owns t h id ∧ t.q.readValids id = true ∧ t.q.readOffset id ≠ t.q.writeOffset := by
  unfold recvPass at pass
  cases hid : (s.handle h).readerId with
  | none =>
      rw [hid] at pass
      cases pass
  | some id =>
      rw [hid] at pass
      dsimp only at pass
      split_ifs at pass with huid hv hr hn hsize hskip <;> cases pass
      rw [Bool.and_eq_true, bne_iff_ne] at hskip
      have valid : s.q.readValids id = true := by simpa using hv
      refine ⟨hskip.1, id, ⟨hid, not_not.mp huid⟩, valid, ?_⟩
      change (unpack64 (Function.update s.q.readPointers id _ id)).2 ≠ s.q.writeOffset
      rw [Function.update_self, unpack64_pack64_snd (Nat.mod_lt _ (by omega))]
      exact hskip.2

/-- What receivers never touch: the writer's words, the data and who publishes. -/
structure Quiet (s t : State) : Prop where
  writePointer : t.q.writePointer = s.q.writePointer
  data : t.q.data = s.q.data
  writeUid : t.q.writeUid = s.q.writeUid
  writeUidLocal : ∀ h, (t.handle h).writeUidLocal = (s.handle h).writeUidLocal
  readConflate : ∀ h, (t.handle h).readConflate = (s.handle h).readConflate

theorem Quiet.rfl {s : State} : Quiet s s :=
  ⟨Eq.refl _, Eq.refl _, Eq.refl _, fun _ => Eq.refl _, fun _ => Eq.refl _⟩

theorem Quiet.trans {a b c : State} (x : Quiet a b) (y : Quiet b c) : Quiet a c :=
  ⟨y.writePointer.trans x.writePointer, y.data.trans x.data, y.writeUid.trans x.writeUid,
    fun h => (y.writeUidLocal h).trans (x.writeUidLocal h),
    fun h => (y.readConflate h).trans (x.readConflate h)⟩

theorem quiet_initSubscriber (s : State) (h : Nat) : Quiet s (Msgq.initSubscriber U s h) :=
  have same := initSubscriber_same (U := U) s h
  ⟨same.1, same.2.2, same.2.1, initSubscriber_writeUidLocal s h, initSubscriber_conflate s h⟩

theorem quiet_resetReader (s : State) (id : Nat) : Quiet s (s.setQueue (Msgq.resetReader s.q id)) :=
  ⟨rfl, rfl, rfl, fun _ => rfl, fun _ => rfl⟩

theorem quiet_setReadPointer (s : State) (id v : Nat) :
    Quiet s (s.setQueue (Msgq.setReadPointer s.q id v)) :=
  ⟨rfl, rfl, rfl, fun _ => rfl, fun _ => rfl⟩

theorem OnePass.quiet (one : OnePass U h s t) : Quiet s t := by
  cases one with
  | stay => exact .rfl
  | register => exact quiet_initSubscriber s h
  | reset => exact quiet_resetReader s _
  | move => exact quiet_setReadPointer s _ _

theorem quiet_recv {fuel : Nat} {passes : List Pass} (run : msgRecv U size alloc h fuel s = some (passes, t)) :
    Quiet s t := recv_keeps (fun one same => same.trans one.quiet) .rfl run

theorem quiet_ready {fuel : Nat} {passes : List ReadyPass} (run : msgReady U h fuel s = some (passes, t)) :
    Quiet s t := ready_keeps (fun one same => same.trans one.quiet) .rfl run

/-- What a pass does to the messages its handle has ahead. -/
def Follows (h : Nat) (g g' : Nat → List Bytes) : Pass → Prop
  | .evicted | .invalid | .lapped _ | .torn _ _ => g' = Function.update g h []
  | .skipped _ n => ∃ m rest, g h = m :: rest ∧ n = m.length ∧ g' = Function.update g h rest
  | .message _ m => ∃ rest, g h = m :: rest ∧ g' = Function.update g h rest
  | .unregistered | .empty | .wrapped _ | .noMemory _ => g' = g
  | .garbage _ => False

theorem Follows.other {g g' : Nat → List Bytes} {p : Pass} {h' : Nat} (f : Follows h g g' p)
    (ne : h' ≠ h) : g' h' = g h' := by
  cases p with
  | evicted | invalid | lapped | torn =>
      obtain rfl := f
      exact Function.update_of_ne ne _ _
  | skipped =>
      obtain ⟨_, _, _, _, rfl⟩ := f
      exact Function.update_of_ne ne _ _
  | message =>
      obtain ⟨_, _, rfl⟩ := f
      exact Function.update_of_ne ne _ _
  | unregistered | empty | wrapped | noMemory =>
      obtain rfl := f
      rfl
  | garbage => exact f.elim

theorem Follows.nonempty {g g' : Nat → List Bytes} {p : Pass} (f : Follows h g g' p)
    (nonempty : ∀ m ∈ g h, m ≠ []) : ∀ m ∈ g' h, m ≠ [] := by
  cases p with
  | evicted | invalid | lapped | torn =>
      obtain rfl := f
      simp
  | skipped =>
      obtain ⟨m, rest, ahead, -, rfl⟩ := f
      intro x hx
      rw [Function.update_self] at hx
      exact nonempty x (ahead ▸ List.mem_cons_of_mem m hx)
  | message p m =>
      obtain ⟨rest, ahead, rfl⟩ := f
      intro x hx
      rw [Function.update_self] at hx
      exact nonempty x (ahead ▸ List.mem_cons_of_mem m hx)
  | unregistered | empty | wrapped | noMemory =>
      obtain rfl := f
      exact nonempty
  | garbage => exact f.elim

/-- One pass of a receive in a tracked state: no assertion fails, everything it
reads lies in the ring, and the state stays tracked. -/
theorem recvPass_tracked (alloc : Bool) (hsize : size < 0xFFFFFFFF) (reach : bound ≤ size + 1)
    (T : Tracked L P U bound s lap front g) (hP : P h)
    (nonempty : ∀ m ∈ g h, m ≠ []) :
    (∀ x ∈ (recvPass U size alloc h s).1.ranges, x.1 + x.2 < bound) ∧
      ∃ g', Follows h g g' (recvPass U size alloc h s).1 ∧
        Tracked L P U bound (recvPass U size alloc h s).2 lap front g' := by
  cases hid : (s.handle h).readerId with
  | none =>
      rw [recvPass_unregistered hid]
      exact ⟨by simp [Pass.ranges], g, rfl, T⟩
  | some id =>
      by_cases huid : (s.handle h).readUidLocal = s.q.readUids id
      swap
      · rw [recvPass_evicted hid huid]
        exact ⟨by simp [Pass.ranges], _, rfl, T.initSubscriber h⟩
      have own : Owns s h id := ⟨hid, huid⟩
      cases hv : s.q.readValids id with
      | false =>
          rw [recvPass_invalid own hv]
          exact ⟨by simp [Pass.ranges], _, rfl, T.resetReader own⟩
      | true =>
          by_cases hr : s.q.readOffset id = s.q.writeOffset
          · rw [recvPass_empty own hv hr]
            exact ⟨by simp [Pass.ranges], g, rfl, T⟩
          have position : At L (s.q.view bound lap front) (s.q.readCycles id) (s.q.readOffset id) (g h) :=
            T.at_slot h id hP own hv
          rcases position.read T.ok hr with ⟨m, rest, hg, reads, next⟩ | ⟨hg, mark⟩
          · -- a record: skipped, delivered, or left for want of memory
            have hspan := le_span m.length
            have hroom : s.q.readOffset id + span m.length + 8 < bound := reads.room
            have tracked := T.pastRecord own (by omega) fun _ => next
            rw [recvPass_record U alloc own hv hr reads.record (nonempty m (by simp [hg])) position.dvd
              (by omega) hsize]
            split_ifs
            · exact ⟨by simp [Pass.ranges]; omega, _, ⟨m, rest, hg, rfl, rfl⟩, tracked⟩
            · exact ⟨by simp [Pass.ranges]; omega, g, rfl, T⟩
            · exact ⟨by simp [Pass.ranges]; omega, _, ⟨rest, hg, rfl⟩, tracked⟩
          · rw [recvPass_wrapped own hv hr mark.mark]
            have hroom : s.q.readOffset id + 8 < bound := mark.room
            exact ⟨by simp [Pass.ranges]; omega, g, rfl, T.pastMark own hg mark.next⟩

theorem OnePass.untracked (one : OnePass U h s t) (T : Tracked L P U size s lap front g) (hP : ¬ P h) :
    Tracked L P U size t lap front g := by
  have others : ∀ h', P h' → ∀ ahead : List Bytes, g h' = Function.update g h ahead h' := by
    intro h' hP' ahead
    rw [Function.update_of_ne]
    rintro rfl
    exact hP hP'
  cases one with
  | stay => exact T
  | register => exact (T.initSubscriber h).congr fun h' hP' => others h' hP' []
  | reset own => exact (T.resetReader own).congr fun h' hP' => others h' hP' []
  | move c o own => exact (T.setReadPointer own fun k => absurd k hP).congr fun h' hP' => others h' hP' []

theorem readyPass_tracked (T : Tracked L P U size s lap front g) :
    ∃ g', Tracked L P U size (readyPass U h s).2 lap front g' ∧
      g' = match (readyPass U h s).1 with
        | .evicted | .invalid => Function.update g h []
        | .unregistered | .answer _ => g := by
  unfold readyPass
  cases hid : (s.handle h).readerId with
  | none => exact ⟨g, T, rfl⟩
  | some id =>
      dsimp only
      by_cases huid : (s.handle h).readUidLocal = s.q.readUids id
      swap
      · rw [if_pos huid]
        exact ⟨_, T.initSubscriber h, rfl⟩
      rw [if_neg (not_not.mpr huid)]
      cases hv : s.q.readValids id with
      | false => exact ⟨_, T.resetReader ⟨hid, huid⟩, rfl⟩
      | true => exact ⟨g, T, rfl⟩

/-! A receive returns. -/

def Returns (U : UidSource) (size : Nat) (alloc : Bool) (h : Nat) (s : State) : Prop :=
  ∃ fuel r, msgRecv U size alloc h fuel s = some r

theorem returns_done {k : Pass} {t : State} (one : recvPass U size alloc h s = (k, t))
    (stop : k.again = false) : Returns U size alloc h s :=
  ⟨1, _, loop_done 0 one stop⟩

theorem returns_again {k : Pass} {t : State} (one : recvPass U size alloc h s = (k, t))
    (more : k.again = true) (rest : Returns U size alloc h t) : Returns U size alloc h s := by
  obtain ⟨fuel, ⟨ks, u⟩, run⟩ := rest
  exact ⟨fuel + 1, _, loop_again one more run⟩

theorem returns_empty (own : Owns s h id) (hv : s.q.readValids id = true)
    (hr : s.q.readOffset id = s.q.writeOffset) : Returns U size alloc h s :=
  returns_done (recvPass_empty own hv hr) rfl

/-- A record is delivered, refused for want of memory, or skipped with the rest to go. -/
theorem returns_record {m : Bytes} (own : Owns s h id) (hv : s.q.readValids id = true)
    (hr : s.q.readOffset id ≠ s.q.writeOffset) (hrec : RecordAt s.q.data (s.q.readOffset id) m)
    (hne : m ≠ []) (hdvd : 8 ∣ s.q.readOffset id)
    (hroom : s.q.readOffset id + span m.length + 8 ≤ size) (hsize : size < 0xFFFFFFFF)
    (rest : Returns U size alloc h (pastRecord s id m)) : Returns U size alloc h s := by
  have one := recvPass_record U alloc own hv hr hrec hne hdvd hroom hsize
  split_ifs at one
  · exact returns_again one rfl rest
  · exact returns_done one rfl
  · exact returns_done one rfl

theorem Tracked.returns_here (hsize : size < 0xFFFFFFFF) (reach : bound ≤ size + 1) {ahead : List Bytes}
    (T : Tracked L P U bound s lap front g) (own : Owns s h id) (hv : s.q.readValids id = true)
    (nonempty : ∀ m ∈ ahead, m ≠ [])
    (here : Here L (s.q.view bound lap front) (s.q.readCycles id) (s.q.readOffset id) ahead) :
    Returns U size alloc h s := by
  induction ahead generalizing s g with
  | nil => exact returns_empty own hv ((here.nil_iff T.ok).mp rfl)
  | cons m rest ih =>
      by_cases hr : s.q.readOffset id = s.q.writeOffset
      · exact returns_empty own hv hr
      obtain ⟨m', rest', same, reads, next⟩ := here.read T.ok hr
      obtain ⟨rfl, rfl⟩ := List.cons.inj same
      have hroom : s.q.readOffset id + span m.length + 8 < bound := reads.room
      refine returns_record own hv hr reads.record (nonempty m (by simp)) here.dvd (by omega) hsize ?_
      have tracked := T.pastRecord own (by omega) fun _ => Or.inl next
      refine ih tracked own hv (fun x hx => nonempty x (by simp [hx])) ?_
      rw [pastRecord_readCycles, pastRecord_readOffset (by omega)]
      exact next

theorem pastMark_position (s : State) (id : Nat) :
    (pastMark s id).q.readCycles id = nextCycle (s.q.readCycles id) ∧
      (pastMark s id).q.readOffset id = 0 := by
  have same : (pastMark s id).q.readPointers id = pack64 (nextCycle (s.q.readCycles id)) 0 :=
    Function.update_self _ _ _
  rw [Queue.readCycles, Queue.readOffset, same]
  exact ⟨unpack64_pack64_fst (nextCycle_lt _), unpack64_pack64_snd (by omega)⟩

theorem Tracked.returns_mark (hsize : size < 0xFFFFFFFF) (reach : bound ≤ size + 1)
    (T : Tracked L P U bound s lap front g) (own : Owns s h id) (hv : s.q.readValids id = true) (hr : s.q.readOffset id ≠ s.q.writeOffset)
    (hg : g h = lap) (nonempty : ∀ m ∈ g h, m ≠ [])
    (mark : ReadsMark L (s.q.view bound lap front) (s.q.readCycles id) (s.q.readOffset id)) :
    Returns U size alloc h s := by
  obtain ⟨hc, ho⟩ := pastMark_position s id
  have here : Here L ((Msgq.pastMark s id).q.view bound lap front) ((Msgq.pastMark s id).q.readCycles id)
      ((Msgq.pastMark s id).q.readOffset id) lap := by
    rw [hc, ho]
    exact mark.next
  exact returns_again (recvPass_wrapped own hv hr mark.mark) rfl
    ((T.pastMark own hg mark.next).returns_here hsize reach own hv (hg ▸ nonempty) here)

theorem Tracked.returns_back (hsize : size < 0xFFFFFFFF) (reach : bound ≤ size + 1) {ahead : List Bytes}
    (T : Tracked L P U bound s lap front g) (own : Owns s h id) (hv : s.q.readValids id = true)
    (hg : g h = ahead) (nonempty : ∀ m ∈ ahead, m ≠ [])
    (back : Back L (s.q.view bound lap front) (s.q.readCycles id) (s.q.readOffset id) ahead) :
    Returns U size alloc h s := by
  induction ahead generalizing s g with
  | nil =>
      by_cases hr : s.q.readOffset id = s.q.writeOffset
      · exact returns_empty own hv hr
      rcases back.read with ⟨m, rest, same, -⟩ | ⟨hlap, mark⟩
      · cases same
      · exact T.returns_mark hsize reach own hv hr (hg.trans hlap) (hg ▸ nonempty) mark
  | cons m rest ih =>
      by_cases hr : s.q.readOffset id = s.q.writeOffset
      · exact returns_empty own hv hr
      rcases back.read with ⟨m', rest', same, reads, next⟩ | ⟨hlap, mark⟩
      · obtain ⟨rfl, rfl⟩ := List.cons.inj same
        have hroom : s.q.readOffset id + span m.length + 8 < bound := reads.room
        refine returns_record own hv hr reads.record (nonempty m (by simp)) back.2.2.1 (by omega) hsize ?_
        have tracked := T.pastRecord own (by omega) fun _ => Or.inr next
        refine ih tracked own hv (Function.update_self _ _ _) (fun x hx => nonempty x (by simp [hx])) ?_
        rw [pastRecord_readCycles, pastRecord_readOffset (by omega)]
        exact next
      · exact T.returns_mark hsize reach own hv hr (hg.trans hlap) (hg ▸ nonempty) mark

theorem Tracked.returns_valid (hsize : size < 0xFFFFFFFF) (reach : bound ≤ size + 1)
    (T : Tracked L P U bound s lap front g) (hP : P h) (own : Owns s h id) (hv : s.q.readValids id = true) (nonempty : ∀ m ∈ g h, m ≠ []) :
    Returns U size alloc h s := by
  rcases T.at_slot h id hP own hv with here | back
  · exact T.returns_here hsize reach own hv nonempty here
  · exact T.returns_back hsize reach own hv rfl nonempty back

/-- Every receive in a tracked state returns: it registers again at most once,
resets at most once and follows at most one wrap tag. -/
theorem Tracked.returns (alloc : Bool) (hsize : size < 0xFFFFFFFF) (reach : bound ≤ size + 1)
    (T : Tracked L P U bound s lap front g) (hP : P h) (nonempty : ∀ m ∈ g h, m ≠ []) : Returns U size alloc h s := by
  cases hid : (s.handle h).readerId with
  | none => exact returns_done (recvPass_unregistered hid) rfl
  | some id =>
      by_cases huid : (s.handle h).readUidLocal = s.q.readUids id
      swap
      · apply returns_again (recvPass_evicted hid huid) rfl
        exact (T.initSubscriber h).returns_valid hsize reach hP (initSubscriber_owns s h)
          (initSubscriber_slot s h).2.1 (by simp)
      have own : Owns s h id := ⟨hid, huid⟩
      cases hv : s.q.readValids id with
      | true => exact T.returns_valid hsize reach hP own hv nonempty
      | false =>
          apply returns_again (recvPass_invalid own hv) rfl
          exact (T.resetReader own).returns_valid hsize reach hP own (Function.update_self _ _ _) (by simp)

/-- A handle that never registered gets no further than the assertion. -/
theorem recv_unregistered {fuel : Nat} {passes : List Pass} {t : State} (hid : (s.handle h).readerId = none)
    (run : msgRecv U size alloc h fuel s = some (passes, t)) : passes = [.unregistered] ∧ t = s := by
  have same := loop_unique run (loop_done 0 (recvPass_unregistered hid) rfl)
  exact Prod.mk.inj same

/-- Only a starting publisher changes who publishes. -/
theorem step_isPublisher {G : Segment} {t : State} {e : Event} (step : Step U G s e t) (other : ∀ h, e ≠ .initPublisher h) (h : Nat) :
    isPublisher t.q (t.handle h) = isPublisher s.q (s.handle h) := by
  have quiet : ∀ {u : State}, Quiet s u → isPublisher u.q (u.handle h) = isPublisher s.q (s.handle h) := by
    intro u k
    rw [isPublisher, isPublisher, k.writeUid, k.writeUidLocal]
  cases step with
  | initPublisher h' => exact absurd rfl (other h')
  | initSubscriber h' => exact quiet (quiet_initSubscriber s h')
  | refused | aborted => rfl
  | recv run => exact quiet (quiet_recv run)
  | ready run => exact quiet (quiet_ready run)
  | sent accepted =>
      obtain ⟨-, rfl, -⟩ := msgSend_sent accepted
      rw [isPublisher, isPublisher]
      exact congrArg _ (congrArg some (sameRegistry_sendQueue G.size s _).writeUid)

end calls

end Msgq
