import Msgq.Position
import Msgq.Registry

/-! What send does to the ring. Its stores come in stretches: the wrap tag and
the invalidations of the wrap branch, the wrapped write pointer, the
invalidations of the area, the record, the final write pointer. Each stretch is
one move of the writer's view. -/
namespace Msgq
open ByteMemory FramedRecords

/-- The writer's view of a segment. -/
def Queue.view (q : Queue) (size : Nat) (lap : List Bytes) (front : Nat) : View where
  data := q.data
  size := size
  cycles := q.writeCycles
  off := q.writeOffset
  lap := lap
  front := front

/-- A message that is not empty and whose record leaves room for a wrap tag. -/
def Fits (size : Nat) (m : Bytes) : Prop := m ≠ [] ∧ 3 * span m.length ≤ size

section stores
variable {q : Queue}

theorem applyAll_append (q : Queue) (xs ys : List Store) :
    Store.applyAll q (xs ++ ys) = Store.applyAll (Store.applyAll q xs) ys := List.foldl_append

@[simp] theorem applyAll_cons (q : Queue) (x : Store) (xs : List Store) :
    Store.applyAll q (x :: xs) = Store.applyAll (Store.apply q x) xs := rfl

@[simp] theorem applyAll_nil (q : Queue) : Store.applyAll q [] = q := rfl

/-- No store changes who publishes. -/
theorem applyAll_writeUid (q : Queue) (stores : List Store) :
    (Store.applyAll q stores).writeUid = q.writeUid := by
  induction stores generalizing q with
  | nil => rfl
  | cons x xs ih =>
      rw [applyAll_cons, ih]
      cases x <;> rfl

/-- The queue with the flags of the listed slots cleared. -/
def clearFlags (q : Queue) (is : List Nat) : Queue :=
  { q with readValids := fun i => q.readValids i && !decide (i ∈ is) }

theorem applyAll_invalidate (q : Queue) (is : List Nat) :
    Store.applyAll q (is.map .invalidate) = clearFlags q is := by
  induction is generalizing q with
  | nil => simp [clearFlags]
  | cons i is ih =>
      rw [List.map_cons, applyAll_cons, ih]
      unfold clearFlags Store.apply
      congr 1
      funext j
      by_cases hj : j = i
      · subst hj
        simp
      · simp [hj]

theorem applyAll_invalidations (q p : Queue) (test : Nat → Bool) :
    Store.applyAll q (invalidations p test) =
      clearFlags q ((List.range p.numReaders).filter test) := applyAll_invalidate q _

/-- The first pieces of the payload copy write a prefix of the payload. -/
theorem applyAll_pieces (q : Queue) (p : Nat) (msg : Bytes) {k : Nat}
    (hk : k ≤ pieceCount msg.length) :
    Store.applyAll q ((List.range k).map fun j => .piece (piece p msg j).1 (piece p msg j).2) =
      { q with data := writeBytes q.data p (msg.take (8 * k)) } := by
  induction k with
  | zero => simp
  | succ k ih =>
      rw [List.range_succ, List.map_append, applyAll_append, ih (by omega)]
      simp only [List.map_cons, List.map_nil, applyAll_cons, applyAll_nil, Store.apply]
      rw [writeBytes_piece _ _ _ _ hk]

theorem applyAll_payload (q : Queue) (p : Nat) (msg : Bytes) :
    Store.applyAll q (payloadStores p msg) = { q with data := writeBytes q.data p msg } := by
  rw [payloadStores, applyAll_pieces q p msg (le_refl _), take_pieceCount]

end stores

/-! The two halves of a send as single updates. -/

/-- The state behind the wrap branch. -/
def wrapQueue (q : Queue) : Queue :=
  { clearFlags q ((List.range q.numReaders).filter (beyondWriter q q.writeCycles q.writeOffset)) with
    data := storeWord q.data q.writeOffset (-1)
    writePointer := pack64 (nextCycle q.writeCycles) 0 }

/-- The state behind the record half, for a record at `w` in cycle `c`. -/
def recordQueue (q : Queue) (c w : Nat) (msg : Bytes) : Queue :=
  { clearFlags q ((List.range q.numReaders).filter
      (inArea q c w (align (w + 8 + msg.length)))) with
    data := writeRecord q.data w msg
    writePointer := pack64 c (align (w + msg.length + 8) % 2 ^ 32) }

theorem applyAll_wrapStores (q : Queue) : Store.applyAll q (wrapStores q) = wrapQueue q := by
  rw [wrapStores, applyAll_cons, applyAll_append, applyAll_invalidations]
  rfl

theorem applyAll_recordStores (q p : Queue) (c w : Nat) (msg : Bytes)
    (hn : p.numReaders = q.numReaders) (hp : p.readPointers = q.readPointers) :
    Store.applyAll q (recordStores p c w msg) = recordQueue q c w msg := by
  have htest : inArea p c w (align (w + 8 + msg.length)) = inArea q c w (align (w + 8 + msg.length)) := by
    funext i
    rw [inArea, inArea, Queue.readOffset, Queue.readCycles, hp]
    rfl
  rw [recordStores, applyAll_append, applyAll_invalidations, applyAll_cons, applyAll_append,
    applyAll_payload, hn, htest]
  rfl

theorem beyondWriter_iff {q : Queue} {c w i : Nat} :
    beyondWriter q c w i = true ↔ w < q.readOffset i ∧ q.readCycles i ≠ c := by
  rw [beyondWriter, Bool.and_eq_true, decide_eq_true_iff, bne_iff_ne]

theorem inArea_iff {q : Queue} {c start stop i : Nat} : inArea q c start stop i = true ↔
    start ≤ q.readOffset i ∧ q.readOffset i < stop ∧ q.readCycles i ≠ c := by
  rw [inArea, Bool.and_eq_true, Bool.and_eq_true, decide_eq_true_iff, decide_eq_true_iff, bne_iff_ne,
    and_assoc]

/-- Clearing the flags of the slots that meet a test leaves the others set. -/
theorem clearFlags_filter {q : Queue} {test : Nat → Bool} {n i : Nat} (hi : i < n) :
    (clearFlags q ((List.range n).filter test)).readValids i = true ↔
      q.readValids i = true ∧ ¬ test i = true := by
  simp [clearFlags, hi]

theorem wrapQueue_readValids {q : Queue} {i : Nat} (hi : i < q.numReaders) :
    (wrapQueue q).readValids i = true ↔
      q.readValids i = true ∧ ¬ beyondWriter q q.writeCycles q.writeOffset i = true :=
  clearFlags_filter hi

theorem recordQueue_readValids {q : Queue} {c w i : Nat} {msg : Bytes} (hi : i < q.numReaders) :
    (recordQueue q c w msg).readValids i = true ↔
      q.readValids i = true ∧ ¬ inArea q c w (align (w + 8 + msg.length)) i = true :=
  clearFlags_filter hi

/-- The cycle and offset the record of a send goes to. -/
def recordCycles (size : Nat) (q : Queue) (n : Nat) : Nat :=
  if mustWrap size q n then nextCycle q.writeCycles else q.writeCycles

def recordOffset (size : Nat) (q : Queue) (n : Nat) : Nat :=
  if mustWrap size q n then 0 else q.writeOffset

/-- A whole send as one update. -/
def sendQueue (size : Nat) (q : Queue) (msg : Bytes) : Queue :=
  recordQueue (if mustWrap size q msg.length then wrapQueue q else q)
    (recordCycles size q msg.length) (recordOffset size q msg.length) msg

theorem applyAll_sendStores (size : Nat) (q : Queue) (msg : Bytes) :
    Store.applyAll q (sendStores size q msg) = sendQueue size q msg := by
  unfold sendStores sendQueue recordCycles recordOffset
  split_ifs with hw
  · rw [applyAll_append, applyAll_wrapStores]
    exact applyAll_recordStores _ _ _ _ _ rfl rfl
  · exact applyAll_recordStores _ _ _ _ _ rfl rfl

@[simp] theorem sendQueue_readPointers (size : Nat) (q : Queue) (msg : Bytes) :
    (sendQueue size q msg).readPointers = q.readPointers := by
  unfold sendQueue
  split_ifs <;> rfl

/-- An accepted send, of whatever length. -/
theorem msgSend_accepted {size : Nat} {q q' : Queue} {H : Handle} {msg : Bytes} {ret : Int}
    {signalled : List Nat} (h : msgSend size q H msg = .sent q' ret signalled) :
    isPublisher q H = true ∧ admits size msg.length = true ∧ q' = sendQueue size q msg ∧ ret = toInt msg.length := by
  unfold msgSend at h
  split_ifs at h with hpub hadm
  cases h
  exact ⟨by simpa using hpub, by simpa using hadm, applyAll_sendStores size q msg, rfl⟩

theorem msgSend_sent {size : Nat} {q q' : Queue} {H : Handle} {m : Msg} {ret : Int}
    {signalled : List Nat} (h : msgSend size q H m.data = .sent q' ret signalled) :
    isPublisher q H = true ∧ q' = sendQueue size q m.data ∧ Fits size m.data := by
  obtain ⟨publishes, admitted, same, -⟩ := msgSend_accepted h
  exact ⟨publishes, same, m.nonempty, (admits_real m.real).mp admitted⟩

/-! A record of at most a third of the ring, empty or not. -/

section thirds
variable {size n : Nat} {q : Queue} {msg : Bytes}

theorem writeOffset_lt (q : Queue) : q.writeOffset < 2 ^ 32 := unpack64_snd_lt _

theorem real_of_third (hsize : size < 0xFFFFFFFF) (third : 3 * span n ≤ size) : Real n := by
  have := le_span n
  unfold Real
  omega

/-- The signed remaining-space test says exactly that no wrap tag would fit behind the record. -/
theorem mustWrap_iff_third (hsize : size < 0xFFFFFFFF) (third : 3 * span n ≤ size) :
    mustWrap size q n = true ↔ size ≤ q.writeOffset + span n + 8 := by
  rw [mustWrap, decide_eq_true_iff, totalMsgSize_real (real_of_third hsize third),
    remainingSpace_exact (by omega) (writeOffset_lt q) (by omega)]
  omega

theorem record_room_third (hsize : size < 0xFFFFFFFF) (third : 3 * span n ≤ size) :
    recordOffset size q n + span n + 8 < size := by
  unfold recordOffset
  split_ifs with hw
  · have := le_span n
    have : 8 ∣ span n := span_dvd n
    omega
  · have := mt (mustWrap_iff_third hsize third).mpr hw
    omega

theorem sendQueue_writeOffset_third (hsize : size < 0xFFFFFFFF) (aligned : 8 ∣ recordOffset size q msg.length)
    (third : 3 * span msg.length ≤ size) :
    (sendQueue size q msg).writeOffset = recordOffset size q msg.length + span msg.length := by
  have hroom := record_room_third (q := q) hsize third
  have hcomm : recordOffset size q msg.length + msg.length + 8 =
      recordOffset size q msg.length + 8 + msg.length := by omega
  have hlt : recordOffset size q msg.length + span msg.length < 2 ^ 32 := by omega
  change (unpack64 (pack64 _ (align (recordOffset size q msg.length + msg.length + 8) % 2 ^ 32))).2 = _
  rw [hcomm, align_record aligned (by omega) (real_of_third hsize third), Nat.mod_eq_of_lt hlt,
    unpack64_pack64_snd hlt]

end thirds

/-! The same update on the writer's view. -/

section views
variable {size bound : Nat} {q : Queue} {lap : List Bytes} {front : Nat} {m : Bytes}

theorem Fits.real (hsize : size < 0xFFFFFFFF) (fits : Fits size m) : Real m.length :=
  real_of_third hsize fits.2

theorem Fits.span_ge (fits : Fits size m) : 16 ≤ span m.length :=
  span_of_pos (List.length_pos_iff.mpr fits.1)

/-- The size of a message that fits is positive as an `int`, too. -/
theorem Fits.positive (hsize : size < 0xFFFFFFFF) (fits : Fits size m) : 0 < toInt m.length := by
  have length := List.length_pos_iff.mpr fits.1
  have small := fits.2
  have hspan := le_span m.length
  rw [toInt, if_pos (by omega)]
  omega

theorem writeCycles_lt (q : Queue) : q.writeCycles < 2 ^ 32 := unpack64_fst_lt _

theorem readCycles_lt (q : Queue) (i : Nat) : q.readCycles i < 2 ^ 32 := unpack64_fst_lt _

theorem mustWrap_iff (hsize : size < 0xFFFFFFFF) (fits : Fits size m) :
    mustWrap size q m.length = true ↔ size ≤ q.writeOffset + span m.length + 8 :=
  mustWrap_iff_third hsize fits.2

/-- A wrap happens well behind the start: the record at the start cannot reach the tag. -/
theorem mustWrap_offset (hsize : size < 0xFFFFFFFF) (fits : Fits size m)
    (hw : mustWrap size q m.length = true) : span m.length < q.writeOffset := by
  have := (mustWrap_iff hsize fits).mp hw
  have := fits.span_ge
  have := fits.2
  omega

theorem record_room (hsize : size < 0xFFFFFFFF) (fits : Fits size m) :
    recordOffset size q m.length + span m.length + 8 < size := record_room_third hsize fits.2

theorem base_off (lap : List Bytes) (front : Nat) : ((q.view bound lap front).base (mustWrap size q m.length)).off =
    recordOffset size q m.length := by
  unfold View.base recordOffset
  split_ifs <;> rfl

theorem recordOffset_dvd (ok : (q.view bound lap front).Ok) : 8 ∣ recordOffset size q m.length := by
  rw [← base_off lap front]
  exact (ok.base _).dvd

theorem recordCycles_lt : recordCycles size q m.length < 2 ^ 32 := by
  unfold recordCycles
  split_ifs
  · exact nextCycle_lt _
  · exact writeCycles_lt q

theorem sendQueue_writeCycles : (sendQueue size q m).writeCycles = recordCycles size q m.length :=
  unpack64_pack64_fst recordCycles_lt

theorem record_stop (hsize : size < 0xFFFFFFFF) (ok : (q.view bound lap front).Ok) (fits : Fits size m) :
    align (recordOffset size q m.length + 8 + m.length) =
      recordOffset size q m.length + span m.length := by
  have hroom := record_room (q := q) hsize fits
  exact align_record (recordOffset_dvd ok) (by omega) (fits.real hsize)

theorem sendQueue_writeOffset (hsize : size < 0xFFFFFFFF) (ok : (q.view bound lap front).Ok)
    (fits : Fits size m) :
    (sendQueue size q m).writeOffset = recordOffset size q m.length + span m.length :=
  sendQueue_writeOffset_third hsize (recordOffset_dvd ok) fits.2

theorem sendQueue_view (hsize : size < 0xFFFFFFFF) (ok : (q.view bound lap front).Ok)
    (fits : Fits size m) :
    (sendQueue size q m).view bound (sentLap (mustWrap size q m.length) lap m)
        (sendQueue size q m).writeOffset =
      (q.view bound lap front).send (mustWrap size q m.length) m := by
  unfold Queue.view
  rw [sendQueue_writeCycles, sendQueue_writeOffset hsize ok fits]
  unfold View.send View.base sendQueue recordQueue recordOffset recordCycles sentLap
  cases mustWrap size q m.length <;> rfl

/-- The flag of an inspected slot survives a send exactly when neither test hits it. -/
theorem sendQueue_readValids (hsize : size < 0xFFFFFFFF) (ok : (q.view bound lap front).Ok)
    (fits : Fits size m) {i : Nat} (hi : i < q.numReaders) :
    (sendQueue size q m).readValids i = true ↔ q.readValids i = true ∧
      (mustWrap size q m.length = true →
        ¬ (q.writeOffset < q.readOffset i ∧ q.readCycles i ≠ q.writeCycles)) ∧
      ¬ (recordOffset size q m.length ≤ q.readOffset i ∧
        q.readOffset i < recordOffset size q m.length + span m.length ∧
        q.readCycles i ≠ recordCycles size q m.length) := by
  rw [← record_stop hsize ok fits, ← inArea_iff]
  cases hw : mustWrap size q m.length with
  | true =>
      have hq : sendQueue size q m = recordQueue (wrapQueue q) (recordCycles size q m.length)
          (recordOffset size q m.length) m := by simp [sendQueue, hw]
      have harea : inArea (wrapQueue q) = inArea q := rfl
      rw [hq, recordQueue_readValids (show i < (wrapQueue q).numReaders from hi),
        wrapQueue_readValids hi, harea, and_assoc, ← beyondWriter_iff]
      simp
  | false =>
      have hq : sendQueue size q m = recordQueue q (recordCycles size q m.length)
          (recordOffset size q m.length) m := by simp [sendQueue, hw]
      rw [hq, recordQueue_readValids hi]
      simp

end views

end Msgq
