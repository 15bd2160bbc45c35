import Msgq.Fields
import Msgq.Tracking

/-! The shared file as the bytes it is. A handle reaches the header through
pointers to its words and the ring through `q->data`; every call is loads and
stores of 64-bit words, and copies into the ring, in program order. -/
namespace Msgq
open ByteMemory WordFields FramedRecords Traces

/-- The words of `msgq_header_t`. -/
inductive HeaderField
  | numReaders
  | writePointer
  | writeUid
  | readPointers (i : Nat)
  | readValids (i : Nat)
  | readUids (i : Nat)
  deriving DecidableEq

def HeaderField.exists : HeaderField → Prop
  | .numReaders | .writePointer | .writeUid => True
  | .readPointers i | .readValids i | .readUids i => i < NUM_READERS

def HeaderField.offset : HeaderField → Nat
  | .numReaders => 0
  | .writePointer => 8
  | .writeUid => 16
  | .readPointers i => 24 + 8 * i
  | .readValids i => 24 + 8 * NUM_READERS + 8 * i
  | .readUids i => 24 + 8 * NUM_READERS + 8 * NUM_READERS + 8 * i

def sizeofHeader : Nat := 24 + 3 * (8 * NUM_READERS)

def header : Layout HeaderField where
  field := HeaderField.exists
  offset := HeaderField.offset
  size := sizeofHeader
  inside i hi := by
    cases i <;> simp only [HeaderField.exists, HeaderField.offset, sizeofHeader, NUM_READERS] at hi ⊢ <;> omega
  apart i j hi hj ne := by
    cases i <;> cases j <;>
      simp only [HeaderField.exists, HeaderField.offset, NUM_READERS, ne_eq, HeaderField.readPointers.injEq,
        HeaderField.readValids.injEq, HeaderField.readUids.injEq, not_true_eq_false] at hi hj ne ⊢ <;> omega

/-- The mapped file, the handles on it and the uids drawn. -/
structure MappedState where
  mem : Memory
  handle : Nat → Handle
  drawn : Nat

namespace MappedState

def setMem (s : MappedState) (mem : Memory) : MappedState := { s with mem }

/-- A file that `ftruncate` has just made long enough. -/
def fresh (conflate : Nat → Bool) : MappedState where
  mem := fun _ => 0
  handle h := { readConflate := conflate h }
  drawn := 0

end MappedState

namespace Mapped

/-- The memory from `q->data` on. -/
def data (mem : Memory) : Memory := header.tail mem

/-- A flag is any nonzero word. -/
def valid (mem : Memory) (id : Nat) : Bool := header.load mem (.readValids id) != 0

def resetReader (mem : Memory) (id : Nat) : Memory :=
  let mem := header.store mem (.readValids id) 1
  header.store mem (.readPointers id) (header.load mem .writePointer)

/-- The loop over all slots that both init functions have. -/
def clearSlots (mem : Memory) : Memory :=
  (List.range NUM_READERS).foldl
    (fun mem i => header.store (header.store mem (.readValids i) 0) (.readUids i) 0) mem

def initPublisher (U : UidSource) (s : MappedState) (h : Nat) : MappedState :=
  let uid := U.draw s.drawn
  let mem := header.store s.mem .writeUid uid
  let mem := header.store mem .numReaders 0
  { mem := clearSlots mem
    handle := Function.update s.handle h { s.handle h with writeUidLocal := some uid }
    drawn := s.drawn + 1 }

/-- No slot is left: all subscribers are evicted. -/
def evictAll (mem : Memory) : Memory := clearSlots (header.store mem .numReaders 0)

def initSubscriber (U : UidSource) (s : MappedState) (h : Nat) : MappedState :=
  let uid := U.draw s.drawn
  let mem := if NUM_READERS < header.load s.mem .numReaders + 1 then evictAll s.mem else s.mem
  let id := header.load mem .numReaders
  let mem := header.store mem .numReaders (id + 1)
  let mem := header.store mem (.readValids id) 0
  let mem := header.store mem (.readPointers id) 0
  let mem := header.store mem (.readUids id) uid
  { mem := resetReader mem id
    handle := Function.update s.handle h { s.handle h with readerId := some id, readUidLocal := uid }
    drawn := s.drawn + 1 }

/-- One of the two loops of send: the flag of every slot whose pointer meets the test. -/
def invalidate (test : Nat → Nat → Bool) (mem : Memory) (slots : List Nat) : Memory :=
  slots.foldl (fun mem i =>
    let (readCycles, readPointer) := unpack64 (header.load mem (.readPointers i))
    if test readCycles readPointer then header.store mem (.readValids i) 0 else mem) mem

def storeTag (mem : Memory) (p : Nat) (v : Int) : Memory := header.writeTail mem p (bytesOf 8 (toU64 v))

/-- No room for the record and a wrap tag behind the write pointer. -/
def mustWrap (size : Nat) (mem : Memory) (n : Nat) : Bool :=
  remainingSpace size (unpack64 (header.load mem .writePointer)).2 (totalMsgSize n) ≤ 0

/-- The wrap branch. -/
def wrap (mem : Memory) (numReaders : Nat) : Memory :=
  let (writeCycles, writePointer) := unpack64 (header.load mem .writePointer)
  let mem := storeTag mem writePointer (-1)
  let mem := invalidate (fun readCycles readPointer => readPointer > writePointer && readCycles != writeCycles) mem
    (List.range numReaders)
  header.store mem .writePointer (pack64 (nextCycle writeCycles) 0)

/-- From the second loop to the final write pointer. -/
def record (mem : Memory) (numReaders writeCycles writePointer : Nat) (msg : Bytes) : Memory :=
  let stop := align (writePointer + 8 + msg.length)
  let mem := invalidate (fun readCycles readPointer =>
    writePointer ≤ readPointer && readPointer < stop && readCycles != writeCycles) mem (List.range numReaders)
  let mem := storeTag mem writePointer msg.length
  let mem := header.writeTail mem (writePointer + 8) msg
  header.store mem .writePointer (pack64 writeCycles (align (writePointer + msg.length + 8) % 2 ^ 32))

/-- All stores of an accepted send. -/
def send (size : Nat) (mem : Memory) (msg : Bytes) : Memory :=
  let numReaders := header.load mem .numReaders
  let (writeCycles, writePointer) := unpack64 (header.load mem .writePointer)
  if mustWrap size mem msg.length then record (wrap mem numReaders) numReaders (nextCycle writeCycles) 0 msg
  else record mem numReaders writeCycles writePointer msg

inductive SendResult
  | refused
  | aborted
  | sent (mem : Memory) (ret : Int) (signalled : List Nat)

def msgSend (size : Nat) (mem : Memory) (H : Handle) (msg : Bytes) : SendResult :=
  if H.writeUidLocal ≠ some (header.load mem .writeUid) then .refused
  else if !admits size msg.length then .aborted
  else
    let numReaders := header.load mem .numReaders
    let mem := send size mem msg
    .sent mem (toInt msg.length) ((List.range numReaders).map fun i => header.load mem (.readUids i) % 2 ^ 32)

def recvPass (U : UidSource) (size : Nat) (alloc : Bool) (h : Nat) (s : MappedState) : Pass × MappedState :=
  match (s.handle h).readerId with
  | none => (.unregistered, s)
  | some id =>
    if (s.handle h).readUidLocal ≠ header.load s.mem (.readUids id) then (.evicted, initSubscriber U s h)
    else if !valid s.mem id then (.invalid, s.setMem (resetReader s.mem id))
    else
      let readCycles := (unpack64 (header.load s.mem (.readPointers id))).1
      let readPointer := (unpack64 (header.load s.mem (.readPointers id))).2
      let writePointer := (unpack64 (header.load s.mem .writePointer)).2
      if readPointer = writePointer then (.empty, s)
      else
        let n := loadWord (data s.mem) readPointer
        if !valid s.mem id then (.lapped readPointer, s.setMem (resetReader s.mem id))
        else if n = -1 then
          (.wrapped readPointer,
            s.setMem (header.store s.mem (.readPointers id) (pack64 (nextCycle readCycles) 0)))
        else if !(toU64 n < size && 0 < n) then (.garbage readPointer, s)
        else
          let newReadPointer := align (readPointer + 8 + n.toNat) % 2 ^ 32
          let mem := header.store s.mem (.readPointers id) (pack64 readCycles newReadPointer)
          if (s.handle h).readConflate && newReadPointer != writePointer then
            (.skipped readPointer n.toNat, s.setMem mem)
          else if !alloc then (.noMemory readPointer, s)
          else
            let msg := readBytes (data s.mem) (readPointer + 8) n.toNat
            if !valid mem id then (.torn readPointer n.toNat, s.setMem (resetReader mem id))
            else (.message readPointer msg, s.setMem mem)

def msgRecv (U : UidSource) (size : Nat) (alloc : Bool) (h fuel : Nat) (s : MappedState) :
    Option (List Pass × MappedState) := loop (recvPass U size alloc h) Pass.again fuel s

def readyPass (U : UidSource) (h : Nat) (s : MappedState) : ReadyPass × MappedState :=
  match (s.handle h).readerId with
  | none => (.unregistered, s)
  | some id =>
    if (s.handle h).readUidLocal ≠ header.load s.mem (.readUids id) then (.evicted, initSubscriber U s h)
    else if !valid s.mem id then (.invalid, s.setMem (resetReader s.mem id))
    else
      (.answer ((unpack64 (header.load s.mem (.readPointers id))).2 !=
        (unpack64 (header.load s.mem .writePointer)).2), s)

def msgReady (U : UidSource) (h fuel : Nat) (s : MappedState) : Option (List ReadyPass × MappedState) :=
  loop (readyPass U h) ReadyPass.again fuel s

/-- One call on the bytes. -/
inductive Step (U : UidSource) (G : Segment) : MappedState → Event → MappedState → Prop
  | initPublisher (s h) : Step U G s (.initPublisher h) (initPublisher U s h)
  | initSubscriber (s h) : Step U G s
      (.initSubscriber h (decide (NUM_READERS < header.load s.mem .numReaders + 1))) (initSubscriber U s h)
  | sent {s h m mem ret signalled} : msgSend G.size s.mem (s.handle h) m.data = .sent mem ret signalled →
      Step U G s (.sent h m (mustWrap G.size s.mem m.data.length)) (s.setMem mem)
  | refused {s h m} : msgSend G.size s.mem (s.handle h) m.data = .refused → Step U G s (.refused h m) s
  | aborted {s h m} : msgSend G.size s.mem (s.handle h) m.data = .aborted → Step U G s (.aborted h m) s
  | recv {s h alloc fuel passes t} : msgRecv U G.size alloc h fuel s = some (passes, t) →
      Step U G s (.recv h passes) t
  | ready {s h fuel passes t} : msgReady U h fuel s = some (passes, t) → Step U G s (.ready h passes) t

end Mapped

/-! What the header words show. -/

attribute [ext] Queue

/-- One word of a queue set. -/
def Queue.set (q : Queue) : HeaderField → Nat → Queue
  | .numReaders, v => { q with numReaders := v }
  | .writePointer, v => { q with writePointer := v }
  | .writeUid, v => { q with writeUid := v }
  | .readPointers i, v => { q with readPointers := Function.update q.readPointers i v }
  | .readValids i, v => { q with readValids := Function.update q.readValids i (v != 0) }
  | .readUids i, v => { q with readUids := Function.update q.readUids i v }

/-- The queue that the bytes of a file stand for. -/
def Mapped.queue (mem : Memory) : Queue where
  numReaders := header.load mem .numReaders
  writePointer := header.load mem .writePointer
  writeUid := header.load mem .writeUid
  readPointers i := if i < NUM_READERS then header.load mem (.readPointers i) else 0
  readValids i := if i < NUM_READERS then header.load mem (.readValids i) != 0 else false
  readUids i := if i < NUM_READERS then header.load mem (.readUids i) else 0
  data := header.tail mem

def MappedState.state (s : MappedState) : State := ⟨Mapped.queue s.mem, s.handle, s.drawn⟩

namespace Mapped

/-- Nothing changes behind the file. -/
def Beyond (size : Nat) (mem mem' : Memory) : Prop := ∀ a, sizeofHeader + size ≤ a → mem' a = mem a

section words
variable {mem : Memory} {v id n size : Nat}

theorem Beyond.rfl : Beyond size mem mem := fun _ _ => Eq.refl _

theorem Beyond.trans {mem' mem'' : Memory} (x : Beyond size mem mem') (y : Beyond size mem' mem'') :
    Beyond size mem mem'' := fun a h => (y a h).trans (x a h)

theorem Beyond.store {f : HeaderField} (there : f.exists) : Beyond size mem (header.store mem f v) :=
  fun _ beyond => Layout.store_beyond there (Nat.le_add_right _ _) beyond

theorem Beyond.writeTail {p : Nat} {bs : Bytes} (inside : p + bs.length ≤ size) :
    Beyond size mem (header.writeTail mem p bs) := by
  intro a beyond
  apply Layout.writeTail_beyond
  change sizeofHeader + p + bs.length ≤ a
  omega

/-- A store is seen in its own word only. -/
theorem queue_store (f : HeaderField) (there : f.exists) (word : v < 2 ^ 64) :
    queue (header.store mem f v) = (queue mem).set f v := by
  have load : ∀ j : HeaderField, j.exists →
      header.load (header.store mem f v) j = Function.update (header.load mem) f v j :=
    fun j hj => Layout.load_store there hj word
  have tail := Layout.tail_store (L := header) there mem v
  have slot : ∀ name : Nat → HeaderField, (∀ i, (name i).exists ↔ i < NUM_READERS) → ∀ i < NUM_READERS,
      header.load (header.store mem f v) (name i) = Function.update (header.load mem) f v (name i) :=
    fun name range i inside => load (name i) ((range i).mpr inside)
  ext i : 2
  all_goals simp only [queue, load .numReaders trivial, load .writePointer trivial, load .writeUid trivial, tail]
  · cases f <;> rfl
  · cases f <;> rfl
  · cases f <;> rfl
  case data => cases f <;> rfl
  all_goals
    by_cases inside : i < NUM_READERS
    · simp only [inside, if_true, slot .readPointers (fun _ => Iff.rfl) i inside,
        slot .readValids (fun _ => Iff.rfl) i inside, slot .readUids (fun _ => Iff.rfl) i inside]
      cases f <;> simp [Queue.set, Function.update_apply, inside, apply_ite (· != 0)]
    · cases f <;> simp [Queue.set, Function.update_apply, inside]
      all_goals
        rintro rfl
        exact absurd there inside

theorem queue_writeTail (mem : Memory) (p : Nat) (bs : Bytes) :
    queue (header.writeTail mem p bs) = { queue mem with data := writeBytes (queue mem).data p bs } := by
  have load : ∀ f : HeaderField, f.exists → header.load (header.writeTail mem p bs) f = header.load mem f :=
    fun f there => Layout.load_writeTail there mem p bs
  ext i : 2
  case data => exact congrFun (Layout.tail_writeTail mem p bs) i
  case numReaders | writePointer | writeUid => exact load _ trivial
  all_goals
    by_cases inside : i < NUM_READERS
    · simp only [queue, inside, if_true, load (.readPointers i) inside, load (.readValids i) inside,
        load (.readUids i) inside]
    · simp only [queue, inside, if_false]

theorem queue_storeTag (mem : Memory) (p : Nat) (v : Int) :
    queue (storeTag mem p v) = { queue mem with data := storeWord (queue mem).data p v } :=
  queue_writeTail mem p _

/-! Reads of the words. -/

theorem load_numReaders : header.load mem .numReaders = (queue mem).numReaders := rfl

theorem load_writePointer : header.load mem .writePointer = (queue mem).writePointer := rfl

theorem load_writeUid : header.load mem .writeUid = (queue mem).writeUid := rfl

theorem load_readPointers (inside : id < NUM_READERS) :
    header.load mem (.readPointers id) = (queue mem).readPointers id := (if_pos inside).symm

theorem load_readUids (inside : id < NUM_READERS) :
    header.load mem (.readUids id) = (queue mem).readUids id := (if_pos inside).symm

theorem data_queue : data mem = (queue mem).data := rfl

theorem valid_queue (inside : id < NUM_READERS) : valid mem id = (queue mem).readValids id := (if_pos inside).symm

theorem pack64_lt {c : Nat} (o : Nat) (word : c < 2 ^ 32) : pack64 c o < 2 ^ 64 := by
  unfold pack64
  omega

/-! The calls. -/

theorem queue_resetReader (inside : id < NUM_READERS) :
    queue (resetReader mem id) = Msgq.resetReader (queue mem) id := by
  have first : queue (header.store mem (.readValids id) 1) = (queue mem).set (.readValids id) 1 :=
    queue_store _ inside (by decide)
  unfold resetReader
  rw [queue_store (.readPointers id) inside (Layout.load_lt _ _), load_writePointer, first]
  rfl

/-- The queue behind some turns of the clearing loop. -/
theorem queue_clear (slots : List Nat) (inside : ∀ i ∈ slots, i < NUM_READERS) :
    queue (slots.foldl (fun mem i => header.store (header.store mem (.readValids i) 0) (.readUids i) 0) mem) =
      { queue mem with
        readValids := fun i => if i ∈ slots then false else (queue mem).readValids i
        readUids := fun i => if i ∈ slots then 0 else (queue mem).readUids i } := by
  induction slots generalizing mem with
  | nil => rfl
  | cons i slots ih =>
      have first := inside i List.mem_cons_self
      rw [List.foldl_cons, ih fun j mem => inside j (List.mem_cons_of_mem i mem),
        queue_store (.readUids i) first (by decide), queue_store (.readValids i) first (by decide)]
      ext j : 2 <;> simp [Queue.set, Function.update_apply]
      all_goals
        by_cases same : j = i <;> simp [same]

theorem queue_clearSlots : queue (clearSlots mem) =
    { queue mem with
      readValids := fun i => if i < NUM_READERS then false else (queue mem).readValids i
      readUids := fun i => if i < NUM_READERS then 0 else (queue mem).readUids i } := by
  unfold clearSlots
  rw [queue_clear _ fun i mem => List.mem_range.mp mem]
  simp only [List.mem_range]

theorem queue_evictAll : queue (evictAll mem) = clearReaders (queue mem) := by
  unfold evictAll
  rw [queue_clearSlots, queue_store .numReaders trivial (by decide)]
  rfl

theorem queue_invalidate (test : Nat → Nat → Bool) (slots : List Nat) (inside : ∀ i ∈ slots, i < NUM_READERS) :
    queue (invalidate test mem slots) = clearFlags (queue mem)
      (slots.filter fun i => test ((queue mem).readCycles i) ((queue mem).readOffset i)) := by
  induction slots generalizing mem with
  | nil => simp [invalidate, clearFlags]
  | cons i slots ih =>
      have here := inside i List.mem_cons_self
      have rest := fun j mem => inside j (List.mem_cons_of_mem i mem)
      have one : invalidate test mem (i :: slots) = invalidate test
          (if test ((queue mem).readCycles i) ((queue mem).readOffset i) then header.store mem (.readValids i) 0
            else mem) slots := by
        simp only [invalidate, List.foldl_cons, Queue.readCycles, Queue.readOffset, ← load_readPointers here]
      rw [one, List.filter_cons]
      split_ifs with hit
      · rw [ih rest, queue_store (.readValids i) here (by decide)]
        ext j : 2 <;> simp only [clearFlags, Queue.set, Queue.readCycles, Queue.readOffset, List.mem_cons]
        by_cases same : j = i <;> simp [same]
      · exact ih rest

/-- The wrap branch is one update. -/
theorem queue_wrap (count : n ≤ NUM_READERS) (same : n = (queue mem).numReaders) :
    queue (wrap mem n) = wrapQueue (queue mem) := by
  unfold wrap
  dsimp only
  rw [queue_store .writePointer trivial (pack64_lt _ (nextCycle_lt _)),
    queue_invalidate _ _ fun i mem => (List.mem_range.mp mem).trans_le count, queue_storeTag, load_writePointer, same]
  generalize queue mem = q
  rfl

theorem queue_record {c w : Nat} (msg : Bytes) (count : n ≤ NUM_READERS) (same : n = (queue mem).numReaders)
    (word : c < 2 ^ 32) : queue (record mem n c w msg) = recordQueue (queue mem) c w msg := by
  unfold record
  dsimp only
  rw [queue_store .writePointer trivial (pack64_lt _ word), queue_writeTail, queue_storeTag,
    queue_invalidate _ _ fun i mem => (List.mem_range.mp mem).trans_le count, same]
  generalize queue mem = q
  rfl

/-- What a send on the bytes comes to on the queue. -/
def SendResult.seen : SendResult → Msgq.SendResult
  | .refused => .refused
  | .aborted => .aborted
  | .sent mem ret signalled => .sent (queue mem) ret signalled

theorem mustWrap_queue (size : Nat) (mem : Memory) (n : Nat) :
    mustWrap size mem n = Msgq.mustWrap size (queue mem) n := rfl

theorem queue_send (size : Nat) (msg : Bytes) (count : (queue mem).numReaders ≤ NUM_READERS) :
    queue (send size mem msg) = sendQueue size (queue mem) msg := by
  have wrapped := queue_wrap count rfl
  have cycles : (unpack64 (queue mem).writePointer).1 < 2 ^ 32 := unpack64_fst_lt _
  unfold send sendQueue recordCycles recordOffset
  rw [load_numReaders, load_writePointer, mustWrap_queue]
  dsimp only
  split_ifs with full
  · rw [queue_record _ count (by rw [wrapped]; rfl) (nextCycle_lt _), wrapped]
    rfl
  · rw [queue_record _ count rfl cycles]
    rfl

theorem queue_msgSend (size : Nat) (H : Handle) (msg : Bytes) (count : (queue mem).numReaders ≤ NUM_READERS) :
    Msgq.msgSend size (queue mem) H msg = (msgSend size mem H msg).seen := by
  have sent := queue_send size msg count
  have uids : (sendQueue size (queue mem) msg).readUids = (queue mem).readUids :=
    (sameRegistry_sendQueue size ⟨queue mem, fun _ => H, 0⟩ msg).readUids
  have signalled : ((List.range (queue mem).numReaders).map fun i =>
      header.load (send size mem msg) (.readUids i) % 2 ^ 32) =
      (List.range (queue mem).numReaders).map fun i => (queue mem).readUids i % 2 ^ 32 := by
    apply List.map_congr_left
    intro i mem
    rw [load_readUids ((List.mem_range.mp mem).trans_le count), sent, uids]
  unfold Msgq.msgSend msgSend isPublisher
  dsimp only
  rw [applyAll_sendStores, load_writeUid, load_numReaders, signalled]
  by_cases active : H.writeUidLocal = some (queue mem).writeUid
  · rw [if_neg (not_not.mpr active), beq_iff_eq.mpr active]
    rw [if_neg (show ¬ (!true) = true from Bool.false_ne_true)]
    split_ifs with admitted
    · rfl
    · rw [SendResult.seen, sent]
  · rw [if_pos active, beq_eq_false_iff_ne.mpr active]
    rfl

end words

end Mapped

end Msgq
