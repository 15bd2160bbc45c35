import Mathlib.Logic.Function.Basic
import Msgq.Words
import Msgq.Traces

/-! The shared segment of one endpoint and the calls on it, each taken as one
atomic step. Words are natural numbers with the reductions the machine types
make; the data area is byte memory from `q->data` on. Signals only cut a sleep
short, so a call reports whom it signals and changes nothing else by it. -/
namespace Msgq
open ByteMemory Traces

def NUM_READERS : Nat := 25

/-- `msgq_header_t` followed by the data area. -/
structure Queue where
  numReaders : Nat
  writePointer : Nat
  writeUid : Nat
  readPointers : Nat → Nat
  readValids : Nat → Bool
  readUids : Nat → Nat
  data : Memory

namespace Queue

def writeCycles (q : Queue) : Nat := (unpack64 q.writePointer).1
def writeOffset (q : Queue) : Nat := (unpack64 q.writePointer).2
def readCycles (q : Queue) (i : Nat) : Nat := (unpack64 (q.readPointers i)).1
def readOffset (q : Queue) (i : Nat) : Nat := (unpack64 (q.readPointers i)).2

/-- A fresh segment is all zeroes. -/
def zero : Queue where
  numReaders := 0
  writePointer := 0
  writeUid := 0
  readPointers := fun _ => 0
  readValids := fun _ => false
  readUids := fun _ => 0
  data := fun _ => 0

end Queue

/-- The process-local part of `msgq_queue_t`. A reader id of `-1` and a write
uid that was never set are `none`. -/
structure Handle where
  readerId : Option Nat := none
  readUidLocal : Nat := 0
  writeUidLocal : Option Nat := none
  readConflate : Bool := false

/-- The uids the processes draw, in the order they draw them. -/
structure UidSource where
  draw : Nat → Nat
  distinct : Function.Injective draw
  nonzero : ∀ n, draw n ≠ 0

/-- The segment, every handle ever opened on it, and the number of uids drawn. -/
structure State where
  q : Queue
  handle : Nat → Handle
  drawn : Nat

def State.setHandle (s : State) (h : Nat) (H : Handle) : State :=
  { s with handle := Function.update s.handle h H }

def resetReader (q : Queue) (id : Nat) : Queue :=
  let q := { q with readValids := Function.update q.readValids id true }
  { q with readPointers := Function.update q.readPointers id q.writePointer }

/-- The common part of `msgq_init_publisher` and the evict-all branch: no
readers, no slot valid, no slot owned. -/
def clearReaders (q : Queue) : Queue :=
  { q with
    numReaders := 0
    readValids := fun i => if i < NUM_READERS then false else q.readValids i
    readUids := fun i => if i < NUM_READERS then 0 else q.readUids i }

def initPublisher (U : UidSource) (s : State) (h : Nat) : State :=
  let uid := U.draw s.drawn
  { q := { clearReaders s.q with writeUid := uid }
    handle := Function.update s.handle h { s.handle h with writeUidLocal := some uid }
    drawn := s.drawn + 1 }

/-- No slot is free, so a new subscriber evicts all others. -/
def full (q : Queue) : Bool := NUM_READERS < q.numReaders + 1

/-- The registration loop goes round once more exactly when it evicts. -/
def initSubscriber (U : UidSource) (s : State) (h : Nat) : State :=
  let uid := U.draw s.drawn
  let q := if full s.q then clearReaders s.q else s.q
  let id := q.numReaders
  let q := { q with
    numReaders := id + 1
    readValids := Function.update q.readValids id false
    readPointers := Function.update q.readPointers id 0
    readUids := Function.update q.readUids id uid }
  { q := resetReader q id
    handle := Function.update s.handle h
      { s.handle h with readerId := some id, readUidLocal := uid }
    drawn := s.drawn + 1 }

/-! Sending. The call is its list of stores in program order, so that a
publisher may also stop between any two of them. -/

inductive Store
  | word (p : Nat) (v : Int)
  | piece (p : Nat) (bs : Bytes)
  | invalidate (i : Nat)
  | writePointer (v : Nat)

def Store.apply (q : Queue) : Store → Queue
  | .word p v => { q with data := storeWord q.data p v }
  | .piece p bs => { q with data := writeBytes q.data p bs }
  | .invalidate i => { q with readValids := Function.update q.readValids i false }
  | .writePointer v => { q with writePointer := v }

/-- The byte range of the data area a store writes. -/
def Store.range : Store → Option (Nat × Nat)
  | .word p _ => some (p, 8)
  | .piece p bs => some (p, bs.length)
  | .invalidate _ | .writePointer _ => none

def Store.applyAll (q : Queue) (stores : List Store) : Queue := stores.foldl Store.apply q

/-- The message does not fit behind the write pointer. -/
def mustWrap (size : Nat) (q : Queue) (n : Nat) : Bool :=
  remainingSpace size q.writeOffset (totalMsgSize n) ≤ 0

/-- The reader test of the wrap branch. -/
def beyondWriter (q : Queue) (writeCycles writePointer i : Nat) : Bool :=
  q.readOffset i > writePointer && q.readCycles i != writeCycles

/-- The reader test before a record is written. -/
def inArea (q : Queue) (writeCycles start stop i : Nat) : Bool :=
  start ≤ q.readOffset i && q.readOffset i < stop && q.readCycles i != writeCycles

def invalidations (q : Queue) (test : Nat → Bool) : List Store :=
  ((List.range q.numReaders).filter test).map .invalidate

def payloadStores (p : Nat) (msg : Bytes) : List Store :=
  (List.range (pieceCount msg.length)).map fun j => .piece (piece p msg j).1 (piece p msg j).2

/-- Everything from the second invalidation loop to the final write pointer. -/
def recordStores (q : Queue) (writeCycles writePointer : Nat) (msg : Bytes) : List Store :=
  invalidations q (inArea q writeCycles writePointer (align (writePointer + 8 + msg.length))) ++
  .word writePointer msg.length ::
  (payloadStores (writePointer + 8) msg ++
  [.writePointer (pack64 writeCycles (align (writePointer + msg.length + 8) % 2 ^ 32))])

def wrapStores (q : Queue) : List Store :=
  .word q.writeOffset (-1) ::
  (invalidations q (beyondWriter q q.writeCycles q.writeOffset) ++
  [.writePointer (pack64 (nextCycle q.writeCycles) 0)])

def sendStores (size : Nat) (q : Queue) (msg : Bytes) : List Store :=
  if mustWrap size q msg.length then wrapStores q ++ recordStores q (nextCycle q.writeCycles) 0 msg
  else recordStores q q.writeCycles q.writeOffset msg

def isPublisher (q : Queue) (H : Handle) : Bool := H.writeUidLocal == some q.writeUid

inductive SendResult
  | refused            -- another publisher took over: -1 with EADDRINUSE
  | aborted            -- the size assertion failed
  | sent (q : Queue) (ret : Int) (signalled : List Nat)

/-- The segment an accepted send leaves behind. -/
def SendResult.queue? : SendResult → Option Queue
  | .sent q _ _ => some q
  | .refused | .aborted => none

def msgSend (size : Nat) (q : Queue) (H : Handle) (msg : Bytes) : SendResult :=
  if !isPublisher q H then .refused
  else if !admits size msg.length then .aborted
  else
    .sent (Store.applyAll q (sendStores size q msg))
      (toInt msg.length)
      ((List.range q.numReaders).map fun i => q.readUids i % 2 ^ 32)

/-! Receiving. One pass runs from the label `start` to the next `goto start` or
`return`, and is named by how it ends. -/

inductive Pass
  | unregistered                      -- assert(id >= 0)
  | evicted                           -- the slot has another owner: register again
  | invalid                           -- the flag was cleared: reset
  | empty
  | lapped (p : Nat)                  -- cleared while the tag was read: reset
  | wrapped (p : Nat)                 -- a wrap tag: continue at offset 0
  | garbage (p : Nat)                 -- a size assertion failed
  | skipped (p : Nat) (n : Nat)       -- conflating, and not the newest
  | noMemory (p : Nat)                -- the allocation failed: -1
  | torn (p : Nat) (n : Nat)          -- cleared while the data was copied: reset
  | message (p : Nat) (m : Bytes)
  deriving DecidableEq

def Pass.again : Pass → Bool
  | .evicted | .invalid | .lapped _ | .wrapped _ | .skipped _ _ | .torn _ _ => true
  | .unregistered | .empty | .garbage _ | .noMemory _ | .message _ _ => false

/-- The byte ranges of the data area a pass reads. -/
def Pass.ranges : Pass → List (Nat × Nat)
  | .unregistered | .evicted | .invalid | .empty => []
  | .lapped p | .wrapped p | .garbage p | .skipped p _ | .noMemory p => [(p, 8)]
  | .torn p n => [(p, 8), (p + 8, n)]
  | .message p m => [(p, 8), (p + 8, m.length)]

def State.setQueue (s : State) (q : Queue) : State := { s with q }

def setReadPointer (q : Queue) (id v : Nat) : Queue :=
  { q with readPointers := Function.update q.readPointers id v }

def recvPass (U : UidSource) (size : Nat) (alloc : Bool) (h : Nat) (s : State) : Pass × State :=
  match (s.handle h).readerId with
  | none => (.unregistered, s)
  | some id =>
    if (s.handle h).readUidLocal ≠ s.q.readUids id then (.evicted, initSubscriber U s h)
    else if !s.q.readValids id then (.invalid, s.setQueue (resetReader s.q id))
    else
      let readCycles := s.q.readCycles id
      let readPointer := s.q.readOffset id
      let writePointer := s.q.writeOffset
      if readPointer = writePointer then (.empty, s)
      else
        let n := loadWord s.q.data readPointer
        if !s.q.readValids id then (.lapped readPointer, s.setQueue (resetReader s.q id))
        else if n = -1 then
          (.wrapped readPointer, s.setQueue (setReadPointer s.q id (pack64 (nextCycle readCycles) 0)))
        else if !(toU64 n < size && 0 < n) then (.garbage readPointer, s)
        else
          let newReadPointer := align (readPointer + 8 + n.toNat) % 2 ^ 32
          let msg := readBytes s.q.data (readPointer + 8) n.toNat
          let q := setReadPointer s.q id (pack64 readCycles newReadPointer)
          if (s.handle h).readConflate && newReadPointer != writePointer then
            (.skipped readPointer n.toNat, s.setQueue q)
          else if !alloc then (.noMemory readPointer, s)
          else if !q.readValids id then
            (.torn readPointer n.toNat, s.setQueue (resetReader q id))
          else (.message readPointer msg, s.setQueue q)

def msgRecv (U : UidSource) (size : Nat) (alloc : Bool) (h fuel : Nat) (s : State) :
    Option (List Pass × State) :=
  loop (recvPass U size alloc h) Pass.again fuel s

inductive ReadyPass
  | unregistered
  | evicted
  | invalid
  | answer (ready : Bool)
  deriving DecidableEq

def ReadyPass.again : ReadyPass → Bool
  | .evicted | .invalid => true
  | .unregistered | .answer _ => false

def readyPass (U : UidSource) (h : Nat) (s : State) : ReadyPass × State :=
  match (s.handle h).readerId with
  | none => (.unregistered, s)
  | some id =>
    if (s.handle h).readUidLocal ≠ s.q.readUids id then (.evicted, initSubscriber U s h)
    else if !s.q.readValids id then (.invalid, s.setQueue (resetReader s.q id))
    else (.answer (s.q.readOffset id != s.q.writeOffset), s)

def msgReady (U : UidSource) (h fuel : Nat) (s : State) : Option (List ReadyPass × State) :=
  loop (readyPass U h) ReadyPass.again fuel s

def allReadersUpdated (q : Queue) : Bool :=
  ((List.range q.numReaders).all fun i => !(q.readValids i && q.writePointer != q.readPointers i)) &&
    0 < q.numReaders

end Msgq
