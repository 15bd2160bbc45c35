import Msgq.Turns
import Msgq.Run

/-! The same calls access by access. Every load, every store, every
compare-and-swap and every piece of a copy is one move of one process, in a
sequentially consistent order. What lies between two accesses is local and
belongs to the access before it. -/
namespace Msgq
open ByteMemory FramedRecords Traces Turns

/-- The calls that go round again, on the subscriber's side. -/
inductive Get
  | recv
  | ready
  deriving DecidableEq

inductive PublisherPc
  | writeUid                     -- write_uid = uid
  | numReaders                   -- num_readers = 0
  | valid (i : Nat)              -- read_valids[i] = false
  | readUid (i : Nat)            -- read_uids[i] = 0
  deriving DecidableEq

inductive SubscriberPc
  | numReaders                   -- load num_readers
  | evict                        -- num_readers = 0
  | evictValid (i : Nat)         -- read_valids[i] = false
  | evictSignal (i : Nat)        -- load read_uids[i]
  | evictUid (i : Nat)           -- read_uids[i] = 0
  | claim (cur : Nat)            -- the compare-and-swap on num_readers
  | valid (id : Nat)             -- read_valids[id] = false
  | pointer (id : Nat)           -- read_pointers[id] = 0
  | readUid (id : Nat)           -- read_uids[id] = uid
  deriving DecidableEq

inductive ResetPc
  | valid                        -- read_valids[id] = true
  | load                         -- load write_pointer
  | store (word : Nat)           -- read_pointers[id] = word
  deriving DecidableEq

/-- The first accesses of recv and ready are the same. -/
inductive GetPc
  | readUid                      -- load read_uids[id]
  | valid                        -- load read_valids[id]
  | readPointer                  -- load read_pointers[id]
  | writePointer (rp : Nat)      -- load write_pointer
  deriving DecidableEq

inductive RecvPc
  | tag (wp : Nat)               -- load the size tag
  | valid (wp : Nat) (size : Int)  -- load read_valids[id]
  | wrap                         -- read_pointers[id] = (read_cycles + 1, 0)
  | skip (n : Nat)               -- read_pointers[id] = the next record
  | copy (n : Nat) (buf : Bytes) -- load the next piece of the payload
  | pointer (n : Nat) (buf : Bytes)  -- read_pointers[id] = the next record
  | done (buf : Bytes)           -- load read_valids[id]
  deriving DecidableEq

/-- The locals of a send behind its loads. -/
structure Locals where
  numReaders : Nat
  writeCycles : Nat
  writePointer : Nat
  deriving DecidableEq

inductive SendPc
  | writeUid                            -- load write_uid
  | numReaders                          -- load num_readers
  | writePointer (n : Nat)              -- load write_pointer
  | tag (x : Locals)                    -- store the wrap tag
  | beyond (x : Locals) (i : Nat)       -- load read_pointers[i]
  | dropBeyond (x : Locals) (i : Nat)   -- read_valids[i] = false
  | turn (x : Locals)                   -- write_pointer = (write_cycles + 1, 0)
  | area (x : Locals) (i : Nat)         -- load read_pointers[i]
  | dropArea (x : Locals) (i : Nat)     -- read_valids[i] = false
  | size (x : Locals)                   -- store the size tag
  | copy (x : Locals) (j : Nat)         -- store piece j of the payload
  | publish (x : Locals)                -- write_pointer = the end of the record
  | signal (n i : Nat)                  -- load read_uids[i]
  deriving DecidableEq

/-- Where a process stands: the access it makes next. A reset is either the end
of a registration (`new`) or was called by recv or ready; `back` is the call
that started over, if any did. -/
inductive Pc
  | idle
  | failed                              -- an assertion failed
  | publisherUid                        -- msgq_get_uid
  | initPublisher (uid : Nat) (k : PublisherPc)
  | subscriberUid (back : Option Get)   -- msgq_get_uid
  | initSubscriber (back : Option Get) (uid : Nat) (k : SubscriberPc)
  | resetReader (new : Bool) (back : Option Get) (id : Nat) (k : ResetPc)
  | get (g : Get) (id : Nat) (k : GetPc)
  | recv (id rp : Nat) (k : RecvPc)
  | send (m : Msg) (k : SendPc)
  deriving DecidableEq

structure Process where
  handle : Handle
  pc : Pc

/-- The segment and the number of uids drawn. -/
structure Shared where
  q : Queue
  drawn : Nat

/-- What a move shows. -/
inductive Note
  | quiet
  | wrapped                             -- send stored the wrapped write pointer
  | published (m : Msg)                 -- send stored the final write pointer
  | received (m : Bytes)                -- recv returned a message
  | garbage                             -- a size assertion of recv failed
  deriving DecidableEq

/-- The label `start`. -/
def start (g : Get) (H : Handle) : Pc :=
  match H.readerId with
  | none => .failed
  | some id => .get g id .readUid

def comeBack (back : Option Get) (H : Handle) : Pc :=
  match back with
  | none => .idle
  | some g => start g H

def initPublisherStep (uid : Nat) (q : Queue) (H : Handle) : PublisherPc → Queue × Handle × Pc
  | .writeUid => ({ q with writeUid := uid }, H, .initPublisher uid .numReaders)
  | .numReaders => ({ q with numReaders := 0 }, H, .initPublisher uid (.valid 0))
  | .valid i =>
      ({ q with readValids := Function.update q.readValids i false }, H, .initPublisher uid (.readUid i))
  | .readUid i =>
      let q := { q with readUids := Function.update q.readUids i 0 }
      if i + 1 < NUM_READERS then (q, H, .initPublisher uid (.valid (i + 1)))
      else (q, { H with writeUidLocal := some uid }, .idle)

def initSubscriberStep (back : Option Get) (uid : Nat) (q : Queue) (H : Handle) :
    SubscriberPc → Queue × Handle × Pc
  | .numReaders =>
      if NUM_READERS < q.numReaders + 1 then (q, H, .initSubscriber back uid .evict)
      else (q, H, .initSubscriber back uid (.claim q.numReaders))
  | .evict => ({ q with numReaders := 0 }, H, .initSubscriber back uid (.evictValid 0))
  | .evictValid i =>
      ({ q with readValids := Function.update q.readValids i false }, H,
        .initSubscriber back uid (.evictSignal i))
  | .evictSignal i => (q, H, .initSubscriber back uid (.evictUid i))
  | .evictUid i =>
      ({ q with readUids := Function.update q.readUids i 0 }, H,
        .initSubscriber back uid (if i + 1 < NUM_READERS then .evictValid (i + 1) else .numReaders))
  | .claim cur =>
      if q.numReaders = cur then
        ({ q with numReaders := cur + 1 }, { H with readerId := some cur, readUidLocal := uid },
          .initSubscriber back uid (.valid cur))
      else (q, H, .initSubscriber back uid .numReaders)
  | .valid id =>
      ({ q with readValids := Function.update q.readValids id false }, H,
        .initSubscriber back uid (.pointer id))
  | .pointer id => (setReadPointer q id 0, H, .initSubscriber back uid (.readUid id))
  | .readUid id =>
      ({ q with readUids := Function.update q.readUids id uid }, H, .resetReader true back id .valid)

def resetReaderStep (new : Bool) (back : Option Get) (id : Nat) (q : Queue) (H : Handle) :
    ResetPc → Queue × Pc
  | .valid =>
      ({ q with readValids := Function.update q.readValids id true }, .resetReader new back id .load)
  | .load => (q, .resetReader new back id (.store q.writePointer))
  | .store word => (setReadPointer q id word, comeBack back H)

def getStep (g : Get) (id : Nat) (q : Queue) (H : Handle) : GetPc → Pc
  | .readUid => if H.readUidLocal ≠ q.readUids id then .subscriberUid (some g) else .get g id .valid
  | .valid => if !q.readValids id then .resetReader false (some g) id .valid else .get g id .readPointer
  | .readPointer => .get g id (.writePointer (q.readPointers id))
  | .writePointer rp =>
      match g with
      | .ready => .idle
      | .recv =>
          if (unpack64 rp).2 = (unpack64 q.writePointer).2 then .idle
          else .recv id rp (.tag q.writePointer)

/-- The read offset behind the record of `n` bytes at `rp`. -/
def newReadPointer (rp n : Nat) : Nat := align ((unpack64 rp).2 + 8 + n) % 2 ^ 32

def copyFrom (id rp n : Nat) (buf : Bytes) : Pc :=
  if buf.length < n then .recv id rp (.copy n buf) else .recv id rp (.pointer n buf)

def recvStep (size : Nat) (alloc : Bool) (id rp : Nat) (q : Queue) (H : Handle) :
    RecvPc → Queue × Pc × Note
  | .tag wp => (q, .recv id rp (.valid wp (loadWord q.data (unpack64 rp).2)), .quiet)
  | .valid wp n =>
      if !q.readValids id then (q, .resetReader false (some .recv) id .valid, .quiet)
      else if n = -1 then (q, .recv id rp .wrap, .quiet)
      else if !(toU64 n < size && 0 < n) then (q, .failed, .garbage)
      else if H.readConflate && newReadPointer rp n.toNat != (unpack64 wp).2 then
        (q, .recv id rp (.skip n.toNat), .quiet)
      else if !alloc then (q, .idle, .quiet)
      else (q, copyFrom id rp n.toNat [], .quiet)
  | .wrap => (setReadPointer q id (pack64 (nextCycle (unpack64 rp).1) 0), start .recv H, .quiet)
  | .skip n => (setReadPointer q id (pack64 (unpack64 rp).1 (newReadPointer rp n)), start .recv H, .quiet)
  | .copy n buf =>
      (q, copyFrom id rp n
        (buf ++ readBytes q.data ((unpack64 rp).2 + 8 + buf.length) (min 8 (n - buf.length))), .quiet)
  | .pointer n buf =>
      (setReadPointer q id (pack64 (unpack64 rp).1 (newReadPointer rp n)),
        .recv id rp (.done buf), .quiet)
  | .done buf =>
      if !q.readValids id then (q, .resetReader false (some .recv) id .valid, .quiet)
      else (q, .idle, .received buf)

def beyondFrom (m : Msg) (x : Locals) (i : Nat) : Pc :=
  if i < x.numReaders then .send m (.beyond x i) else .send m (.turn x)

def areaFrom (m : Msg) (x : Locals) (i : Nat) : Pc :=
  if i < x.numReaders then .send m (.area x i) else .send m (.size x)

def piecesFrom (m : Msg) (x : Locals) (j : Nat) : Pc :=
  if j < pieceCount m.data.length then .send m (.copy x j) else .send m (.publish x)

def signalFrom (m : Msg) (n i : Nat) : Pc := if i < n then .send m (.signal n i) else .idle

def sendStep (size : Nat) (m : Msg) (q : Queue) (H : Handle) : SendPc → Queue × Pc × Note
  | .writeUid =>
      if !isPublisher q H then (q, .idle, .quiet)
      else if !admits size m.data.length then (q, .failed, .quiet)
      else (q, .send m .numReaders, .quiet)
  | .numReaders => (q, .send m (.writePointer q.numReaders), .quiet)
  | .writePointer n =>
      let x : Locals := ⟨n, q.writeCycles, q.writeOffset⟩
      if mustWrap size q m.data.length then (q, .send m (.tag x), .quiet) else (q, areaFrom m x 0, .quiet)
  | .tag x => (Store.apply q (.word x.writePointer (-1)), beyondFrom m x 0, .quiet)
  | .beyond x i =>
      if beyondWriter q x.writeCycles x.writePointer i then (q, .send m (.dropBeyond x i), .quiet)
      else (q, beyondFrom m x (i + 1), .quiet)
  | .dropBeyond x i => (Store.apply q (.invalidate i), beyondFrom m x (i + 1), .quiet)
  | .turn x =>
      (Store.apply q (.writePointer (pack64 (nextCycle x.writeCycles) 0)),
        areaFrom m ⟨x.numReaders, nextCycle x.writeCycles, 0⟩ 0, .wrapped)
  | .area x i =>
      if inArea q x.writeCycles x.writePointer (align (x.writePointer + 8 + m.data.length)) i then
        (q, .send m (.dropArea x i), .quiet)
      else (q, areaFrom m x (i + 1), .quiet)
  | .dropArea x i => (Store.apply q (.invalidate i), areaFrom m x (i + 1), .quiet)
  | .size x => (Store.apply q (.word x.writePointer m.data.length), piecesFrom m x 0, .quiet)
  | .copy x j =>
      let (p, bs) := piece (x.writePointer + 8) m.data j
      (Store.apply q (.piece p bs), piecesFrom m x (j + 1), .quiet)
  | .publish x =>
      (Store.apply q (.writePointer
          (pack64 x.writeCycles (align (x.writePointer + m.data.length + 8) % 2 ^ 32))),
        signalFrom m x.numReaders 0, .published m)
  | .signal n i => (q, signalFrom m n (i + 1), .quiet)

inductive Task
  | initPublisher
  | initSubscriber
  | send (m : Msg)
  | recv
  | ready

/-- The first access of a call. -/
def Task.pc (H : Handle) : Task → Pc
  | .initPublisher => .publisherUid
  | .initSubscriber => .subscriberUid none
  | .send m => .send m .writeUid
  | .recv => start .recv H
  | .ready => start .ready H

inductive Choice
  | call (c : Task)
  | go (alloc : Bool)

/-- The next access of a process, from where it stands. -/
def access (U : UidSource) (size : Nat) (alloc : Bool) (s : Shared) (P : Process) :
    Option (Note × Shared × Process) :=
  let H := P.handle
  match P.pc with
  | .idle | .failed => none
  | .publisherUid => some (.quiet, ⟨s.q, s.drawn + 1⟩, ⟨H, .initPublisher (U.draw s.drawn) .writeUid⟩)
  | .initPublisher uid k =>
      let (q, H, pc) := initPublisherStep uid s.q H k
      some (.quiet, ⟨q, s.drawn⟩, ⟨H, pc⟩)
  | .subscriberUid back =>
      some (.quiet, ⟨s.q, s.drawn + 1⟩, ⟨H, .initSubscriber back (U.draw s.drawn) .numReaders⟩)
  | .initSubscriber back uid k =>
      let (q, H, pc) := initSubscriberStep back uid s.q H k
      some (.quiet, ⟨q, s.drawn⟩, ⟨H, pc⟩)
  | .resetReader new back id k =>
      let (q, pc) := resetReaderStep new back id s.q H k
      some (.quiet, ⟨q, s.drawn⟩, ⟨H, pc⟩)
  | .get g id k => some (.quiet, s, ⟨H, getStep g id s.q H k⟩)
  | .recv id rp k =>
      let (q, pc, note) := recvStep size alloc id rp s.q H k
      some (note, ⟨q, s.drawn⟩, ⟨H, pc⟩)
  | .send m k =>
      let (q, pc, note) := sendStep size m s.q H k
      some (note, ⟨q, s.drawn⟩, ⟨H, pc⟩)

/-- An idle process may start any call; every other process goes on. -/
def next (U : UidSource) (size : Nat) (s : Shared) (P : Process) :
    Choice → Option (Note × Shared × Process)
  | .call c => match P.pc with
      | .idle => some (.quiet, s, ⟨P.handle, c.pc P.handle⟩)
      | _ => none
  | .go alloc => access U size alloc s P

/-! Where an access leads. -/

/-- On in recv, ready or a reset, into one of them, to the label `start`, or out. -/
inductive ReaderGoes (id : Nat) (H : Handle) : Pc → Prop
  | idle : ReaderGoes id H .idle
  | failed : ReaderGoes id H .failed
  | again {g id'} : H.readerId = some id' → ReaderGoes id H (.get g id' .readUid)
  | register {g} : ReaderGoes id H (.subscriberUid (some g))
  | reset {new back k} : ReaderGoes id H (.resetReader new back id k)
  | get {g k} : ReaderGoes id H (.get g id k)
  | recv {rp k} : ReaderGoes id H (.recv id rp k)

/-- On in send, or out. -/
inductive SenderGoes (m : Msg) : Pc → Prop
  | idle : SenderGoes m .idle
  | failed : SenderGoes m .failed
  | send {k} : SenderGoes m (.send m k)

section goes
variable {size id rp n i : Nat} {alloc : Bool} {q : Queue} {H : Handle} {m : Msg}

theorem start_goes (id : Nat) (g : Get) (H : Handle) : ReaderGoes id H (start g H) := by
  unfold start
  split
  · exact .failed
  · exact .again ‹_›

theorem comeBack_goes (id : Nat) (back : Option Get) (H : Handle) : ReaderGoes id H (comeBack back H) := by
  cases back with
  | none => exact .idle
  | some g => exact start_goes id g H

theorem copyFrom_goes (buf : Bytes) : ReaderGoes id H (copyFrom id rp n buf) := by
  unfold copyFrom
  split_ifs <;> exact .recv

theorem resetReaderStep_goes (new : Bool) (back : Option Get) (k : ResetPc) :
    ReaderGoes id H (resetReaderStep new back id q H k).2 := by
  cases k with
  | valid | load => exact .reset
  | store word => exact comeBack_goes id back H

theorem getStep_goes (g : Get) (k : GetPc) : ReaderGoes id H (getStep g id q H k) := by
  cases k with
  | readUid =>
      rw [getStep]
      split_ifs
      · exact .register
      · exact .get
  | valid =>
      rw [getStep]
      split_ifs
      · exact .reset
      · exact .get
  | readPointer => exact .get
  | writePointer rp =>
      cases g with
      | ready => exact .idle
      | recv =>
          rw [getStep]
          split_ifs
          · exact .idle
          · exact .recv

theorem recvStep_goes (k : RecvPc) : ReaderGoes id H (recvStep size alloc id rp q H k).2.1 := by
  cases k with
  | tag | pointer => exact .recv
  | valid wp n =>
      rw [recvStep]
      split_ifs
      · exact .reset
      · exact .recv
      · exact .failed
      · exact .recv
      · exact .idle
      · exact copyFrom_goes []
  | wrap | skip => exact start_goes id .recv H
  | copy n buf => exact copyFrom_goes _
  | done buf =>
      rw [recvStep]
      split_ifs
      · exact .reset
      · exact .idle

/-- All that an access of a receive stores. -/
theorem recvStep_queue (size : Nat) (alloc : Bool) (id rp : Nat) (q : Queue) (H : Handle) (k : RecvPc) :
    (recvStep size alloc id rp q H k).1 = q ∨ ∃ v, (recvStep size alloc id rp q H k).1 = setReadPointer q id v := by
  cases k with
  | tag | copy => exact Or.inl rfl
  | valid | done =>
      rw [recvStep]
      split_ifs <;> exact Or.inl rfl
  | wrap | skip | pointer => exact Or.inr ⟨_, rfl⟩

theorem sendFrom_goes (x : Locals) : SenderGoes m (beyondFrom m x i) ∧ SenderGoes m (areaFrom m x i) ∧
    SenderGoes m (piecesFrom m x i) ∧ SenderGoes m (signalFrom m n i) := by
  unfold beyondFrom areaFrom piecesFrom signalFrom
  refine ⟨?_, ?_, ?_, ?_⟩
  · split_ifs <;> exact .send
  · split_ifs <;> exact .send
  · split_ifs <;> exact .send
  · split_ifs
    · exact .send
    · exact .idle

theorem sendStep_goes (k : SendPc) : SenderGoes m (sendStep size m q H k).2.1 := by
  cases k with
  | writeUid =>
      rw [sendStep]
      split_ifs
      · exact .idle
      · exact .failed
      · exact .send
  | numReaders => exact .send
  | writePointer n =>
      rw [sendStep]
      split_ifs
      · exact .send
      · exact (sendFrom_goes (n := n) _).2.1
  | beyond x i =>
      rw [sendStep]
      split_ifs
      · exact .send
      · exact (sendFrom_goes (n := 0) x).1
  | area x i =>
      rw [sendStep]
      split_ifs
      · exact .send
      · exact (sendFrom_goes (n := 0) x).2.1
  | tag x | dropBeyond x => exact (sendFrom_goes (n := 0) x).1
  | turn x | dropArea x => exact (sendFrom_goes (n := 0) _).2.1
  | size x | copy x => exact (sendFrom_goes (n := 0) x).2.2.1
  | publish x => exact (sendFrom_goes x).2.2.2
  | signal n => exact (sendFrom_goes ⟨0, 0, 0⟩).2.2.2

end goes

abbrev Endpoint := World Shared Process

/-- An endpoint at rest. -/
def State.endpoint (s : State) : Endpoint := ⟨⟨s.q, s.drawn⟩, fun h => ⟨s.handle h, .idle⟩⟩

/-- Interleavings whose moves all meet a condition on the world before them. -/
abbrev Interleaving (U : UidSource) (size : Nat) (ok : Endpoint → Nat → Prop) (w : Endpoint)
    (past : List (Nat × Note)) (w' : Endpoint) : Prop := Run (Turn (next U size) ok) w past w'

/-! Playing a given order of moves. -/

def goes (p n : Nat) : List (Nat × Choice) := List.replicate n (p, .go true)

def play (size : Nat) (ok : Endpoint → Nat → Prop) [∀ w p, Decidable (ok w p)] (w : Endpoint)
    (moves : List (Nat × Choice)) : Option (List (Nat × Note) × Endpoint) :=
  schedule (next countingUids size) ok w moves

theorem play_shows (size : Nat) (ok : Endpoint → Nat → Prop) [∀ w p, Decidable (ok w p)]
    (start : Endpoint) (moves : List (Nat × Choice)) (ps : List Nat)
    (named : moves.all (fun m => m.1 ∈ ps) = true) (shown : List (Nat × Note) → Endpoint → Prop)
    [∀ past w, Decidable (shown past w)]
    (h : (play size ok start moves).any (fun r => shown r.1 r.2) = true) : ∃ past w,
      Interleaving countingUids size (fun w p => ok w p ∧ Untouched start ps w) start past w ∧
        Untouched start ps w ∧ shown past w := by
  obtain ⟨⟨past, w⟩, ends, shows⟩ := (Option.any_eq_true _ _).mp h
  obtain ⟨run, last⟩ := schedule_run start ends
    (fun m hm => of_decide_eq_true (List.all_eq_true.mp named m hm)) fun _ _ => rfl
  exact ⟨past, w, run, last, of_decide_eq_true shows⟩

end Msgq
