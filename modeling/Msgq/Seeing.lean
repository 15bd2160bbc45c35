import Msgq.Writing

/-! A subscriber access by access. What it knows of its position is a condition
on the place it stands at, and asked for only while its flag is set: before it
uses anything it has read it looks at the flag once more. -/
namespace Msgq
open ByteMemory FramedRecords Traces Turns

/-- The slot the next access is about. -/
def Pc.slot : Pc → Option Nat
  | .initSubscriber _ _ (.valid id) | .initSubscriber _ _ (.pointer id) | .initSubscriber _ _ (.readUid id)
  | .resetReader _ _ id _ | .get _ id _ | .recv id _ _ => some id
  | .initSubscriber _ _ .numReaders | .initSubscriber _ _ .evict | .initSubscriber _ _ (.evictValid _)
  | .initSubscriber _ _ (.evictSignal _) | .initSubscriber _ _ (.evictUid _) | .initSubscriber _ _ (.claim _)
  | .idle | .failed | .publisherUid | .initPublisher _ _ | .subscriberUid _ | .send _ _ => none

/-- What a receive knows of the position `word` its slot has. -/
def RecvPc.Sees (size : Nat) (M : Moment) (i word rp : Nat) : RecvPc → Prop
  | .tag _ => word = rp ∧ M.Stands .unread size i rp
  | .valid _ n => word = rp ∧ (n = -1 ∧ M.Stands .marked size i rp ∨
      ∃ k : Nat, n = k ∧ M.Stands (.record k []) size i rp)
  | .wrap => word = rp ∧ M.Stands .marked size i rp
  | .skip n => word = rp ∧ M.Stands (.record n []) size i rp
  | .copy n buf => word = rp ∧ buf.length ≤ n ∧ M.Stands (.record n buf) size i rp
  | .pointer n buf => word = rp ∧ n ≤ buf.length ∧ M.Stands (.record n buf) size i rp
  | .done buf => buf ∈ M.sent ∧ M.Stands .spot size i word

/-- What the owner of slot `i` knows while its flag is set. A reset has the flag
set before it stores the write pointer it has loaded. -/
def Pc.Sees (size : Nat) (M : Moment) (i word : Nat) : Pc → Prop
  | .initSubscriber _ _ (.valid _) | .initSubscriber _ _ (.pointer _) | .initSubscriber _ _ (.readUid _)
  | .resetReader _ _ _ .valid | .resetReader _ _ _ .load => True
  | .resetReader _ _ _ (.store w) => M.Stands .spot size i w
  | .get _ _ (.writePointer rp) => word = rp ∧ M.Stands .spot size i rp
  | .recv _ rp k => k.Sees size M i word rp
  | .get _ _ .readUid | .get _ _ .valid | .get _ _ .readPointer
  | .initSubscriber _ _ .numReaders | .initSubscriber _ _ .evict | .initSubscriber _ _ (.evictValid _)
  | .initSubscriber _ _ (.evictSignal _) | .initSubscriber _ _ (.evictUid _) | .initSubscriber _ _ (.claim _)
  | .idle | .failed | .publisherUid | .initPublisher _ _ | .subscriberUid _ | .send _ _ => M.Stands .spot size i word

/-- What is left out here: a publisher that starts, and a subscriber that finds no
free slot. -/
def Pc.excluded : Pc → Bool
  | .publisherUid | .initPublisher _ _ | .initSubscriber _ _ .evict | .initSubscriber _ _ (.evictValid _)
  | .initSubscriber _ _ (.evictSignal _) | .initSubscriber _ _ (.evictUid _) => true
  | .initSubscriber _ _ .numReaders | .initSubscriber _ _ (.claim _) | .initSubscriber _ _ (.valid _)
  | .initSubscriber _ _ (.pointer _) | .initSubscriber _ _ (.readUid _)
  | .idle | .failed | .subscriberUid _ | .resetReader _ _ _ _ | .get _ _ _ | .recv _ _ _ | .send _ _ => false

/-- The word a reset is about to store. -/
def Pc.pending : Pc → Option Nat
  | .resetReader _ _ _ (.store w) => some w
  | _ => none

section carrying
variable {size i word : Nat} {M M' : Moment} {pc : Pc}

/-- Knowledge lasts as long as the position and a pending one do. -/
theorem Pc.Sees.carry (h : pc.Sees size M i word) (sent : M.sent ⊆ M'.sent)
    (stored : ∀ S, M.Stands S size i word → M'.Stands S size i word)
    (pending : ∀ w, pc.pending = some w → M.Stands .spot size i w → M'.Stands .spot size i w) :
    pc.Sees size M' i word := by
  cases pc with
  | idle | failed | publisherUid | initPublisher | subscriberUid | send => exact stored _ h
  | initSubscriber back uid k =>
      cases k with
      | valid | pointer | readUid => trivial
      | numReaders | evict | evictValid | evictSignal | evictUid | claim => exact stored _ h
  | resetReader new back id k =>
      cases k with
      | valid | load => trivial
      | store w => exact pending w rfl h
  | get g id k =>
      cases k with
      | readUid | valid | readPointer => exact stored _ h
      | writePointer rp =>
          obtain ⟨rfl, h⟩ := h
          exact ⟨rfl, stored _ h⟩
  | recv id rp k =>
      cases k with
      | tag | wrap | skip =>
          obtain ⟨rfl, h⟩ := h
          exact ⟨rfl, stored _ h⟩
      | valid wp n =>
          obtain ⟨rfl, h⟩ := h
          refine ⟨rfl, h.imp ?_ ?_⟩
          · exact fun h => ⟨h.1, stored _ h.2⟩
          · rintro ⟨k, same, h⟩
            exact ⟨k, same, stored _ h⟩
      | copy | pointer =>
          obtain ⟨rfl, length, h⟩ := h
          exact ⟨rfl, length, stored _ h⟩
      | done buf =>
          obtain ⟨known, h⟩ := h
          exact ⟨sent known, stored _ h⟩

/-- Where no slot is used, the position is one to read on from. -/
theorem slotless_sees (none : pc.slot = none) (h : M.Stands .spot size i word) : pc.Sees size M i word := by
  cases pc with
  | idle | failed | publisherUid | initPublisher | subscriberUid | send => exact h
  | initSubscriber back uid k =>
      cases k with
      | numReaders | evict | evictValid | evictSignal | evictUid | claim => exact h
      | valid | pointer | readUid => cases none
  | resetReader | get | recv => cases none

theorem pending_slot {w : Nat} (pending : pc.pending = some w) : ∃ id, pc.slot = some id := by
  cases pc with
  | resetReader new back id k => exact ⟨id, rfl⟩
  | idle | failed | publisherUid | initPublisher | subscriberUid | initSubscriber | get | recv | send => cases pending

theorem start_sees (g : Get) (H : Handle) (h : M.Stands .spot size i word) : (start g H).Sees size M i word := by
  unfold start
  split <;> exact h

theorem comeBack_sees (back : Option Get) (H : Handle) (h : M.Stands .spot size i word) :
    (comeBack back H).Sees size M i word := by
  cases back with
  | none => exact h
  | some g => exact start_sees g H h

theorem task_sees (H : Handle) (c : Task) (h : M.Stands .spot size i word) : (c.pc H).Sees size M i word := by
  cases c with
  | initPublisher | initSubscriber | send => exact h
  | recv => exact start_sees .recv H h
  | ready => exact start_sees .ready H h

end carrying

/-- What a note says is so. -/
def Note.Truthful (sent : List Bytes) : Note → Prop
  | .received m => m ∈ sent
  | .garbage => False
  | .quiet | .wrapped | .published _ => True

/-! The subscriber's accesses. -/

section steps
variable {size : Nat} {M : Moment}

variable {i rp n : Nat} {buf : Bytes}

/-- The next read pointer, packed and unpacked again. -/
theorem newReadPointer_eq (hsize : size < 0xFFFFFFFF) (aligned : 8 ∣ (unpack64 rp).2)
    (room : (unpack64 rp).2 + span n + 8 < size) : newReadPointer rp n = (unpack64 rp).2 + span n ∧
      unpack64 (pack64 (unpack64 rp).1 (newReadPointer rp n)) = ((unpack64 rp).1, (unpack64 rp).2 + span n) := by
  have hspan := le_span n
  have real : Real n := by
    unfold Real
    omega
  have same : newReadPointer rp n = (unpack64 rp).2 + span n := by
    rw [newReadPointer, align_record aligned (unpack64_snd_lt rp) real, Nat.mod_eq_of_lt (by omega)]
  refine ⟨same, ?_⟩
  rw [same]
  exact Prod.ext (unpack64_pack64_fst (unpack64_fst_lt rp)) (unpack64_pack64_snd (by omega))

/-- The stored read pointer behind a record. -/
theorem Moment.Stands.past (h : M.Stands (.record n buf) size i rp) (ok : M.Ok size) (hsize : size < 0xFFFFFFFF) :
    M.Stands .spot size i (pack64 (unpack64 rp).1 (newReadPointer rp n)) := by
  obtain ⟨aligned, room, -⟩ := Stands.known h (ok.view _) ok.lap
  have words := (newReadPointer_eq hsize aligned room).2
  rw [Moment.Stands, Placed, words]
  exact Msgq.Stands.past h

theorem Moment.Stands.load (h : M.Stands .unread size i rp) (ok : M.Ok size) :
    loadWord M.q.data (unpack64 rp).2 = -1 ∧ M.Stands .marked size i rp ∨
      ∃ k : Nat, loadWord M.q.data (unpack64 rp).2 = k ∧ M.Stands (.record k []) size i rp := by
  rw [Moment.Stands, Placed] at h
  have read := Msgq.Stands.load h (ok.view _)
  exact read

theorem Moment.Stands.hop (h : M.Stands .marked size i rp) :
    M.Stands .spot size i (pack64 (nextCycle (unpack64 rp).1) 0) := by
  rw [Moment.Stands, Placed, turn_pointer]
  exact Msgq.Stands.hop h (guard_either M.writer)

theorem copyFrom_sees (h : M.Stands (.record n buf) size i rp) (id : Nat) (short : buf.length ≤ n) :
    (copyFrom id rp n buf).Sees size M i rp := by
  unfold copyFrom
  split_ifs with more
  · exact ⟨rfl, short, h⟩
  · exact ⟨rfl, by omega, h⟩

/-- The assertions on a length that was seen under a set flag hold. -/
theorem Moment.Stands.size_ok (h : M.Stands (.record n buf) size i rp) (ok : M.Ok size) (hsize : size < 0xFFFFFFFF) :
    (toU64 (n : Int) < size && 0 < (n : Int)) = true := by
  obtain ⟨-, room, m, mem, same, -⟩ := Stands.known h (ok.view _) ok.lap
  have length := List.length_pos_iff.mpr (ok.nonempty m mem)
  have hspan := le_span n
  have small : (unpack64 rp).2 + span n + 8 < size := room
  rw [Bool.and_eq_true, decide_eq_true_iff, decide_eq_true_iff]
  unfold toU64
  omega

/-- A payload copied to its end is the message that was sent. -/
theorem Moment.Stands.whole (h : M.Stands (.record n buf) size i rp) (ok : M.Ok size) (all : n ≤ buf.length) :
    buf ∈ M.sent := by
  obtain ⟨-, -, m, mem, same, copied, -⟩ := Stands.known h (ok.view _) ok.lap
  have whole : buf = m := copied.eq_of_length_le (same ▸ all)
  exact whole ▸ mem

variable {id : Nat} {H : Handle}

theorem resetReaderStep_sees (ok : M.Ok size) (new : Bool) (back : Option Get) (k : ResetPc)
    (sees : M.q.readValids id = true → (Pc.resetReader new back id k).Sees size M id (M.q.readPointers id))
    (valid : (resetReaderStep new back id M.q H k).1.readValids id = true) :
    (resetReaderStep new back id M.q H k).2.Sees size M id ((resetReaderStep new back id M.q H k).1.readPointers id) := by
  cases k with
  | valid => trivial
  | load => exact ok.loaded id
  | store w =>
      have stored : (setReadPointer M.q id w).readPointers id = w := Function.update_self ..
      rw [resetReaderStep, stored]
      exact comeBack_sees back H (sees valid)

theorem getStep_sees (ok : M.Ok size) (g : Get) (k : GetPc)
    (sees : (Pc.get g id k).Sees size M id (M.q.readPointers id)) :
    (getStep g id M.q H k).Sees size M id (M.q.readPointers id) := by
  cases k with
  | readUid =>
      rw [getStep]
      split_ifs <;> exact sees
  | valid =>
      rw [getStep]
      split_ifs
      · trivial
      · exact sees
  | readPointer => exact ⟨rfl, sees⟩
  | writePointer rp =>
      obtain ⟨same, spot⟩ := sees
      cases g with
      | ready => exact same ▸ spot
      | recv =>
          rw [getStep]
          split_ifs with empty
          · exact same ▸ spot
          · exact ⟨same, Stands.unread spot (ok.view _) empty⟩

theorem recvStep_sees (ok : M.Ok size) (hsize : size < 0xFFFFFFFF) (alloc : Bool) (k : RecvPc)
    (sees : M.q.readValids id = true → k.Sees size M id (M.q.readPointers id) rp) :
    ((recvStep size alloc id rp M.q H k).1.readValids id = true →
      (recvStep size alloc id rp M.q H k).2.1.Sees size M id
        ((recvStep size alloc id rp M.q H k).1.readPointers id)) ∧
      (recvStep size alloc id rp M.q H k).2.2.Truthful M.sent := by
  have stored : ∀ w, (setReadPointer M.q id w).readPointers id = w := fun w => Function.update_self ..
  cases k with
  | tag wp =>
      refine ⟨fun valid => ?_, trivial⟩
      obtain ⟨same, unread⟩ := sees valid
      rw [recvStep]
      exact ⟨same, unread.load ok⟩
  | valid wp n =>
      rw [recvStep]
      split_ifs with cleared mark small skip alloc
      · exact ⟨fun _ => trivial, trivial⟩
      · refine ⟨fun valid => ?_, trivial⟩
        obtain ⟨same, ⟨-, marked⟩ | ⟨k, count, -⟩⟩ := sees valid
        · exact ⟨same, marked⟩
        · omega
      · have valid : M.q.readValids id = true := by simpa using cleared
        obtain ⟨-, ⟨mark', -⟩ | ⟨k, rfl, record⟩⟩ := sees valid
        · exact absurd mark' mark
        · rw [record.size_ok ok hsize] at small
          simp at small
      · refine ⟨fun valid => ?_, trivial⟩
        obtain ⟨same, ⟨mark', -⟩ | ⟨k, rfl, record⟩⟩ := sees valid
        · exact absurd mark' mark
        · exact ⟨same, record⟩
      · refine ⟨fun valid => ?_, trivial⟩
        obtain ⟨same, ⟨mark', -⟩ | ⟨k, rfl, record⟩⟩ := sees valid
        · exact absurd mark' mark
        · exact same ▸ Stands.stay record
      · refine ⟨fun valid => ?_, trivial⟩
        obtain ⟨same, ⟨mark', -⟩ | ⟨k, rfl, record⟩⟩ := sees valid
        · exact absurd mark' mark
        · rw [same]
          exact copyFrom_sees record id (Nat.zero_le _)
  | wrap =>
      refine ⟨fun valid => ?_, trivial⟩
      rw [recvStep, stored]
      exact start_sees .recv H (sees valid).2.hop
  | skip n =>
      refine ⟨fun valid => ?_, trivial⟩
      rw [recvStep, stored]
      exact start_sees .recv H ((sees valid).2.past ok hsize)
  | copy n buf =>
      refine ⟨fun valid => ?_, trivial⟩
      obtain ⟨same, short, record⟩ := sees valid
      have more := Stands.copy record (ok.view _) (min 8 (n - buf.length)) (by omega)
      rw [recvStep, same]
      refine copyFrom_sees more id ?_
      simp only [List.length_append, length_readBytes]
      omega
  | pointer n buf =>
      refine ⟨fun valid => ?_, trivial⟩
      obtain ⟨-, all, record⟩ := sees valid
      rw [recvStep, stored]
      exact ⟨record.whole ok all, record.past ok hsize⟩
  | done buf =>
      rw [recvStep]
      split_ifs with cleared
      · exact ⟨fun _ => trivial, trivial⟩
      · have valid : M.q.readValids id = true := by simpa using cleared
        exact ⟨fun _ => (sees valid).2, (sees valid).1⟩

theorem initSubscriberStep_sees (back : Option Get) (uid : Nat) (k : SubscriberPc)
    (free : (Pc.initSubscriber back uid k).excluded = false)
    (sees : ∀ i, H.readerId = some i → M.q.readValids i = true →
      (Pc.initSubscriber back uid k).Sees size M i (M.q.readPointers i))
    (registered : (initSubscriberStep back uid M.q H k).2.1.readerId = some i)
    (valid : (initSubscriberStep back uid M.q H k).1.readValids i = true) :
    (initSubscriberStep back uid M.q H k).2.2.Sees size M i
      ((initSubscriberStep back uid M.q H k).1.readPointers i) := by
  cases k with
  | numReaders =>
      rw [initSubscriberStep] at registered valid ⊢
      split_ifs at registered valid ⊢ <;> exact sees i registered valid
  | evict | evictValid | evictSignal | evictUid => cases free
  | claim cur =>
      rw [initSubscriberStep] at registered valid ⊢
      split_ifs at registered valid ⊢
      · trivial
      · exact sees i registered valid
  | valid | pointer | readUid => trivial

/-- An access of a subscriber: what its slot's owner knows, and what it shows. -/
theorem access_sees {U : UidSource} {s s' : Shared} {P P' : Process} {alloc : Bool} {e : Note} (hq : M.q = s.q)
    (ok : M.Ok size) (hsize : size < 0xFFFFFFFF) (free : P.pc.excluded = false)
    (reads : ∀ m k, P.pc ≠ .send m k) (slot : ∀ i, P.pc.slot = some i → P.handle.readerId = some i)
    (sees : ∀ i, P.handle.readerId = some i → s.q.readValids i = true → P.pc.Sees size M i (s.q.readPointers i))
    (one : access U size alloc s P = some (e, s', P')) :
    (∀ i, P'.handle.readerId = some i → s'.q.readValids i = true → P'.pc.Sees size M i (s'.q.readPointers i)) ∧
      e.Truthful M.sent := by
  rw [← hq] at sees
  obtain ⟨q, drawn⟩ := s
  obtain ⟨H, pc⟩ := P
  obtain rfl : M.q = q := hq
  cases pc with
  | idle | failed => cases one
  | publisherUid | initPublisher => cases free
  | send m k => exact absurd rfl (reads m k)
  | subscriberUid back =>
      cases one
      exact ⟨sees, trivial⟩
  | initSubscriber back uid k =>
      cases one
      exact ⟨fun i => initSubscriberStep_sees back uid k free sees, trivial⟩
  | resetReader new back id k =>
      cases one
      refine ⟨fun i registered valid => ?_, trivial⟩
      obtain rfl : i = id := Option.some.inj (registered.symm.trans (slot id rfl))
      exact resetReaderStep_sees ok new back k (sees i registered) valid
  | get g id k =>
      cases one
      refine ⟨fun i registered valid => ?_, trivial⟩
      obtain rfl : i = id := Option.some.inj (registered.symm.trans (slot id rfl))
      exact getStep_sees ok g k (sees i registered valid)
  | recv id rp k =>
      cases one
      have both := recvStep_sees (H := H) ok hsize alloc k (sees id (slot id rfl))
      refine ⟨fun i registered valid => ?_, both.2⟩
      obtain rfl : i = id := Option.some.inj (registered.symm.trans (slot id rfl))
      exact both.1 valid

end steps

end Msgq
