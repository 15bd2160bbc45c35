import Msgq.Integrity
import Msgq.Reading

/-! The way from a reader to the write pointer. A receive walks over the records
in ring order, through at most one wrap tag, and stops where it stands at the
write offset. -/
namespace FramedRecords
open ByteMemory

/-- The records from offset `r` on until offset `off` is reached for the first
time, going on at offset 0 behind a mark; `marks` counts these. -/
inductive Trail (mem : Memory) (size off : Nat) : Nat → List Bytes → Nat → Prop
  | stop : Trail mem size off off [] 0
  | record {r m ms marks} : r ≠ off → RecordAt mem r m → m ≠ [] → 8 ∣ r →
      r + span m.length + 8 < size → Trail mem size off (r + span m.length) ms marks →
      Trail mem size off r (m :: ms) marks
  | mark {r ms marks} : r ≠ off → MarkAt mem r → off ≠ 0 → Trail mem size off 0 ms marks →
      Trail mem size off r ms (marks + 1)

variable {mem : Memory} {size off r marks : Nat} {ms : List Bytes}

/-- A trail is without records only where it is without steps. -/
theorem Trail.nil_iff (trail : Trail mem size off r ms marks) : ms = [] ↔ r = off := by
  induction trail with
  | stop => simp
  | record away => simp [away]
  | mark away _ started _ ih => exact ⟨fun none => absurd (ih.mp none).symm started, fun h => absurd h away⟩

end FramedRecords

namespace Msgq
open ByteMemory FramedRecords Traces

section trails
variable {L : Laps} {v : View} {rc r : Nat} {ahead : List Bytes}

theorem Here.trail (here : Here L v rc r ahead) (ok : v.Ok) (nonempty : ∀ m ∈ ahead, m ≠ []) :
    Trail v.data v.size v.off r ahead 0 := by
  induction ahead generalizing r with
  | nil =>
      rw [(here.nil_iff ok).mp rfl]
      exact .stop
  | cons m rest ih =>
      have hr : r ≠ v.off := fun same => List.cons_ne_nil m rest ((here.nil_iff ok).mpr same)
      obtain ⟨m', rest', same, reads, next⟩ := here.read ok hr
      obtain ⟨rfl, rfl⟩ := List.cons.inj same
      exact .record hr reads.record (nonempty m List.mem_cons_self) here.dvd reads.room
        (ih next fun x hx => nonempty x (List.mem_cons_of_mem m hx))

/-- From an older lap the trail may end early, where the writer has come to a
record boundary of that lap. -/
theorem Back.trail (back : Back L v rc r ahead) (ok : v.Ok) (started : v.lap ≠ [])
    (nonempty : ∀ m ∈ ahead, m ≠ []) :
    ∃ ms marks, Trail v.data v.size v.off r ms marks ∧ marks ≤ 1 ∧ ms.length ≤ ahead.length := by
  have moved : v.off ≠ 0 := fun zero => started (spans_eq_zero (ok.off_eq.symm.trans zero))
  induction ahead generalizing r with
  | nil =>
      obtain ⟨-, -, -, old, e, none, -⟩ := back
      exact absurd (List.append_eq_nil_iff.mp none.symm).2 started
  | cons m rest ih =>
      by_cases hr : r = v.off
      · exact ⟨[], 0, hr ▸ .stop, Nat.zero_le 1, Nat.zero_le _⟩
      rcases back.read with ⟨m', rest', same, reads, next⟩ | ⟨all, mark⟩
      · obtain ⟨rfl, rfl⟩ := List.cons.inj same
        obtain ⟨ms, marks, trail, few, short⟩ := ih next fun x hx => nonempty x (List.mem_cons_of_mem m hx)
        refine ⟨m :: ms, marks, ?_, few, Nat.succ_le_succ short⟩
        exact .record hr reads.record (nonempty m List.mem_cons_self) back.2.2.1 reads.room trail
      · have here := mark.next.trail ok (all ▸ nonempty)
        exact ⟨v.lap, 1, .mark hr mark.mark moved here, le_refl 1, (congrArg List.length all).ge⟩

end trails

/-! One receive along a trail. -/

def Pass.registers : Pass → Bool
  | .evicted => true
  | _ => false

def Pass.startsOver : Pass → Bool
  | .invalid | .lapped _ | .torn _ _ => true
  | _ => false

def Pass.wraps : Pass → Bool
  | .wrapped _ => true
  | _ => false

def Pass.skips : Pass → Bool
  | .skipped _ _ => true
  | _ => false

/-- At most so many passes of each kind that goes round again. -/
structure Bounded (passes : List Pass) (registers resets wraps skips : Nat) : Prop where
  registers : passes.countP Pass.registers ≤ registers
  resets : passes.countP Pass.startsOver ≤ resets
  wraps : passes.countP Pass.wraps ≤ wraps
  skips : passes.countP Pass.skips ≤ skips

/-- The handle owns a valid slot and has this trail before it. -/
structure OnTrail (size : Nat) (s : State) (h id : Nat) (ms : List Bytes) (marks : Nat) : Prop where
  own : Owns s h id
  valid : s.q.readValids id = true
  trail : Trail s.q.data size s.q.writeOffset (s.q.readOffset id) ms marks

/-- The records between a subscriber and the write pointer, in ring order; one
that was evicted or invalidated starts again at the write pointer. -/
inductive Remains (size : Nat) (s : State) (h : Nat) : List Bytes → Prop
  | reader {id ms marks} : OnTrail size s h id ms marks → Remains size s h ms
  | restarts : (∀ id, Owns s h id → s.q.readValids id = false) → Remains size s h []

section walks
variable {U : UidSource} {size : Nat} {s : State} {h id marks : Nat} {m : Bytes} {ms : List Bytes}
  {alloc : Bool}

/-- What holds at the end of a trail and is handed back over each step of it. -/
theorem OnTrail.induct {motive : State → List Bytes → Nat → Prop} (hsize : size < 0xFFFFFFFF)
    (stop : ∀ s, Owns s h id → s.q.readValids id = true → s.q.readOffset id = s.q.writeOffset →
      motive s [] 0)
    (record : ∀ s m rest marks, Owns s h id → s.q.readValids id = true →
      s.q.readOffset id ≠ s.q.writeOffset → RecordAt s.q.data (s.q.readOffset id) m → m ≠ [] →
      8 ∣ s.q.readOffset id → s.q.readOffset id + span m.length + 8 < size →
      OnTrail size (pastRecord s id m) h id rest marks → motive (pastRecord s id m) rest marks →
      motive s (m :: rest) marks)
    (mark : ∀ s ms marks, Owns s h id → s.q.readValids id = true →
      s.q.readOffset id ≠ s.q.writeOffset → MarkAt s.q.data (s.q.readOffset id) →
      OnTrail size (pastMark s id) h id ms marks → motive (pastMark s id) ms marks →
      motive s ms (marks + 1))
    (walk : OnTrail size s h id ms marks) : motive s ms marks := by
  obtain ⟨own, valid, trail⟩ := walk
  generalize hr : s.q.readOffset id = r at trail
  generalize hoff : s.q.writeOffset = off at trail
  generalize hmem : s.q.data = mem at trail
  induction trail generalizing s with
  | stop => exact stop s own valid (hr.trans hoff.symm)
  | @record _ m rest _ away found nonempty dvd room trail ih =>
      subst hr hoff hmem
      have next : (pastRecord s id m).q.readOffset id = s.q.readOffset id + span m.length :=
        pastRecord_readOffset (by omega)
      refine record s m rest _ own valid away found nonempty dvd room ⟨own, valid, ?_⟩ ?_
      · rw [next]
        exact trail
      · exact ih own valid next rfl rfl
  | mark away found started trail ih =>
      subst hr hoff hmem
      have next : (pastMark s id).q.readOffset id = 0 := (pastMark_position s id).2
      refine mark s _ _ own valid away found ⟨own, valid, ?_⟩ ?_
      · rw [next]
        exact trail
      · exact ih own valid next rfl rfl

theorem Bounded.last {k : Pass} (ends : k.again = false) (registers resets wraps skips : Nat) :
    Bounded [k] registers resets wraps skips := by
  cases k with
  | evicted | invalid | lapped | wrapped | skipped | torn => cases ends
  | unregistered | empty | garbage | noMemory | message => constructor <;> exact Nat.zero_le _

theorem OnTrail.recv (U : UidSource) (alloc : Bool) (hsize : size < 0xFFFFFFFF)
    (walk : OnTrail size s h id ms marks) :
    ∃ fuel passes t, msgRecv U size alloc h fuel s = some (passes, t) ∧
      Bounded passes 0 0 marks ms.length := by
  refine OnTrail.induct (motive := fun s ms marks => ∃ fuel passes t,
    msgRecv U size alloc h fuel s = some (passes, t) ∧ Bounded passes 0 0 marks ms.length)
    hsize ?_ ?_ ?_ walk
  · intro s own valid at_end
    exact ⟨1, _, _, loop_done 0 (recvPass_empty own valid at_end) rfl, .last rfl 0 0 0 0⟩
  · intro s m rest marks own valid away found nonempty dvd room _ ih
    have one := recvPass_record U alloc own valid away found nonempty dvd room.le hsize
    split_ifs at one
    · obtain ⟨fuel, passes, t, run, few⟩ := ih
      refine ⟨fuel + 1, _, t, loop_again one rfl run, ?_, ?_, ?_, ?_⟩
      · rw [List.countP_cons_of_neg (by simp [Pass.registers])]
        exact few.registers
      · rw [List.countP_cons_of_neg (by simp [Pass.startsOver])]
        exact few.resets
      · rw [List.countP_cons_of_neg (by simp [Pass.wraps])]
        exact few.wraps
      · rw [List.countP_cons_of_pos (by simp [Pass.skips]), List.length_cons]
        exact Nat.succ_le_succ few.skips
    · exact ⟨1, _, _, loop_done 0 one rfl, .last rfl _ _ _ _⟩
    · exact ⟨1, _, _, loop_done 0 one rfl, .last rfl _ _ _ _⟩
  · intro s ms marks own valid away found _ ih
    obtain ⟨fuel, passes, t, run, few⟩ := ih
    refine ⟨fuel + 1, _, t, loop_again (recvPass_wrapped own valid away found) rfl run, ?_, ?_, ?_, ?_⟩
    · rw [List.countP_cons_of_neg (by simp [Pass.registers])]
      exact few.registers
    · rw [List.countP_cons_of_neg (by simp [Pass.startsOver])]
      exact few.resets
    · rw [List.countP_cons_of_pos (by simp [Pass.wraps])]
      exact Nat.succ_le_succ few.wraps
    · rw [List.countP_cons_of_neg (by simp [Pass.skips])]
      exact few.skips

end walks

/-! Reachable states. -/

section runs
variable {U : UidSource} {G : Segment} {conflate : Nat → Bool} {past : List Event} {s : State} {h id : Nat}

theorem wrapCount_of_silent (silent : sentOf past = []) : wrapCount past = 0 := by
  rw [wrapCount, List.countP_eq_zero]
  intro e mem
  cases e with
  | sent h m wrapped => exact absurd (List.filterMap_eq_nil_iff.mp silent _ mem) (by simp [Event.sent?])
  | _ => simp [Event.wraps]

theorem IntactRun.trail (I : IntactRun U G past s) (own : Owns s h id) (valid : s.q.readValids id = true) :
    ∃ ms marks, Trail s.q.data G.size s.q.writeOffset (s.q.readOffset id) ms marks ∧ marks ≤ 1 := by
  obtain ⟨cycles, -, g, intact⟩ := I
  have nonempty : ∀ m ∈ g h, m ≠ [] := fun m hm =>
    intact.nonempty m ((intact.order h).subset (List.mem_append_right _ hm))
  rcases intact.tracked.at_slot h id trivial own valid with here | back
  · exact ⟨g h, 0, here.trail intact.tracked.ok nonempty, Nat.zero_le 1⟩
  · have started : sinceWrap past ≠ [] := by
      apply sinceWrap_ne_nil
      intro silent
      have behind : (unpack64 (s.q.readPointers id)).1 < s.q.writeCycles := back.1
      rw [cycles, wrapCount_of_silent silent] at behind
      omega
    obtain ⟨ms, marks, trail, few, -⟩ := back.trail intact.tracked.ok started nonempty
    exact ⟨ms, marks, trail, few⟩

/-- A subscriber reads on from where it stands, or its next pass starts over. -/
theorem IntactRun.reads_or_restarts (I : IntactRun U G past s) (h : Nat) :
    (∃ id ms marks, OnTrail G.size s h id ms marks ∧ marks ≤ 1) ∨
      ∀ id, Owns s h id → s.q.readValids id = false := by
  by_cases reads : ∃ id, Owns s h id ∧ s.q.readValids id = true
  · obtain ⟨id, own, valid⟩ := reads
    obtain ⟨ms, marks, trail, one⟩ := I.trail own valid
    exact Or.inl ⟨id, ms, marks, ⟨own, valid, trail⟩, one⟩
  · refine Or.inr fun id own => ?_
    by_contra valid
    exact reads ⟨id, own, by simpa using valid⟩

/-- A subscriber that was evicted or invalidated registers again, or resets, and
then stands at the write pointer. -/
theorem restarts_first (U : UidSource) (registered : (s.handle h).readerId = some id)
    (restarts : ∀ id, Owns s h id → s.q.readValids id = false) :
    ∃ k rk u id', (k = .evicted ∧ rk = .evicted ∨ k = .invalid ∧ rk = .invalid) ∧
      (∀ size alloc, recvPass U size alloc h s = (k, u)) ∧ readyPass U h s = (rk, u) ∧
      Owns u h id' ∧ u.q.readValids id' = true ∧ u.q.readOffset id' = u.q.writeOffset := by
  by_cases huid : (s.handle h).readUidLocal = s.q.readUids id
  · have own : Owns s h id := ⟨registered, huid⟩
    have invalid := restarts id own
    refine ⟨.invalid, .invalid, s.setQueue (resetReader s.q id), id, Or.inr ⟨rfl, rfl⟩, ?_, ?_, ?_, ?_, ?_⟩
    · exact fun size alloc => recvPass_invalid own invalid
    · simp [readyPass, registered, huid, invalid]
    · exact (sameRegistry_resetReader s id).owns.mpr own
    · simp [State.setQueue, resetReader]
    · simp [State.setQueue, resetReader, Queue.readOffset, Queue.writeOffset]
  · obtain ⟨-, valid, word⟩ := initSubscriber_slot (U := U) s h
    refine ⟨.evicted, .evicted, initSubscriber U s h, newSlot s.q, Or.inl ⟨rfl, rfl⟩, ?_, ?_, ?_, ?_, ?_⟩
    · exact fun size alloc => recvPass_evicted registered huid
    · simp [readyPass, registered, huid]
    · exact initSubscriber_owns s h
    · exact valid
    · rw [Queue.readOffset, word, Queue.writeOffset, (initSubscriber_same s h).1]

/-- A receive terminates: it registers again at most once, resets at most once,
follows at most one wrap tag, and skips no more records than there are before
the write pointer. -/
theorem receive_terminates (run : Run (Step U G) (State.fresh conflate) past s) (few : wrapCount past < 2 ^ 32)
    (registered : (s.handle h).readerId = some id) (alloc : Bool) : ∃ ms, Remains G.size s h ms ∧
      ∃ fuel passes t, msgRecv U G.size alloc h fuel s = some (passes, t) ∧
        Bounded passes 1 1 1 ms.length := by
  rcases (intactRun run few).reads_or_restarts h with ⟨id, ms, marks, walk, one⟩ | restarts
  · obtain ⟨fuel, passes, t, returns, counts⟩ := walk.recv U alloc G.small
    refine ⟨ms, .reader walk, fuel, passes, t, returns, ?_⟩
    exact ⟨counts.registers.trans (Nat.zero_le 1), counts.resets.trans (Nat.zero_le 1),
      counts.wraps.trans one, counts.skips⟩
  · obtain ⟨k, rk, u, id', first, one, -, own, valid, at_end⟩ := restarts_first U registered restarts
    have stop : msgRecv U G.size alloc h 1 u = some ([.empty], u) :=
      loop_done 0 (recvPass_empty own valid at_end) rfl
    refine ⟨[], .restarts restarts, 2, [k, .empty], u, ?_, ?_⟩
    · rcases first with ⟨rfl, -⟩ | ⟨rfl, -⟩
      · exact loop_again (one G.size alloc) rfl stop
      · exact loop_again (one G.size alloc) rfl stop
    · rcases first with ⟨rfl, -⟩ | ⟨rfl, -⟩
      · constructor <;> decide
      · constructor <;> decide

/-- The calls up to a state in which a wrap tag stands before the reader. -/
def wrappingCalls : List Call :=
  [.initPublisher 0, .initSubscriber 1, .send 0 (byteMsg 1), .recv 1 true, .send 0 (byteMsg 2),
    .recv 1 true, .send 0 (byteMsg 3)]

theorem receive_terminates_wrapped : ∃ past s,
    Run (Step countingUids tinySegment) blankState past s ∧ ∀ alloc, ∃ ms, Remains tinySegment.size s 1 ms ∧
      ∃ fuel passes t, msgRecv countingUids tinySegment.size alloc 1 fuel s = some (passes, t) ∧
        Bounded passes 1 1 1 ms.length := by
  obtain ⟨past, s, -, run, few, registered⟩ := script_shows (fun _ _ => True) blankState wrappingCalls
    (p := fun past s => wrapCount past < 2 ^ 32 ∧ (s.handle 1).readerId = some 0) (by decide +kernel)
  exact ⟨past, s, run_of_where run, receive_terminates (run_of_where run) few registered⟩

end runs

end Msgq
