import Msgq.Following

/-! What a receive returns. A reader that does not stand at the write offset of
another lap gets its oldest unread message, or nothing when there is none. -/
namespace Msgq
open ByteMemory FramedRecords Traces

/-- The message a receive hands to its caller. -/
def returned (passes : List Pass) : Option Bytes := passes.getLast?.bind Pass.message?

/-- The last pass of a receive that takes the head of `ahead`. -/
def Oldest (alloc : Bool) : List Bytes → Pass → Prop
  | [], k => k = .empty
  | m :: _, k => if alloc then ∃ p, k = .message p m else ∃ p, k = .noMemory p

/-- A receive that follows wrap tags only and then ends. -/
def Reads (U : UidSource) (size : Nat) (alloc : Bool) (h : Nat) (s : State) (ahead : List Bytes) : Prop :=
  ∃ fuel ws k t, msgRecv U size alloc h fuel s = some (ws ++ [k], t) ∧
    (∀ p ∈ ws, ∃ x, p = .wrapped x) ∧ Oldest alloc ahead k

theorem Spec.passes_wrapped (h : Nat) (b : Spec) {ws : List Pass} (hw : ∀ p ∈ ws, ∃ x, p = .wrapped x) :
    ws.foldl (Spec.pass h) b = b := by
  induction ws with
  | nil => rfl
  | cons p ws ih =>
      obtain ⟨x, rfl⟩ := hw p (by simp)
      exact ih fun q hq => hw q (List.mem_cons_of_mem _ hq)

section calls
variable {L : Laps} {P : Nat → Prop} {U : UidSource} {size : Nat} {s : State} {lap : List Bytes}
  {front : Nat} {g : Nat → List Bytes} {h id : Nat} {alloc : Bool} {ahead : List Bytes}

theorem reads_done {k : Pass} {t : State} (one : recvPass U size alloc h s = (k, t))
    (stop : k.again = false) (oldest : Oldest alloc ahead k) : Reads U size alloc h s ahead :=
  ⟨1, [], k, t, loop_done 0 one stop, by simp, oldest⟩

theorem reads_mark {x : Nat} {t : State} (one : recvPass U size alloc h s = (.wrapped x, t))
    (rest : Reads U size alloc h t ahead) : Reads U size alloc h s ahead := by
  obtain ⟨fuel, ws, k, u, run, marks, oldest⟩ := rest
  refine ⟨fuel + 1, .wrapped x :: ws, k, u, loop_again one rfl run, ?_, oldest⟩
  intro p hp
  rcases List.mem_cons.mp hp with rfl | hp
  · exact ⟨x, rfl⟩
  · exact marks p hp

/-- A record is delivered, unless the reader conflates and it is not the newest. -/
theorem reads_record {m : Bytes} {rest : List Bytes} (own : Owns s h id)
    (hv : s.q.readValids id = true) (hr : s.q.readOffset id ≠ s.q.writeOffset)
    (hrec : RecordAt s.q.data (s.q.readOffset id) m) (hne : m ≠ []) (hdvd : 8 ∣ s.q.readOffset id)
    (hroom : s.q.readOffset id + span m.length + 8 < size) (hsize : size < 0xFFFFFFFF)
    (newest : (s.handle h).readConflate = true → s.q.readOffset id + span m.length = s.q.writeOffset) :
    Reads U size alloc h s (m :: rest) := by
  have pass := recvPass_record U alloc own hv hr hrec hne hdvd hroom.le hsize
  rw [if_neg fun both => both.2 (newest both.1)] at pass
  cases alloc with
  | true => exact reads_done pass rfl ⟨_, rfl⟩
  | false => exact reads_done pass rfl ⟨_, rfl⟩

theorem Tracked.reads_here (hsize : size < 0xFFFFFFFF) (T : Tracked L P U size s lap front g)
    (own : Owns s h id) (hv : s.q.readValids id = true)
    (here : Here L (s.q.view size lap front) (s.q.readCycles id) (s.q.readOffset id) ahead)
    (nonempty : ∀ m ∈ ahead, m ≠ []) (single : (s.handle h).readConflate = true → ahead.length ≤ 1) :
    Reads U size alloc h s ahead := by
  cases ahead with
  | nil => exact reads_done (recvPass_empty own hv ((here.nil_iff T.ok).mp rfl)) rfl rfl
  | cons m rest =>
      have hr : s.q.readOffset id ≠ s.q.writeOffset := by
        intro same
        cases (here.nil_iff T.ok).mpr same
      obtain ⟨m', rest', same, reads, next⟩ := here.read T.ok hr
      obtain ⟨rfl, rfl⟩ := List.cons.inj same
      apply reads_record own hv hr reads.record (nonempty m (by simp)) here.dvd reads.room hsize
      intro conflate
      have last : rest = [] := by simpa using single conflate
      exact (next.nil_iff T.ok).mp last

/-- A reader in step reads its oldest unread message; a conflating one does so
when that is also the newest. -/
theorem Tracked.reads (alloc : Bool) (hsize : size < 0xFFFFFFFF) (T : Tracked L P U size s lap (s.q.writeOffset + 1) g)
    (hP : P h) (own : Owns s h id) (hv : s.q.readValids id = true) (nonempty : ∀ m ∈ g h, m ≠ [])
    (single : (s.handle h).readConflate = true → (g h).length ≤ 1 ∧ lap ≠ []) :
    Reads U size alloc h s (g h) := by
  rcases T.at_slot h id hP own hv with here | back
  · exact T.reads_here hsize own hv here nonempty fun conflate => (single conflate).1
  · have hr : s.q.readOffset id ≠ s.q.writeOffset := by
      have beyond : s.q.writeOffset + 1 ≤ s.q.readOffset id := back.2.1
      omega
    have hdvd : 8 ∣ s.q.readOffset id := back.2.2.1
    rcases back.read with ⟨m, rest, hg, reads, next⟩ | ⟨hlap, mark⟩
    · rw [hg]
      apply reads_record own hv hr reads.record (nonempty m (by simp [hg])) hdvd reads.room hsize
      intro conflate
      -- the running lap is still ahead, so this message is not the only one
      obtain ⟨few, started⟩ := single conflate
      obtain ⟨-, -, -, old, e, hrest, -⟩ := next
      rw [hg, hrest] at few
      cases lap with
      | nil => exact absurd rfl started
      | cons x xs => simp [Queue.view] at few
    · apply reads_mark (recvPass_wrapped own hv hr mark.mark)
      obtain ⟨hc, ho⟩ := pastMark_position s id
      rw [hlap]
      refine (T.pastMark own hlap mark.next).reads_here hsize own hv ?_ ?_ ?_
      · rw [hc, ho]
        exact mark.next
      · exact hlap ▸ nonempty
      · intro conflate
        have few := (single conflate).1
        rwa [hlap] at few

/-! A reader that has something ahead. -/

/-- While laps are only closed behind something sent, a reader with nothing
ahead stands at the write pointer. -/
theorem Tracked.caught_up (T : Tracked L P U size s lap front g) (hP : P h) (own : Owns s h id)
    (hv : s.q.readValids id = true) (started : lap = [] → ∀ e, ¬ L.closed e) (none : g h = []) :
    s.q.readOffset id = s.q.writeOffset ∧ L.here (s.q.readCycles id) s.q.writeCycles := by
  rcases T.at_slot h id hP own hv with here | back
  · exact ⟨(here.nil_iff T.ok).mp none, here.1⟩
  · obtain ⟨-, -, -, old, e, ahead, -, -, closed, -⟩ := back
    rw [none] at ahead
    obtain ⟨-, empty⟩ := List.append_eq_nil_iff.mp ahead.symm
    exact absurd closed (started empty e)

theorem Tracked.ahead_ne (T : Tracked L P U size s lap front g) (hP : P h) (own : Owns s h id)
    (hv : s.q.readValids id = true) (hr : s.q.readOffset id ≠ s.q.writeOffset)
    (started : lap = [] → ∀ e, ¬ L.closed e) : g h ≠ [] :=
  fun none => hr (T.caught_up hP own hv started none).1

theorem Tracked.owner_pass (alloc : Bool) (hsize : size < 0xFFFFFFFF) (T : Tracked L P U size s lap (s.q.writeOffset + 1) g)
    (hP : P h) (own : Owns s h id) (hv : s.q.readValids id = true) (nonempty : ∀ m ∈ g h, m ≠ [])
    (hr : s.q.readOffset id ≠ s.q.writeOffset) (started : lap = [] → ∀ e, ¬ L.closed e) :
    (recvPass U size alloc h s).1 ≠ .empty ∧
      ((recvPass U size alloc h s).1.again = true →
        Owns (recvPass U size alloc h s).2 h id ∧ (recvPass U size alloc h s).2.q.readValids id = true ∧
          (recvPass U size alloc h s).2.q.readOffset id ≠ (recvPass U size alloc h s).2.q.writeOffset) := by
  have position : At L (s.q.view size lap (s.q.writeOffset + 1)) (s.q.readCycles id) (s.q.readOffset id) (g h) :=
    T.at_slot h id hP own hv
  rcases position.read T.ok hr with ⟨m, rest, hg, reads, next⟩ | ⟨hg, mark⟩
  · have hroom : s.q.readOffset id + span m.length + 8 < size := reads.room
    rw [recvPass_record U alloc own hv hr reads.record (nonempty m (by simp [hg])) position.dvd hroom.le hsize]
    split_ifs with skips
    · refine ⟨by simp, fun _ => ⟨own, hv, ?_⟩⟩
      rw [pastRecord_readOffset (by omega)]
      exact skips.2
    · exact ⟨by simp, fun k => absurd k Bool.false_ne_true⟩
    · exact ⟨by simp, fun k => absurd k Bool.false_ne_true⟩
  · rw [recvPass_wrapped own hv hr mark.mark]
    refine ⟨by simp, fun _ => ⟨own, hv, ?_⟩⟩
    rw [(pastMark_position s id).2]
    -- the tag leads to offset 0, and the running lap is not empty
    intro zero
    have empty : lap = [] := spans_eq_zero (T.ok.off_eq.symm.trans zero.symm)
    exact T.ahead_ne hP own hv hr started (hg.trans empty)

end calls

end Msgq
