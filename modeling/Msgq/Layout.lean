import Msgq.Integrity

/-! The bytes of the ring and the byte ranges the calls touch. -/
namespace Msgq
open ByteMemory FramedRecords Traces

section ranges
variable {size bound : Nat} {q : Queue} {lap : List Bytes} {front : Nat} {m : Bytes}

theorem invalidations_range {test : Nat → Bool} {st : Store} (h : st ∈ invalidations q test) :
    st.range = none := by
  obtain ⟨i, -, rfl⟩ := List.mem_map.mp h
  rfl

/-- A record's stores stay within its tag and payload. -/
theorem recordStores_range {c w : Nat} {st : Store} {r : Nat × Nat} (h : st ∈ recordStores q c w m)
    (hr : st.range = some r) : w ≤ r.1 ∧ r.1 + r.2 ≤ w + 8 + m.length := by
  rw [recordStores, List.mem_append, List.mem_cons, List.mem_append, List.mem_singleton] at h
  rcases h with h | rfl | h | rfl
  · rw [invalidations_range h] at hr
    cases hr
  · cases hr
    exact ⟨le_refl w, Nat.le_add_right _ _⟩
  · obtain ⟨j, hj, rfl⟩ := List.mem_map.mp h
    cases hr
    have hcount := List.mem_range.mp hj
    simp only [pieceCount, piece, List.length_take, List.length_drop] at hcount ⊢
    omega
  · cases hr

/-- Every byte an accepted send writes lies in the segment. -/
theorem sendStores_range (hsize : size < 0xFFFFFFFF) (ok : (q.view bound lap front).Ok) (reach : bound ≤ size + 1)
    (fits : Fits size m) {st : Store} {r : Nat × Nat} (h : st ∈ sendStores size q m)
    (hr : st.range = some r) : r.1 + r.2 ≤ size := by
  have hroom := record_room (q := q) hsize fits
  have hspan := le_span m.length
  unfold sendStores at h
  unfold recordOffset at hroom
  split_ifs at h hroom with hw
  · rcases List.mem_append.mp h with h | h
    · rw [wrapStores, List.mem_cons, List.mem_append, List.mem_singleton] at h
      rcases h with rfl | h | rfl
      · cases hr
        have hoff := mustWrap_offset hsize fits hw
        have hge := fits.span_ge
        have := ok.room
        simp only [Queue.view] at this
        change q.writeOffset + 8 ≤ size
        omega
      · rw [invalidations_range h] at hr
        cases hr
      · cases hr
    · have := recordStores_range h hr
      omega
  · have := recordStores_range h hr
    omega

end ranges

section runs
variable {U : UidSource} {G : Segment} {conflate : Nat → Bool} {past : List Event} {s : State}

/-- Ring representation and bounds: behind an accepted send the write offset is
aligned and leaves room for a wrap tag, the bytes before it are the records sent
since the last wrap, and neither send nor recv touches a byte outside the segment. -/
theorem ring_layout (run : Run (Step U G) (State.fresh conflate) past s)
    (few : wrapCount past < 2 ^ 32) :
    (sentOf past ≠ [] → 8 ∣ s.q.writeOffset ∧ s.q.writeOffset + 8 < G.size ∧
      Chain s.q.data 0 (sinceWrap past) s.q.writeOffset) ∧
    (∀ h (m : Msg) q ret signalled,
      msgSend G.size s.q (s.handle h) m.data = .sent q ret signalled →
      q = Store.applyAll s.q (sendStores G.size s.q m.data) ∧
      ∀ st ∈ sendStores G.size s.q m.data, ∀ r, st.range = some r → r.1 + r.2 ≤ G.size) ∧
    (∀ h alloc, ∃ fuel passes t, msgRecv U G.size alloc h fuel s = some (passes, t) ∧
      ∀ p ∈ passes, ∀ r ∈ p.ranges, r.1 + r.2 ≤ G.size) := by
  obtain ⟨-, -, g, intact⟩ := intactRun run few
  have ok := intact.tracked.ok
  refine ⟨?_, ?_, ?_⟩
  · intro sent
    refine ⟨ok.dvd, ?_, ok.chain⟩
    rcases ok.room with zero | room
    · have empty : spans (sinceWrap past) = 0 := ok.off_eq.symm.trans zero
      exact absurd (spans_eq_zero empty) (sinceWrap_ne_nil sent)
    · exact room
  · intro h m q ret signalled accepted
    obtain ⟨-, same, fits⟩ := msgSend_sent accepted
    exact ⟨same.trans (applyAll_sendStores _ _ _).symm,
      fun st mem r hr => sendStores_range G.small ok (Nat.le_succ _) fits mem hr⟩
  · intro h alloc
    have nonempty : ∀ m ∈ g h, m ≠ [] := fun m hm =>
      intact.nonempty m ((intact.order h).subset (List.mem_append_right _ hm))
    obtain ⟨fuel, ⟨passes, t⟩, returned⟩ := intact.tracked.returns alloc G.small (Nat.le_succ _) trivial nonempty
    exact ⟨fuel, passes, t, returned, fun p mem r hr => ((intact.recv G.small (Nat.le_succ _) returned).2.2.1 p mem r hr).le⟩

end runs

theorem ring_layout_wrapped : ∃ past s,
    Run (Step countingUids tinySegment) blankState past s ∧ sentOf past ≠ [] ∧
    (sentOf past ≠ [] → 8 ∣ s.q.writeOffset ∧ s.q.writeOffset + 8 < tinySegment.size ∧
      Chain s.q.data 0 (sinceWrap past) s.q.writeOffset) ∧
    (∀ h (m : Msg) q ret signalled,
      msgSend tinySegment.size s.q (s.handle h) m.data = .sent q ret signalled →
      q = Store.applyAll s.q (sendStores tinySegment.size s.q m.data) ∧
      ∀ st ∈ sendStores tinySegment.size s.q m.data, ∀ r, st.range = some r → r.1 + r.2 ≤ tinySegment.size) ∧
    (∀ h alloc, ∃ fuel passes t, msgRecv countingUids tinySegment.size alloc h fuel s = some (passes, t) ∧
      ∀ p ∈ passes, ∀ r ∈ p.ranges, r.1 + r.2 ≤ tinySegment.size) := by
  obtain ⟨past, s, -, run, sent, few⟩ := script_shows (fun _ _ => True) blankState
    [.initPublisher 0, .send 0 (byteMsg 1), .send 0 (byteMsg 2), .send 0 (byteMsg 3)]
    (p := fun past _ => sentOf past ≠ [] ∧ wrapCount past < 2 ^ 32) (by decide +kernel)
  exact ⟨past, s, run_of_where run, sent, ring_layout (run_of_where run) few⟩

end Msgq
