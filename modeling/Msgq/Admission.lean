import Msgq.Receiving

/-! What passing the size assertion of send is worth. The assertion multiplies in
64 bits, and it is the only check between a message and the assertions that its
size tag meets in every receive. -/
namespace Msgq
open ByteMemory FramedRecords Traces

/-- What the assertion is to ensure, for the send that takes `q` to `q'`: no
computation of the send is cut short, and no receive fails on the tag it wrote. -/
structure SoundAdmission (size : Nat) (q : Queue) (msg : Bytes) (q' : Queue) (ret : Int) : Prop where
  length : span msg.length ≤ size / 3
  space : remainingSpace size q.writeOffset (totalMsgSize msg.length) =
    (size : Int) - q.writeOffset - span msg.length - 8
  offset : q'.writeOffset = recordOffset size q msg.length + span msg.length
  ret : ret = msg.length
  below : toU64 (loadWord q'.data (recordOffset size q msg.length)) < size
  positive : 0 < loadWord q'.data (recordOffset size q msg.length)

/-- The write offset is aligned, and a wrap tag fits behind it. -/
structure RoomForTag (size : Nat) (q : Queue) : Prop where
  aligned : 8 ∣ q.writeOffset
  room : q.writeOffset = 0 ∨ q.writeOffset + 8 < size

section sends
variable {size : Nat} {q q' : Queue} {H : Handle} {msg : Bytes} {ret : Int} {signalled : List Nat}

/-- Where the product does not overflow, the assertion is the exact bound. -/
theorem admits_iff_third {n : Nat} (small : 3 * span n < 2 ^ 64) : admits size n = true ↔ 3 * span n ≤ size := by
  have total : totalMsgSize n = span n := by
    unfold totalMsgSize align
    unfold span at small ⊢
    omega
  rw [admits, decide_eq_true_iff, total, Nat.mod_eq_of_lt small]

theorem msgSend_accepts (publishes : isPublisher q H = true) (admitted : admits size msg.length = true) :
    ∃ q' ret signalled, msgSend size q H msg = .sent q' ret signalled := by
  rw [msgSend, publishes, admitted]
  exact ⟨_, _, _, rfl⟩

theorem RoomForTag.recordOffset {n : Nat} (R : RoomForTag size q) : 8 ∣ recordOffset size q n := by
  unfold Msgq.recordOffset
  split
  · exact Nat.dvd_zero 8
  · exact R.aligned

theorem RoomForTag.send (R : RoomForTag size q) (hsize : size < 0xFFFFFFFF) (third : 3 * span msg.length ≤ size) :
    RoomForTag size (sendQueue size q msg) := by
  have stop := sendQueue_writeOffset_third hsize R.recordOffset third
  constructor
  · rw [stop]
    exact Nat.dvd_add R.recordOffset (span_dvd _)
  · rw [stop]
    exact Or.inr (record_room_third hsize third)

theorem sendQueue_tag (size : Nat) (q : Queue) (short : msg.length < 2 ^ 63) :
    loadWord (sendQueue size q msg).data (Msgq.recordOffset size q msg.length) = msg.length := by
  have written : (sendQueue size q msg).data =
      writeRecord (if mustWrap size q msg.length then wrapQueue q else q).data
        (Msgq.recordOffset size q msg.length) msg := rfl
  rw [written]
  exact (writeRecord_recordAt _ _ short).1

/-- A record of at most a third of the ring is written without loss. -/
theorem soundAdmission_of_third (R : RoomForTag size q) (hsize : size < 0xFFFFFFFF)
    (third : 3 * span msg.length ≤ size) (some_byte : 0 < msg.length) :
    SoundAdmission size q msg (sendQueue size q msg) (toInt msg.length) := by
  have fits := le_span msg.length
  have short : msg.length < 2 ^ 63 := by omega
  have tag := sendQueue_tag size q short
  constructor
  · omega
  · rw [totalMsgSize_real (real_of_third hsize third)]
    exact remainingSpace_exact (by omega) (writeOffset_lt q) (by omega)
  · exact sendQueue_writeOffset_third hsize R.recordOffset third
  · rw [toInt, if_pos (by omega)]
    omega
  · rw [tag]
    unfold toU64
    omega
  · rw [tag]
    omega

end sends

/-! Runs. -/

section runs
variable {U : UidSource} {G : Segment} {conflate : Nat → Bool} {past : List AnyEvent} {s t : State} {h : Nat}
  {msg : Bytes} {q : Queue} {ret : Int} {signalled : List Nat}

theorem RoomForTag.congr {size : Nat} {q q' : Queue} (R : RoomForTag size q) (same : q'.writePointer = q.writePointer) :
    RoomForTag size q' := by
  have off : q'.writeOffset = q.writeOffset := by rw [Queue.writeOffset, same, Queue.writeOffset]
  constructor
  · rw [off]
    exact R.aligned
  · rw [off]
    exact R.room

theorem RoomForTag.step {e : Event} (R : RoomForTag G.size s.q) (step : Step U G s e t) : RoomForTag G.size t.q := by
  cases step with
  | initPublisher h => exact R.congr rfl
  | initSubscriber h => exact R.congr (initSubscriber_same s h).1
  | sent accepted =>
      obtain ⟨-, rfl, -, third⟩ := msgSend_sent accepted
      exact R.send G.small third
  | refused | aborted => exact R
  | recv run => exact R.congr (quiet_recv run).writePointer
  | ready run => exact R.congr (quiet_ready run).writePointer

/-- Wherever calls and empty messages lead. -/
theorem roomForTag (run : Run (AnyStep U G) (State.fresh conflate) past s) : RoomForTag G.size s.q := by
  induction run with
  | nil => exact ⟨Nat.dvd_zero 8, Or.inl rfl⟩
  | snoc _ one ih =>
      cases one with
      | call step => exact ih.step step
      | sentEmpty accepted =>
          obtain ⟨-, admitted, rfl, -⟩ := msgSend_accepted accepted
          have third : 3 * span ([] : Bytes).length ≤ G.size := (admits_iff_third (by decide)).mp admitted
          exact ih.send G.small third

/-- The assertion of send is sound exactly for the messages that are not empty
and on whose size its product does not overflow. -/
theorem admission_sound_iff (run : Run (AnyStep U G) (State.fresh conflate) past s)
    (accepted : msgSend G.size s.q (s.handle h) msg = .sent q ret signalled) :
    SoundAdmission G.size s.q msg q ret ↔ 0 < msg.length ∧ 3 * span msg.length < 2 ^ 64 := by
  obtain ⟨-, admitted, rfl, rfl⟩ := msgSend_accepted accepted
  constructor
  · intro sound
    have small := G.small
    have length := sound.length
    have fits := le_span msg.length
    have positive := sound.positive
    rw [sendQueue_tag G.size s.q (by omega)] at positive
    exact ⟨by omega, by omega⟩
  · rintro ⟨some_byte, small⟩
    exact soundAdmission_of_third (roomForTag run) G.small ((admits_iff_third small).mp admitted) some_byte

end runs

/-- Eight bytes that wrap, behind messages and an empty one. -/
theorem admission_sound_iff_wraps : ∃ past s q ret signalled,
    Run (AnyStep countingUids tinySegment) blankState past s ∧ .sentEmpty 0 ∈ past ∧
    mustWrap tinySegment.size s.q 8 = true ∧
    msgSend tinySegment.size s.q (s.handle 0) (List.replicate 8 7) = .sent q ret signalled ∧
      (SoundAdmission tinySegment.size s.q (List.replicate 8 7) q ret ↔
        0 < (List.replicate 8 (7 : UInt8)).length ∧ 3 * span (List.replicate 8 (7 : UInt8)).length < 2 ^ 64) := by
  obtain ⟨past, s, -, run, active, still, wraps⟩ := script_shows (fun _ _ => True) blankState
    ([.initPublisher 0, .initSubscriber 1] ++ inTurns 3)
    (p := fun _ s => isPublisher s.q (s.handle 0) = true ∧
      isPublisher (sendQueue tinySegment.size s.q []) (s.handle 0) = true ∧
      mustWrap tinySegment.size (sendQueue tinySegment.size s.q []) 8 = true) (by decide +kernel)
  have admitted : ∀ n ≤ 8, admits tinySegment.size n = true := by decide
  obtain ⟨q₀, ret₀, signalled₀, empty⟩ := msgSend_accepts active (admitted ([] : Bytes).length (Nat.zero_le 8))
  obtain ⟨-, -, rfl, rfl⟩ := msgSend_accepted empty
  have run := (anyRun_of_run (run_of_where run)).snoc (.sentEmpty empty)
  obtain ⟨q, ret, signalled, accepted⟩ :=
    msgSend_accepts still (admitted (List.replicate 8 (7 : UInt8)).length (le_refl 8))
  exact ⟨_, _, q, ret, signalled, run, by simp, wraps, accepted, admission_sound_iff run accepted⟩

/-- An empty message passes the assertion, and the receive that meets it fails; so
does a size whose triple record length is 8 in 64 bits. -/
theorem unsound_admission :
    (∃ q ret signalled t,
      msgSend tinySegment.size attendedState.q (attendedState.handle 0) [] = .sent q ret signalled ∧
        msgRecv countingUids tinySegment.size true 1 1 (attendedState.setQueue q) = some ([.garbage 0], t) ∧
        ¬ SoundAdmission tinySegment.size attendedState.q [] q ret) ∧
      ∃ msg : Bytes, msg.length = 6148914691236517200 ∧ ∃ q ret signalled,
        msgSend tinySegment.size attendedState.q (attendedState.handle 0) msg = .sent q ret signalled ∧
          ¬ SoundAdmission tinySegment.size attendedState.q msg q ret := by
  constructor
  · refine ⟨_, _, _, _, rfl, rfl, ?_⟩
    intro sound
    exact absurd sound.positive (by decide)
  · have long : (List.replicate 6148914691236517200 (0 : UInt8)).length = 6148914691236517200 := List.length_replicate
    have admitted : admits tinySegment.size (List.replicate 6148914691236517200 (0 : UInt8)).length = true := by
      rw [long]
      rfl
    obtain ⟨q, ret, signalled, accepted⟩ :=
      msgSend_accepts (q := attendedState.q) (H := attendedState.handle 0) rfl admitted
    refine ⟨_, long, q, ret, signalled, accepted, ?_⟩
    intro sound
    have length := sound.length
    rw [long] at length
    exact absurd length (by decide)

end Msgq
