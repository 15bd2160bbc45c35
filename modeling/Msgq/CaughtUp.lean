import Msgq.Lapped

/-! Readers with nothing left to read. The next send keeps their flag and their
next receive returns its message, wrapped or not, conflating or not. -/
namespace Msgq
open ByteMemory FramedRecords Traces

/-- A call that is neither an accepted send nor made by `h`. -/
def Event.elsewhere (h : Nat) : Event → Bool
  | .initPublisher _ | .refused _ _ | .aborted _ _ => true
  | .sent _ _ _ => false
  | .initSubscriber h' _ | .recv h' _ | .ready h' _ => h' ≠ h

theorem Event.elsewhere_silent {h : Nat} {e : Event} (away : e.elsewhere h = true) : e.sent? = none := by
  cases e with
  | sent => cases away
  | _ => rfl

theorem Spec.event_elsewhere {h : Nat} {e : Event} (away : e.elsewhere h = true) (b : Spec) :
    Broadcast.SameFor b (Spec.event b e) h := by
  cases e with
  | initPublisher | refused | aborted => exact .rfl
  | sent => cases away
  | initSubscriber h' => exact Broadcast.seek_same b (Ne.symm (by simpa [Event.elsewhere] using away))
  | recv h' passes => exact Spec.passes_same (Ne.symm (by simpa [Event.elsewhere] using away)) b passes
  | ready h' passes =>
      exact Spec.readyPasses_same (Ne.symm (by simpa [Event.elsewhere] using away)) b passes

section states
variable {L : Laps} {closed : Nat → Prop} {P : Nat → Prop} {U : UidSource} {G : Segment} {size : Nat}
  {s t : State} {lap : List Bytes} {front : Nat} {b : Spec} {h id : Nat} {later : List Event}

theorem writeOffset_congr (same : t.q.writePointer = s.q.writePointer) :
    t.q.writeOffset = s.q.writeOffset := congrArg (fun word => (unpack64 word).2) same

/-- What the others do leaves a reader's unread messages. -/
theorem Followed.elsewhere (F : Followed L P U G.size s lap (s.q.writeOffset + 1) b)
    (run : Run (Step U G) s later t) (away : ∀ e ∈ later, e.elsewhere h = true) :
    ∃ b', Followed L P U G.size t lap (t.q.writeOffset + 1) b' ∧
      Broadcast.unread b' h = Broadcast.unread b h := by
  refine run.invariant (I := fun past u => (∀ e ∈ past, e.elsewhere h = true) →
    ∃ b', Followed L P U G.size u lap (u.q.writeOffset + 1) b' ∧
      Broadcast.unread b' h = Broadcast.unread b h) (fun _ => ⟨b, F, rfl⟩) ?_ away
  intro past u e v _ ih step away
  obtain ⟨b', F', ahead⟩ := ih fun e he => away e (List.mem_append_left _ he)
  have last := away e (by simp)
  obtain ⟨kept, F''⟩ := F'.call step (Event.elsewhere_silent last)
  rw [← writeOffset_congr kept] at F''
  exact ⟨_, F'', (Spec.event_elsewhere last b').unread.trans ahead⟩

/-- A send to a reader at the write pointer. -/
theorem Followed.sendCaughtUp {m : Msg} (hsize : size < 0xFFFFFFFF)
    (F : Followed (exactLaps closed) (· = h) U size s lap (s.q.writeOffset + 1) b) (fits : Fits size m.data)
    (hclosed : closed s.q.writeOffset) (own : Owns s h id) (valid : s.q.readValids id = true)
    (hr : s.q.readOffset id = s.q.writeOffset) (hc : s.q.readCycles id = s.q.writeCycles) :
    (sendQueue size s.q m.data).readValids id = true ∧
      Followed (exactLaps closed) (· = h) U size (s.setQueue (sendQueue size s.q m.data))
        (sentLap (mustWrap size s.q m.data.length) lap m.data) ((sendQueue size s.q m.data).writeOffset + 1)
        (Broadcast.push b m.data) := by
  have ok := F.tracked.ok
  refine ⟨?_, F.sendApart hsize fits (fun _ => hclosed) ?_⟩
  · refine (sendQueue_readValids hsize ok fits (F.tracked.registry.below h id own)).mpr ⟨valid, ?_, ?_⟩
    · rintro - ⟨beyond, -⟩
      exact beyond.ne' hr
    · rintro ⟨-, inside, differ⟩
      cases hw : mustWrap size s.q m.data.length with
      | true =>
          have := mustWrap_offset hsize fits hw
          simp only [recordOffset, hw, if_true] at inside
          omega
      | false =>
          simp only [recordCycles, hw, Bool.false_eq_true, if_false] at differ
          exact differ hc
  · rintro ⟨id', own', -, meets, differ⟩
    obtain rfl := own.slot_unique own'
    rw [record_stop hsize ok fits] at meets
    cases hw : mustWrap size s.q m.data.length with
    | true =>
        have := mustWrap_offset hsize fits hw
        simp only [recordOffset, hw, if_true] at meets
        omega
    | false =>
        simp only [recordCycles, hw, Bool.false_eq_true, if_false] at differ
        exact differ hc

/-- A valid reader with one message ahead receives it, conflating or not. -/
theorem Followed.receives {x : Bytes}
    (F : Followed L (· = h) U G.size t lap (t.q.writeOffset + 1) b) (own : Owns t h id)
    (valid : t.q.readValids id = true) (one : Broadcast.unread b h = [x]) (started : lap ≠ []) :
    ∃ fuel passes u, msgRecv U G.size true h fuel t = some (passes, u) ∧ returned passes = some x ∧
      ∃ b', Followed L (· = h) U G.size u lap (u.q.writeOffset + 1) b' ∧ Broadcast.unread b' h = [] := by
  obtain ⟨fuel, ws, k, u, run, marks, oldest⟩ := F.tracked.reads true G.small rfl own valid
    F.unread_nonempty fun _ => ⟨by simp [one], started⟩
  rw [one] at oldest
  obtain ⟨p, rfl⟩ := oldest
  obtain ⟨quiet, F'⟩ := F.recv G.small run
  have off : u.q.writeOffset = t.q.writeOffset := by
    rw [Queue.writeOffset, Queue.writeOffset, quiet.writePointer]
  refine ⟨fuel, _, u, run, by simp [returned, Pass.message?], _, off ▸ F', ?_⟩
  rw [List.foldl_append, Spec.passes_wrapped h b marks]
  change Broadcast.unread (Broadcast.advance b h) h = []
  rw [Broadcast.unread_advance, Function.update_self, one, List.tail_cons]

/-- A valid reader with nothing ahead is told so. -/
theorem Followed.receives_nothing {alloc : Bool}
    (F : Followed L (· = h) U G.size t lap (t.q.writeOffset + 1) b) (own : Owns t h id)
    (valid : t.q.readValids id = true) (nothing : Broadcast.unread b h = []) (started : lap ≠ []) :
    ∃ fuel passes u, msgRecv U G.size alloc h fuel t = some (passes, u) ∧
      passes.getLast? = some .empty := by
  obtain ⟨fuel, ws, k, u, run, -, oldest⟩ := F.tracked.reads alloc G.small rfl own valid
    F.unread_nonempty fun _ => ⟨by simp [nothing], started⟩
  rw [nothing] at oldest
  obtain rfl : k = .empty := oldest
  exact ⟨fuel, _, u, run, List.getLast?_concat⟩

end states

section runs
variable {U : UidSource} {G : Segment} {conflate : Nat → Bool} {past : List Event} {s : State} {h id : Nat}
  {h' : Nat} {m : Msg} {q : Queue} {ret : Int} {signalled : List Nat}

/-- A caught-up reader is never invalidated, unless a send wrapped exactly over it
before: the next send keeps its flag, and its next receive, whatever the others
do in between, returns exactly the new message. -/
theorem caught_up_reader_kept
    (run : Run (Where U G (NeverOvertaken G h)) (State.fresh conflate) past s) (own : Owns s h id)
    (valid : s.q.readValids id = true) (caught : Broadcast.unread (spec past) h = [])
    (accepted : msgSend G.size s.q (s.handle h') m.data = .sent q ret signalled) :
    q.readValids id = true ∧
      ∀ later t, Run (Step U G) (s.setQueue q) later t → (∀ e ∈ later, e.elsewhere h = true) →
        Owns t h id → t.q.readValids id = true →
        ∃ fuel passes u, msgRecv U G.size true h fuel t = some (passes, u) ∧
          returned passes = some m.data := by
  have F := followed_of_neverOvertaken run
  obtain ⟨-, rfl, fits⟩ := msgSend_sent accepted
  obtain ⟨hr, hc⟩ := F.tracked.caught_up rfl own valid (sentLaps_started past) caught
  have apart : Followed (exactLaps fun _ => True) (· = h) U G.size s (sinceWrap past) (s.q.writeOffset + 1)
      (spec past) := by
    apply (F.relax fun _ _ => trivial).raise
    rintro h id' rfl own' - -
    rw [own'.slot_unique own]
    exact hc
  obtain ⟨kept, F'⟩ := apart.sendCaughtUp G.small fits trivial own valid hr hc
  refine ⟨kept, ?_⟩
  intro later t rest away own' valid'
  obtain ⟨b, F'', ahead⟩ := F'.elsewhere rest away
  rw [Broadcast.unread_push (F.valid h rfl), caught] at ahead
  obtain ⟨fuel, passes, u, returns, got, -⟩ := F''.receives own' valid' ahead (sentLap_ne_nil _ _ _)
  exact ⟨fuel, passes, u, returns, got⟩

theorem caught_up_reader_invalidated : ∃ past s,
    script (fun _ _ => True) blankState overtakingCalls = some (past, s) ∧
    Run (Step countingUids tinySegment) blankState past s ∧
    (Owns s 1 0 ∧ s.q.readValids 0 = true ∧ (receivedBy 1 past).getLast? = (sentOf past).getLast? ∧
      ((msgSend 48 s.q (s.handle 0) [6]).queue?.map fun q => q.readValids 0) = some false) := by
  obtain ⟨past, s, ends, run, shows⟩ := script_shows (fun _ _ => True)
    blankState overtakingCalls (p := fun past s => Owns s 1 0 ∧ s.q.readValids 0 = true ∧
      (receivedBy 1 past).getLast? = (sentOf past).getLast? ∧
      ((msgSend 48 s.q (s.handle 0) [6]).queue?.map fun q => q.readValids 0) = some false) (by decide +kernel)
  exact ⟨past, s, ends, run_of_where run, shows⟩

theorem accepted_of_queue {size : Nat} {q : Queue} {H : Handle} {m : Bytes}
    (h : (msgSend size q H m).queue?.isSome = true) :
    ∃ q' ret signalled, msgSend size q H m = .sent q' ret signalled := by
  cases result : msgSend size q H m with
  | sent q' ret signalled => exact ⟨q', ret, signalled, rfl⟩
  | refused | aborted =>
      rw [result] at h
      cases h

theorem caught_up_reader_kept_rounds : ∃ past s q ret signalled,
    Run (Where countingUids tinySegment (NeverOvertaken tinySegment 1)) blankState past s ∧ wrapCount past = 2 ∧
    msgSend tinySegment.size s.q (s.handle 0) (byteMsg 2).data = .sent q ret signalled ∧
    q.readValids 0 = true ∧
      ∀ later t, Run (Step countingUids tinySegment) (s.setQueue q) later t →
        (∀ e ∈ later, e.elsewhere 1 = true) → Owns t 1 0 → t.q.readValids 0 = true →
        ∃ fuel passes u, msgRecv countingUids tinySegment.size true 1 fuel t = some (passes, u) ∧
          returned passes = some (byteMsg 2).data := by
  obtain ⟨past, s, -, run, wraps, own, valid, caught, sends⟩ := script_shows (NeverOvertaken tinySegment 1)
    blankState ([.initPublisher 0, .initSubscriber 1, .initSubscriber 2] ++ inTurns 6)
    (p := fun past s => wrapCount past = 2 ∧ Owns s 1 0 ∧ s.q.readValids 0 = true ∧
      Broadcast.unread (spec past) 1 = [] ∧
      (msgSend tinySegment.size s.q (s.handle 0) (byteMsg 2).data).queue?.isSome = true) (by decide +kernel)
  obtain ⟨q, ret, signalled, accepted⟩ := accepted_of_queue sends
  exact ⟨past, s, q, ret, signalled, run, wraps, accepted, caught_up_reader_kept run own valid caught accepted⟩

/-- All readers updated means that every owner of a valid slot stands at the write pointer. -/
theorem readPointer_of_updated (updated : allReadersUpdated s.q = true) (below : id < s.q.numReaders)
    (valid : s.q.readValids id = true) : s.q.readPointers id = s.q.writePointer := by
  rw [allReadersUpdated, Bool.and_eq_true, List.all_eq_true] at updated
  have one := updated.1 id (List.mem_range.mpr below)
  rw [valid] at one
  exact Eq.symm (by simpa using one)

/-- The synchronisation guarantee: after `msgq_all_readers_updated`, whatever
happened before, every owner of a valid slot survives the next send, receives
exactly its message next and nothing after it. -/
theorem updated_readers_receive_next (run : Run (Step U G) (State.fresh conflate) past s)
    (updated : allReadersUpdated s.q = true) (own : Owns s h id) (valid : s.q.readValids id = true)
    (accepted : msgSend G.size s.q (s.handle h') m.data = .sent q ret signalled) :
    q.readValids id = true ∧
      ∀ later t, Run (Step U G) (s.setQueue q) later t → (∀ e ∈ later, e.elsewhere h = true) →
        Owns t h id → t.q.readValids id = true →
        ∃ fuel passes u, msgRecv U G.size true h fuel t = some (passes, u) ∧
          returned passes = some m.data ∧
          ∀ later' v, Run (Step U G) u later' v → (∀ e ∈ later', e.elsewhere h = true) →
            Owns v h id → v.q.readValids id = true →
            ∀ alloc, ∃ fuel' passes' w, msgRecv U G.size alloc h fuel' v = some (passes', w) ∧
              passes'.getLast? = some .empty := by
  obtain ⟨-, rfl, fits⟩ := msgSend_sent accepted
  have word := readPointer_of_updated updated ((followed_none run).tracked.registry.below h id own) valid
  have hr : s.q.readOffset id = s.q.writeOffset := congrArg (fun v => (unpack64 v).2) word
  have hc : s.q.readCycles id = s.q.writeCycles := congrArg (fun v => (unpack64 v).1) word
  -- whatever the reader went through, from here on it is in step with an empty log
  have F : Followed (exactLaps fun _ => True) (· = h) U G.size s (sinceWrap past) (s.q.writeOffset + 1)
      Broadcast.empty :=
    (followed_none run).restart own word (by simp [Broadcast.empty]) (Nat.zero_le _) rfl _
  obtain ⟨kept, F₁⟩ := F.sendCaughtUp G.small fits trivial own valid hr hc
  refine ⟨kept, ?_⟩
  intro later t rest away own₁ valid₁
  obtain ⟨b, F₂, ahead⟩ := F₁.elsewhere rest away
  have one : Broadcast.unread b h = [m.data] := ahead.trans (Broadcast.unread_push (Nat.zero_le _) _)
  obtain ⟨fuel, passes, u, returns, got, b', F₃, nothing⟩ :=
    F₂.receives own₁ valid₁ one (sentLap_ne_nil _ _ _)
  refine ⟨fuel, passes, u, returns, got, ?_⟩
  intro later' v rest' away' own₂ valid₂ alloc
  obtain ⟨b'', F₄, ahead'⟩ := F₃.elsewhere rest' away'
  exact F₄.receives_nothing own₂ valid₂ (ahead'.trans nothing) (sentLap_ne_nil _ _ _)

theorem updated_readers_receive_next_rounds : ∃ past s q ret signalled,
    Run (Step countingUids tinySegment) blankState past s ∧ wrapCount past = 2 ∧ s.q.numReaders = 2 ∧
    allReadersUpdated s.q = true ∧
    msgSend tinySegment.size s.q (s.handle 0) (byteMsg 2).data = .sent q ret signalled ∧
    q.readValids 0 = true ∧
      ∀ later t, Run (Step countingUids tinySegment) (s.setQueue q) later t →
        (∀ e ∈ later, e.elsewhere 1 = true) → Owns t 1 0 → t.q.readValids 0 = true →
        ∃ fuel passes u, msgRecv countingUids tinySegment.size true 1 fuel t = some (passes, u) ∧
          returned passes = some (byteMsg 2).data ∧
          ∀ later' v, Run (Step countingUids tinySegment) u later' v →
            (∀ e ∈ later', e.elsewhere 1 = true) → Owns v 1 0 → v.q.readValids 0 = true →
            ∀ alloc, ∃ fuel' passes' w,
              msgRecv countingUids tinySegment.size alloc 1 fuel' v = some (passes', w) ∧
              passes'.getLast? = some .empty := by
  obtain ⟨past, s, -, run, wraps, two, own, valid, updated, sends⟩ := script_shows (fun _ _ => True) blankState
    ([.initPublisher 0, .initSubscriber 1, .initSubscriber 2] ++ inTurns 5 ++
      [.recv 2 true, .send 0 (byteMsg 1), .recv 2 true, .recv 1 true])
    (p := fun past s => wrapCount past = 2 ∧ s.q.numReaders = 2 ∧ Owns s 1 0 ∧ s.q.readValids 0 = true ∧
      allReadersUpdated s.q = true ∧
      (msgSend tinySegment.size s.q (s.handle 0) (byteMsg 2).data).queue?.isSome = true) (by decide +kernel)
  obtain ⟨q, ret, signalled, accepted⟩ := accepted_of_queue sends
  exact ⟨past, s, q, ret, signalled, run_of_where run, wraps, two, updated, accepted,
    updated_readers_receive_next (run_of_where run) updated own valid accepted⟩

end runs

end Msgq
