import Msgq.Stopping

/-! Runs in which publishers stop for good in the middle of a send. Such a
publisher is still the active one, but nobody sends until a successor starts. -/
namespace Msgq
open ByteMemory FramedRecords Traces

inductive CrashEvent
  | call (e : Event)
  | stopped (h : Nat) (m : Msg) (k : Nat) (turned : Bool)
  deriving DecidableEq

/-- The segment and the handles, and the handles whose process is gone. -/
structure Survivors where
  state : State
  gone : List Nat

/-- A call of a process that is still there, or an accepted send that stops
after `k` of its stores, not the last. -/
inductive CrashStep (U : UidSource) (G : Segment) : Survivors → CrashEvent → Survivors → Prop
  | call {s e t gone} : Step U G s e t → e.caller ∉ gone → CrashStep U G ⟨s, gone⟩ (.call e) ⟨t, gone⟩
  | stopped {s gone h m k} : h ∉ gone → isPublisher s.q (s.handle h) = true →
      admits G.size m.data.length = true → k < (sendStores G.size s.q m.data).length →
      CrashStep U G ⟨s, gone⟩ (.stopped h m k (turned G.size s.q m.data.length k))
        ⟨s.setQueue (Store.applyAll s.q ((sendStores G.size s.q m.data).take k)), h :: gone⟩

def CrashEvent.call? : CrashEvent → Option Event
  | .call e => some e
  | .stopped _ _ _ _ => none

/-- The calls that came to an end. -/
def calls (past : List CrashEvent) : List Event := past.filterMap CrashEvent.call?

def CrashEvent.wraps : CrashEvent → Bool
  | .call e => e.wraps
  | .stopped _ _ _ turned => turned

section runs
variable {U : UidSource} {G : Segment} {conflate : Nat → Bool} {past : List CrashEvent} {s t : State}
  {w : Survivors} {gone : List Nat} {es : List Event}

@[simp] theorem calls_append (xs ys : List CrashEvent) : calls (xs ++ ys) = calls xs ++ calls ys :=
  List.filterMap_append

@[simp] theorem calls_singleton (e : CrashEvent) : calls [e] = e.call?.toList := by
  cases e <;> rfl

theorem wraps_append (past : List CrashEvent) (e : CrashEvent) :
    (past ++ [e]).countP CrashEvent.wraps = past.countP CrashEvent.wraps + (if e.wraps then 1 else 0) := by
  simp [List.countP_append, List.countP_singleton]

/-- Every subscriber is intact, and while the bytes past the write offset may be
in disorder the active publisher is gone. -/
structure Recoverable (U : UidSource) (G : Segment) (past : List CrashEvent) (w : Survivors) : Prop where
  cycles : w.state.q.writeCycles = past.countP CrashEvent.wraps
  sound : ∀ e ∈ calls past, e.Sound G.size
  intact : ∃ lap front g, Intact U G.size w.state (sentOf (calls past))
      (fun h => receivedBy h (calls past)) lap front g ∧
    (front = w.state.q.writeOffset ∨
      ∀ h, isPublisher w.state.q (w.state.handle h) = true → h ∈ w.gone)

theorem recoverable_fresh (U : UidSource) (G : Segment) (conflate : Nat → Bool) :
    Recoverable U G [] ⟨State.fresh conflate, []⟩ where
  cycles := fresh_writeCycles conflate
  sound := by simp [calls]
  intact := ⟨[], _, _, intact_fresh U G.size conflate, Or.inl rfl⟩

theorem Recoverable.call {e : Event} (R : Recoverable U G past ⟨s, gone⟩) (step : Step U G s e t)
    (alive : e.caller ∉ gone) (few : (past ++ [CrashEvent.call e]).countP CrashEvent.wraps < 2 ^ 32) :
    Recoverable U G (past ++ [CrashEvent.call e]) ⟨t, gone⟩ := by
  obtain ⟨lap, front, g, intact, orderly⟩ := R.intact
  have cycles : s.q.writeCycles = past.countP CrashEvent.wraps := R.cycles
  rw [wraps_append] at few
  have sends : ∀ data, e.sent? = some data → front = s.q.writeOffset ∧
      (e.wraps = true → s.q.writeCycles + 1 < 2 ^ 32) := by
    intro data silent
    constructor
    · cases step with
      | sent accepted =>
          rcases orderly with same | none
          · exact same
          · exact absurd (none _ (msgSend_sent accepted).1) alive
      | _ => cases silent
    · intro hw
      rw [cycles]
      simpa [CrashEvent.wraps, hw] using few
  obtain ⟨here, hcyc, front', g', intact', back⟩ := intact.step step (fun _ => Nat.le_succ _) fun data sent => ⟨le_refl _, sends data sent⟩
  refine ⟨?_, ?_, e.lap lap, front', g', ?_, ?_⟩
  · rw [wraps_append, ← cycles]
    exact hcyc
  · rw [calls_append]
    intro e' he'
    rcases List.mem_append.mp he' with he' | he'
    · exact R.sound e' he'
    · rw [List.mem_singleton.mp he']
      exact here
  · rw [calls_append]
    simpa [CrashEvent.call?] using intact'
  · rcases orderly with same | none
    · exact Or.inl (back (Or.inl same))
    · by_cases starts : ∃ h, e = .initPublisher h
      · exact Or.inl (back (Or.inr starts))
      · refine Or.inr fun h publishes => none h ?_
        rw [← step_isPublisher step fun h' same => starts ⟨h', same⟩]
        exact publishes

theorem Recoverable.stop {h k : Nat} {m : Msg} (R : Recoverable U G past ⟨s, gone⟩) (alive : h ∉ gone)
    (publishes : isPublisher s.q (s.handle h) = true) (admitted : admits G.size m.data.length = true)
    (hk : k < (sendStores G.size s.q m.data).length)
    (few : (past ++ [CrashEvent.stopped h m k (turned G.size s.q m.data.length k)]).countP CrashEvent.wraps < 2 ^ 32) :
    Recoverable U G (past ++ [CrashEvent.stopped h m k (turned G.size s.q m.data.length k)])
      ⟨s.setQueue (Store.applyAll s.q ((sendStores G.size s.q m.data).take k)), h :: gone⟩ := by
  obtain ⟨lap, front, g, intact, orderly⟩ := R.intact
  have cycles : s.q.writeCycles = past.countP CrashEvent.wraps := R.cycles
  have fits : Fits G.size m.data := ⟨m.nonempty, (admits_real m.real).mp admitted⟩
  rw [wraps_append] at few
  obtain rfl : front = s.q.writeOffset := by
    rcases orderly with same | none
    · exact same
    · exact absurd (none h publishes) alive
  have hturn : turned G.size s.q m.data.length k = true → s.q.writeCycles + 1 < 2 ^ 32 := by
    intro ht
    rw [cycles]
    simpa [CrashEvent.wraps, ht] using few
  obtain ⟨hcyc, lap', front', g', intact'⟩ := intact.stop G.small fits hturn hk
  refine ⟨?_, ?_, lap', front', g', ?_, Or.inr ?_⟩
  · rw [wraps_append, ← cycles]
    exact hcyc
  · rw [calls_append]
    simpa [CrashEvent.call?] using R.sound
  · rw [calls_append]
    simpa [CrashEvent.call?] using intact'
  · -- the uid of the active publisher is on the handle that is gone
    intro h' publishes'
    have same : (Store.applyAll s.q ((sendStores G.size s.q m.data).take k)).writeUid = s.q.writeUid :=
      applyAll_writeUid s.q _
    have mine : (s.handle h).writeUidLocal = some s.q.writeUid := by simpa [isPublisher] using publishes
    have theirs : (s.handle h').writeUidLocal = some s.q.writeUid := by
      rw [← same]
      simpa [isPublisher, State.setQueue] using publishes'
    rw [intact.tracked.registry.writer h' h _ theirs mine]
    exact List.mem_cons_self

theorem recoverable (run : Run (CrashStep U G) ⟨State.fresh conflate, []⟩ past w)
    (few : past.countP CrashEvent.wraps < 2 ^ 32) : Recoverable U G past w := by
  induction run with
  | nil => exact recoverable_fresh U G conflate
  | snoc run one ih =>
      have before := few
      rw [wraps_append] at before
      have R := ih (by omega)
      cases one with
      | call step alive => exact R.call step alive few
      | stopped alive publishes admitted hk => exact R.stop alive publishes admitted hk few

/-- Crash consistency: whatever prefixes of sends publishers leave behind, and
whatever successors send after them, no size assertion of a receive fails, every
receive returns, and what one subscriber receives is a subsequence of the
messages that were completely sent. -/
theorem received_completely_sent (run : Run (CrashStep U G) ⟨State.fresh conflate, []⟩ past w)
    (few : past.countP CrashEvent.wraps < 2 ^ 32) :
    (∀ h passes, CrashEvent.call (.recv h passes) ∈ past → ∀ p, Pass.garbage p ∉ passes) ∧
      (∀ h, (receivedBy h (calls past)).Sublist (sentOf (calls past))) ∧
      ∀ h alloc, ∃ fuel passes t, msgRecv U G.size alloc h fuel w.state = some (passes, t) := by
  obtain ⟨-, sound, lap, front, g, intact, -⟩ := recoverable run few
  refine ⟨?_, ?_, ?_⟩
  · intro h passes mem
    have : Event.recv h passes ∈ calls past := List.mem_filterMap.mpr ⟨_, mem, rfl⟩
    exact (sound _ this).1
  · intro h
    exact (List.sublist_append_left _ _).trans (intact.order h)
  · intro h alloc
    obtain ⟨fuel, ⟨passes, t⟩, returned⟩ := intact.tracked.returns alloc G.small (Nat.le_succ _) trivial
      fun m hm => intact.nonempty m ((intact.order h).subset (List.mem_append_right _ hm))
    exact ⟨fuel, passes, t, returned⟩

@[simp] theorem calls_map (es : List Event) : calls (es.map .call) = es := by
  simp [calls, List.filterMap_map, Function.comp_def, CrashEvent.call?]

@[simp] theorem wraps_map (es : List Event) : (es.map .call).countP CrashEvent.wraps = wrapCount es := by
  simp [wrapCount, List.countP_map, Function.comp_def, CrashEvent.wraps]

/-- Calls of processes that are still there. -/
theorem run_calls (run : Run (Where U G fun _ e => e.caller ∉ gone) s es t) :
    Run (CrashStep U G) ⟨s, gone⟩ (es.map .call) ⟨t, gone⟩ := by
  induction run with
  | nil => exact .nil
  | snoc run one ih =>
      rw [List.map_append]
      exact ih.snoc (.call one.1 one.2)

end runs

/-- The publisher stops before its last store, with the whole second record in
place; its successor's message comes next. -/
theorem received_completely_sent_successor : ∃ past w,
    Run (CrashStep countingUids tinySegment) ⟨blankState, []⟩ past w ∧
    receivedBy 1 (calls past) = [[1], [3]] ∧
    (∀ h passes, CrashEvent.call (.recv h passes) ∈ past → ∀ p, Pass.garbage p ∉ passes) ∧
      (∀ h, (receivedBy h (calls past)).Sublist (sentOf (calls past))) ∧
      ∀ h alloc, ∃ fuel passes t,
        msgRecv countingUids tinySegment.size alloc h fuel w.state = some (passes, t) := by
  obtain ⟨past, s, -, first, publishes, hk, more⟩ := script_shows (fun _ e => e.caller ∉ []) blankState
    [.initPublisher 0, .initSubscriber 1, .send 0 (byteMsg 1), .recv 1 true]
    (p := fun past s => isPublisher s.q (s.handle 0) = true ∧
      2 < (sendStores tinySegment.size s.q (byteMsg 2).data).length ∧
      (script (fun _ e => e.caller ∉ [0])
        (s.setQueue (Store.applyAll s.q ((sendStores tinySegment.size s.q (byteMsg 2).data).take 2)))
        [.recv 1 true, .initPublisher 2, .recv 1 true, .send 2 (byteMsg 3), .recv 1 true]).any
        (fun r => receivedBy 1 past ++ receivedBy 1 r.1 = [[1], [3]] ∧
          wrapCount past + wrapCount r.1 + 1 < 2 ^ 32) = true)
    (by decide +kernel)
  obtain ⟨past', t, -, second, got, few⟩ := script_shows _ _ _
    (p := fun es _ => receivedBy 1 past ++ receivedBy 1 es = [[1], [3]] ∧
      wrapCount past + wrapCount es + 1 < 2 ^ 32) more
  have stop := (run_calls first).snoc (.stopped (List.not_mem_nil) publishes (by decide) hk)
  have run := stop.append (run_calls second)
  refine ⟨_, _, run, ?_, received_completely_sent run ?_⟩
  · rw [calls_append, calls_append, calls_map, calls_map, calls_singleton]
    simpa [CrashEvent.call?] using got
  · rw [List.countP_append, List.countP_append, wraps_map, wraps_map, List.countP_singleton]
    split_ifs <;> omega

end Msgq
