import Msgq.Reading

/-! Readers that the writer laps. A subscriber follows the log exactly until one
of two sends: one that wraps at the very offset where the subscriber stands in
an older lap, or one whose record ends there. The invalidation tests of send
miss both. -/
namespace Msgq
open ByteMemory FramedRecords Traces

/-- A send of `n` bytes wraps exactly over a reader of an older lap. -/
def Overtakes (size h : Nat) (s : State) (n : Nat) : Prop :=
  ∃ id, Owns s h id ∧ s.q.readValids id = true ∧ mustWrap size s.q n = true ∧
    s.q.readOffset id = s.q.writeOffset ∧ s.q.readCycles id ≠ s.q.writeCycles

/-- A send of `n` bytes ends exactly at a reader of an older lap. -/
def Meets (size h : Nat) (s : State) (n : Nat) : Prop :=
  ∃ id, Owns s h id ∧ s.q.readValids id = true ∧
    s.q.readOffset id = align (recordOffset size s.q n + 8 + n) ∧
    s.q.readCycles id ≠ recordCycles size s.q n

def NeverOvertaken (G : Segment) (h : Nat) (s : State) : Event → Prop
  | .sent _ m _ => ¬ Overtakes G.size h s m.data.length
  | _ => True

def NeverMet (G : Segment) (h : Nat) (s : State) : Event → Prop
  | .sent _ m _ => ¬ Meets G.size h s m.data.length
  | _ => True

/-- Only the slot of the handle's own reader id can witness it. -/
theorem exists_owned {p : Nat → Prop} {s : State} {h : Nat} :
    (∃ id ∈ (s.handle h).readerId, Owns s h id ∧ p id) ↔ ∃ id, Owns s h id ∧ p id := by
  constructor
  · rintro ⟨id, -, both⟩
    exact ⟨id, both⟩
  · rintro ⟨id, own, rest⟩
    exact ⟨id, own.1, own, rest⟩

instance (size h : Nat) (s : State) (n : Nat) : Decidable (Overtakes size h s n) :=
  decidable_of_iff _ exists_owned

instance (size h : Nat) (s : State) (n : Nat) : Decidable (Meets size h s n) :=
  decidable_of_iff _ exists_owned

instance (G : Segment) (h : Nat) (s : State) : ∀ e, Decidable (NeverOvertaken G h s e)
  | .sent _ m _ => inferInstanceAs (Decidable (¬ Overtakes G.size h s m.data.length))
  | .initPublisher _ | .initSubscriber _ _ | .refused _ _ | .aborted _ _ | .recv _ _ | .ready _ _ =>
      isTrue trivial

instance (G : Segment) (h : Nat) (s : State) : ∀ e, Decidable (NeverMet G h s e)
  | .sent _ m _ => inferInstanceAs (Decidable (¬ Meets G.size h s m.data.length))
  | .initPublisher _ | .initSubscriber _ _ | .refused _ _ | .aborted _ _ | .recv _ _ | .ready _ _ =>
      isTrue trivial

/-- The calls around a send that wraps exactly over a subscriber of an older lap. -/
def overtakingCalls : List Call :=
  [.initPublisher 0, .initSubscriber 1, .send 0 (byteMsg 1), .recv 1 true, .send 0 (byteMsg 2),
    .recv 1 true, .send 0 (byteMsg 3), .send 0 (byteMsg 4), .send 0 (byteMsg 5), .recv 1 true]

section states
variable {closed closed' : Nat → Prop} {P : Nat → Prop} {U : UidSource} {size : Nat} {s : State}
  {lap : List Bytes} {front : Nat} {b : Spec} {h id : Nat}

theorem Followed.relax (F : Followed (exactLaps closed) P U size s lap front b)
    (sub : ∀ e, closed e → closed' e) : Followed (exactLaps closed') P U size s lap front b := by
  refine ⟨⟨F.tracked.registry, F.tracked.ok, ?_⟩, F.nonempty, F.valid⟩
  intro h id hP own valid
  rcases F.tracked.at_slot h id hP own valid with here | ⟨cycles, beyond, dvd, old, e, ahead, chain, mark, ends, room⟩
  · exact Or.inl here
  · exact Or.inr ⟨cycles, beyond, dvd, old, e, ahead, chain, mark, sub e ends, room⟩

/-- A send that does not wrap over the reader. -/
theorem Followed.sendClear {m : Msg} (hsize : size < 0xFFFFFFFF)
    (F : Followed (exactLaps closed) (· = h) U size s lap s.q.writeOffset b) (fits : Fits size m.data)
    (hclosed : mustWrap size s.q m.data.length = true → closed s.q.writeOffset)
    (clear : ¬ Overtakes size h s m.data.length) :
    Followed (exactLaps closed) (· = h) U size (s.setQueue (sendQueue size s.q m.data))
      (sentLap (mustWrap size s.q m.data.length) lap m.data) (sendQueue size s.q m.data).writeOffset
      (Broadcast.push b m.data) := by
  apply F.send hsize fits fun hw => ⟨trivial, hclosed hw⟩
  rintro h' id rfl own valid ⟨hw, hr, back⟩
  exact clear ⟨id, own, valid, hw, hr, (exactLaps closed).back_ne back.1⟩

/-- No reader of an older lap stands at the front. -/
theorem Followed.raise {L : Laps} (F : Followed L P U size s lap front b)
    (apart : ∀ h id, P h → Owns s h id → s.q.readValids id = true → s.q.readOffset id = front →
      s.q.readCycles id = s.q.writeCycles) : Followed L P U size s lap (front + 1) b := by
  refine ⟨⟨F.tracked.registry, F.tracked.ok.claim _, ?_⟩, F.nonempty, F.valid⟩
  intro h id hP own valid
  rcases F.tracked.at_slot h id hP own valid with here | ⟨cycles, beyond, rest⟩
  · exact Or.inl here
  · refine Or.inr ⟨cycles, lt_of_le_of_ne beyond ?_, rest⟩
    intro same
    exact L.back_ne cycles (apart h id hP own valid same.symm)

/-- A reader at the write pointer is in step with any log it has nothing unread in. -/
theorem Followed.restart {L : Laps} {b' : Spec} (F : Followed L (fun _ => False) U size s lap front b)
    (own : Owns s h id) (word : s.q.readPointers id = s.q.writePointer) (nonempty : ∀ m ∈ b'.sent, m ≠ [])
    (valid : Broadcast.Valid b' h) (nothing : Broadcast.unread b' h = []) (front' : Nat) :
    Followed (exactLaps closed) (· = h) U size s lap front' b' := by
  refine ⟨⟨F.tracked.registry, F.tracked.ok.claim front', ?_⟩, nonempty, ?_⟩
  · rintro h id' rfl own' -
    rw [own'.slot_unique own, word, nothing]
    exact Or.inl (here_at_off (F.tracked.ok.claim front') rfl)
  · rintro h rfl
    exact valid

/-- Strictly behind the write offset nothing is overtaken. -/
theorem Followed.not_overtaken (F : Followed (exactLaps closed) (· = h) U size s lap (s.q.writeOffset + 1) b)
    (n : Nat) : ¬ Overtakes size h s n := by
  rintro ⟨id, own, valid, -, hr, hc⟩
  rcases F.tracked.at_slot h id rfl own valid with here | back
  · exact hc here.1
  · have beyond : s.q.writeOffset + 1 ≤ s.q.readOffset id := back.2.1
    omega

theorem Followed.sendApart {m : Msg} (hsize : size < 0xFFFFFFFF)
    (F : Followed (exactLaps closed) (· = h) U size s lap (s.q.writeOffset + 1) b) (fits : Fits size m.data)
    (hclosed : mustWrap size s.q m.data.length = true → closed s.q.writeOffset)
    (apart : ¬ Meets size h s m.data.length) :
    Followed (exactLaps closed) (· = h) U size (s.setQueue (sendQueue size s.q m.data))
      (sentLap (mustWrap size s.q m.data.length) lap m.data) ((sendQueue size s.q m.data).writeOffset + 1)
      (Broadcast.push b m.data) := by
  have ok := F.tracked.ok
  apply ((F.mono (Nat.le_succ _)).sendClear hsize fits hclosed (F.not_overtaken _)).raise
  rintro h' id rfl own valid hr
  have before : Owns s h' id := (sameRegistry_sendQueue size s m.data).owns.mp own
  have hp : (s.setQueue (sendQueue size s.q m.data)).q.readPointers = s.q.readPointers :=
    sendQueue_readPointers size s.q m.data
  have was := ((sendQueue_readValids hsize ok fits (F.tracked.registry.below h' id before)).mp valid).1
  rw [Queue.readOffset, hp, sendQueue_writeOffset hsize ok fits, ← record_stop hsize ok fits] at hr
  by_contra differ
  apply apart
  refine ⟨id, before, was, hr, ?_⟩
  rw [Queue.readCycles, hp] at differ
  exact fun same => differ (same.trans sendQueue_writeCycles.symm)

end states

/-! Runs. -/

section runs
variable {U : UidSource} {G : Segment} {conflate : Nat → Bool} {past : List Event} {s : State} {h id : Nat}

theorem followed_fresh (closed : Nat → Prop) (P : Nat → Prop) (front : Nat) :
    Followed (exactLaps closed) P U G.size (State.fresh conflate) [] front (spec []) := by
  refine ⟨⟨registry_fresh U conflate, ⟨rfl, Or.inl rfl⟩, ?_⟩, by simp [spec, Broadcast.empty], fun _ _ => Nat.zero_le _⟩
  intro h id _ own
  cases own.1

/-- Laps are closed only behind something sent. -/
abbrev sentLaps (past : List Event) : Laps := exactLaps fun _ => sentOf past ≠ []

theorem sentLaps_started (past : List Event) (empty : sinceWrap past = []) (e : Nat) :
    ¬ (sentLaps past).closed e := fun sent => sinceWrap_ne_nil sent empty

/-- What a call other than an accepted send does to a followed state. -/
theorem Followed.next {e : Event} {t : State} {front : Nat} {P : Nat → Prop}
    (F : Followed (sentLaps past) P U G.size s (sinceWrap past) front (spec past)) (step : Step U G s e t)
    (silent : e.sent? = none) :
    Followed (sentLaps (past ++ [e])) P U G.size t (sinceWrap (past ++ [e])) front (spec (past ++ [e])) := by
  rw [sinceWrap_append, Event.lap_silent silent, spec_append]
  apply (F.call step silent).2.relax
  intro _ sent
  simpa [silent] using sent

theorem sentLaps_append (h : Nat) (m : Msg) (w : Bool) (past : List Event) (e : Nat) :
    (sentLaps (past ++ [.sent h m w])).closed e := by
  change sentOf (past ++ [.sent h m w]) ≠ []
  simp [Event.sent?]

/-- A condition on sends under which one send keeps readers followed keeps them
followed over whole runs. -/
theorem followed_run {P : Nat → Prop} (ok : State → Event → Prop) (front : Nat → Nat)
    (keep : ∀ (closed : Nat → Prop) s lap b h' (m : Msg) w,
      Followed (exactLaps closed) P U G.size s lap (front s.q.writeOffset) b → Fits G.size m.data →
      closed s.q.writeOffset → ok s (.sent h' m w) →
      Followed (exactLaps closed) P U G.size (s.setQueue (sendQueue G.size s.q m.data))
        (sentLap (mustWrap G.size s.q m.data.length) lap m.data)
        (front (sendQueue G.size s.q m.data).writeOffset) (Broadcast.push b m.data))
    (run : Run (Where U G ok) (State.fresh conflate) past s) :
    Followed (sentLaps past) P U G.size s (sinceWrap past) (front s.q.writeOffset) (spec past) := by
  refine run.invariant (I := fun past s =>
    Followed (sentLaps past) P U G.size s (sinceWrap past) (front s.q.writeOffset) (spec past))
    (followed_fresh _ _ _) ?_
  rintro past s e t - F ⟨step, meets⟩
  cases silent : e.sent? with
  | none =>
      have same := (F.call step silent).1
      have off : t.q.writeOffset = s.q.writeOffset := by rw [Queue.writeOffset, Queue.writeOffset, same]
      rw [off]
      exact F.next step silent
  | some data =>
      cases step with
      | sent accepted =>
          rename_i h' m q ret signalled
          obtain ⟨-, rfl, fits⟩ := msgSend_sent accepted
          have closed := sentLaps_append h' m (mustWrap G.size s.q m.data.length) past
          rw [sinceWrap_append, spec_append]
          exact keep _ _ _ _ _ _ _ (F.relax fun e _ => closed e) fits (closed 0) meets
      | _ => cases silent

/-- A subscriber that is never overtaken keeps exactly its unread messages ahead. -/
theorem followed_of_neverOvertaken
    (run : Run (Where U G (NeverOvertaken G h)) (State.fresh conflate) past s) :
    Followed (sentLaps past) (· = h) U G.size s (sinceWrap past) s.q.writeOffset (spec past) :=
  followed_run _ (fun w => w) (fun _ _ _ _ _ _ _ F fits closed clear =>
    F.sendClear G.small fits (fun _ => closed) clear) run

/-- A subscriber that is never met never stands at the write offset of another lap. -/
theorem followed_of_neverMet (run : Run (Where U G (NeverMet G h)) (State.fresh conflate) past s) :
    Followed (sentLaps past) (· = h) U G.size s (sinceWrap past) (s.q.writeOffset + 1) (spec past) :=
  followed_run _ (fun w => w + 1) (fun _ _ _ _ _ _ _ F fits closed apart =>
    F.sendApart G.small fits (fun _ => closed) apart) run

/-- Whatever happens to the readers, the ring and the registry stay sound. -/
theorem followed_none (run : Run (Step U G) (State.fresh conflate) past s) :
    Followed (sentLaps past) (fun _ => False) U G.size s (sinceWrap past) s.q.writeOffset (spec past) := by
  refine followed_run (fun _ _ => True) (fun w => w) ?_ (run.mono fun _ _ _ step => ⟨step, trivial⟩)
  intro closed s lap b h m w F fits ends _
  exact F.send G.small fits (fun _ => ⟨trivial, ends⟩) fun _ _ none => none.elim

end runs

end Msgq
