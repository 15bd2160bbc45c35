import Mathlib.Data.List.Infix
import Msgq.CaughtUp

/-! A bounded backlog. With room for the backlog, one record of the largest size
and a wrap tag, the ring is an unbounded queue: no send reaches the unread
messages, so none is lost and the subscriber is never invalidated. -/
namespace Msgq
open ByteMemory FramedRecords Traces

/-- The handle owns a slot whose flag is set. -/
def Registered (s : State) (h : Nat) : Prop := ∃ id, Owns s h id ∧ s.q.readValids id = true

/-- The next pass of this handle evicts all readers. -/
def Evicts (s : State) (h : Nat) : Prop :=
  full s.q = true ∧ ∃ id ∈ (s.handle h).readerId, (s.handle h).readUidLocal ≠ s.q.readUids id

/-- The call starts no publisher and evicts nobody. -/
def Peaceful (s : State) : Event → Prop
  | .initPublisher _ => False
  | .initSubscriber _ _ => full s.q = false
  | .recv h _ | .ready h _ => ¬ Evicts s h
  | .sent _ _ _ | .refused _ _ | .aborted _ _ => True

instance (s : State) (h : Nat) : Decidable (Evicts s h) := inferInstanceAs (Decidable (_ ∧ _))

instance (s : State) : ∀ e, Decidable (Peaceful s e)
  | .initPublisher _ => isFalse id
  | .initSubscriber _ _ => inferInstanceAs (Decidable (full s.q = false))
  | .recv h _ | .ready h _ => inferInstanceAs (Decidable (¬ Evicts s h))
  | .sent _ _ _ | .refused _ _ | .aborted _ _ => isTrue trivial

section registered
variable {U : UidSource} {size : Nat} {s t : State} {h h' id : Nat} {alloc : Bool}

theorem registered_resetReader (r : Registered s h) (id : Nat) :
    Registered (s.setQueue (resetReader s.q id)) h := by
  obtain ⟨id', own, valid⟩ := r
  refine ⟨id', own, ?_⟩
  change Function.update s.q.readValids id true id' = true
  by_cases same : id' = id
  · rw [same, Function.update_self]
  · rw [Function.update_of_ne same, valid]

theorem registered_initSubscriber (R : Registry U s) (r : Registered s h) (room : full s.q = false)
    (h' : Nat) : Registered (initSubscriber U s h') h := by
  by_cases same : h = h'
  · subst same
    exact ⟨_, initSubscriber_owns s h, (initSubscriber_slot s h).2.1⟩
  obtain ⟨id, own, valid⟩ := r
  have below := R.below h id own
  have other : id ≠ newSlot s.q := by
    simp only [newSlot, room, Bool.false_eq_true, if_false]
    exact below.ne
  have slot := initSubscriber_room (U := U) s h' room other
  refine ⟨id, ⟨?_, ?_⟩, slot.2.1.trans valid⟩
  · rw [initSubscriber_handle_ne s same]
    exact own.1
  · rw [initSubscriber_handle_ne s same, slot.1]
    exact own.2

/-- A pass that changes neither handles nor owners evicts nobody later either. -/
theorem Evicts.of_same {q : Queue} (count : q.numReaders = s.q.numReaders)
    (uids : q.readUids = s.q.readUids) (e : Evicts (s.setQueue q) h') : Evicts s h' := by
  obtain ⟨isFull, id, mem, differ⟩ := e
  refine ⟨?_, id, mem, ?_⟩
  · rw [full, ← count]
    exact isFull
  · rw [← uids]
    exact differ

theorem not_evicts_of_owns (own : Owns s h id) : ¬ Evicts s h := by
  rintro ⟨-, id', mem, differ⟩
  obtain rfl := Option.some.inj (own.1.symm.trans mem)
  exact differ own.2

/-- A pass that evicts nobody keeps the registered registered and evicts nobody later either. -/
theorem OnePass.registered (one : OnePass U h' s t) (R : Registry U s) (r : Registered s h) (peace : ¬ Evicts s h') :
    Registered t h ∧ ¬ Evicts t h' := by
  cases one with
  | stay => exact ⟨r, peace⟩
  | @register id hid huid =>
      have room : full s.q = false := by
        rw [← Bool.not_eq_true]
        exact fun isFull => peace ⟨isFull, id, hid, huid⟩
      exact ⟨registered_initSubscriber R r room h', not_evicts_of_owns (initSubscriber_owns s h')⟩
  | reset => exact ⟨registered_resetReader r _, fun e => peace (e.of_same rfl rfl)⟩
  | move => exact ⟨r, fun e => peace (e.of_same rfl rfl)⟩

end registered

section bounded
variable {L : Laps} {P : Nat → Prop} {U : UidSource} {G : Segment} {size T : Nat} {s t : State}
  {lap : List Bytes} {front : Nat} {b : Spec} {h id : Nat}

theorem Followed.registered_call {e : Event} (F : Followed L P U G.size s lap front b) (r : Registered s h)
    (peace : Peaceful s e) (step : Step U G s e t) (silent : e.sent? = none) : Registered t h := by
  cases step with
  | initPublisher => exact peace.elim
  | initSubscriber h' => exact registered_initSubscriber F.tracked.registry r peace h'
  | refused => exact r
  | aborted => exact r
  | sent => cases silent
  | recv run =>
      rename_i h' alloc fuel passes
      refine (loop_invariant
        (I := fun ks u => Followed L P U G.size u lap front (ks.foldl (Spec.pass h') b) ∧
          Registered u h ∧ ¬ Evicts u h') ?_ ⟨F, r, peace⟩ run).2.1
      rintro ks u ⟨F', r', peace'⟩
      rw [List.foldl_append]
      exact ⟨F'.recvPass alloc G.small h', (recvPass_onePass u).registered F'.tracked.registry r' peace'⟩
  | ready run =>
      rename_i h' fuel passes
      refine (loop_invariant
        (I := fun ks u => Followed L P U G.size u lap front (ks.foldl (Spec.readyPass h') b) ∧
          Registered u h ∧ ¬ Evicts u h') ?_ ⟨F, r, peace⟩ run).2.1
      rintro ks u ⟨F', r', peace'⟩
      rw [List.foldl_append]
      exact ⟨F'.readyPass h', (readyPass_onePass u).registered F'.tracked.registry r' peace'⟩

/-- Older laps end where the next record of at most `T` bytes would not have fitted. -/
abbrev boundedLaps (size T : Nat) : Laps := exactLaps fun e => size ≤ e + T + 8

/-- What the bound says about the reader's position before a send. -/
theorem Followed.clear_of_bound {m : Msg} (hsize : size < 0xFFFFFFFF)
    (F : Followed (boundedLaps size T) (· = h) U size s lap (s.q.writeOffset + 1) b)
    (fits : Fits size m.data) (own : Owns s h id) (valid : s.q.readValids id = true)
    (small : span m.data.length ≤ T)
    (bound : spans (Broadcast.unread b h) + span m.data.length + T + 8 < size) :
    if mustWrap size s.q m.data.length = true then
      s.q.readOffset id ≤ s.q.writeOffset ∧ span m.data.length < s.q.readOffset id
    else s.q.readCycles id = s.q.writeCycles ∨
      s.q.writeOffset + span m.data.length < s.q.readOffset id := by
  have ok := F.tracked.ok
  have total : s.q.writeOffset = spans lap := ok.off_eq
  have wraps := mustWrap_iff (q := s.q) hsize fits
  rcases F.tracked.at_slot h id rfl own valid with here | ⟨-, -, -, old, e, ahead, chain, -, ends, -⟩
  · have hr : s.q.readOffset id ≤ s.q.writeOffset := here.le ok
    obtain ⟨same, pre, hlap, start⟩ := here
    have hlen : s.q.writeOffset = s.q.readOffset id + spans (Broadcast.unread b h) := by
      rw [total]
      change spans (s.q.view size lap (s.q.writeOffset + 1)).lap = (unpack64 (s.q.readPointers id)).2 + _
      rw [hlap, spans_append, start]
    split_ifs with hw
    · have := wraps.mp hw
      exact ⟨hr, by omega⟩
    · exact Or.inl same
  · have reach : size ≤ e + T + 8 := ends
    have hend : e = s.q.readOffset id + spans old := chain.end_eq
    have hlen : spans (Broadcast.unread b h) = spans old + s.q.writeOffset := by
      rw [ahead, spans_append, total]
      rfl
    split_ifs with hw
    · have := wraps.mp hw
      omega
    · exact Or.inr (by omega)

/-- Under the bound a send keeps the flag and ends short of the reader. -/
theorem Followed.sendBounded {m : Msg} (hsize : size < 0xFFFFFFFF)
    (F : Followed (boundedLaps size T) (· = h) U size s lap (s.q.writeOffset + 1) b)
    (r : Registered s h) (fits : Fits size m.data) (small : span m.data.length ≤ T)
    (bound : spans (Broadcast.unread (Broadcast.push b m.data) h) + T + 8 < size) :
    Registered (s.setQueue (sendQueue size s.q m.data)) h ∧
      Followed (boundedLaps size T) (· = h) U size (s.setQueue (sendQueue size s.q m.data))
        (sentLap (mustWrap size s.q m.data.length) lap m.data) ((sendQueue size s.q m.data).writeOffset + 1)
        (Broadcast.push b m.data) := by
  obtain ⟨id, own, valid⟩ := r
  have ok := F.tracked.ok
  rw [Broadcast.unread_push (F.valid h rfl), spans_append, spans_singleton] at bound
  have clear := F.clear_of_bound hsize fits own valid small bound
  refine ⟨⟨id, (sameRegistry_sendQueue _ s m.data).owns.mpr own, ?_⟩, F.sendApart hsize fits ?_ ?_⟩
  · refine (sendQueue_readValids hsize ok fits (F.tracked.registry.below h id own)).mpr ⟨valid, ?_, ?_⟩
    · rintro hw ⟨beyond, -⟩
      rw [if_pos hw] at clear
      omega
    · rintro ⟨low, inside, differ⟩
      unfold recordOffset at low inside
      unfold recordCycles at differ
      split_ifs at clear low inside differ with hw
      · omega
      · rcases clear with same | past
        · exact differ same
        · omega
  · intro hw
    have := (mustWrap_iff hsize fits).mp hw
    omega
  · rintro ⟨id', own', -, meets, differ⟩
    obtain rfl := own.slot_unique own'
    rw [record_stop hsize ok fits] at meets
    unfold recordOffset at meets
    unfold recordCycles at differ
    split_ifs at clear meets differ with hw
    · omega
    · rcases clear with same | past
      · exact differ same
      · omega

end bounded

section runs
variable {U : UidSource} {G : Segment} {conflate : Nat → Bool} {before after : List Event} {s₀ s : State}
  {h T : Nat}

/-- After every send the backlog of `h`, one largest record and a wrap tag fit in
the segment; every record sent takes at most `T` bytes. -/
def BoundedBacklog (size T h : Nat) (before after : List Event) : Prop :=
  ∀ past h' m w, past ++ [.sent h' m w] <+: after → span m.data.length ≤ T ∧
    spans (Broadcast.unread (spec (before ++ past ++ [.sent h' m w])) h) + T + 8 < size

instance (size T h : Nat) (before after : List Event) : Decidable (BoundedBacklog size T h before after) :=
  decidable_of_iff (∀ part ∈ after.inits, ∀ e ∈ part.getLast?, ∀ data ∈ e.sent?, span data.length ≤ T ∧
      spans (Broadcast.unread (spec (before ++ part)) h) + T + 8 < size) <| by
    constructor
    · intro all past h' m w part
      rw [List.append_assoc]
      exact all _ ((List.mem_inits _ _).mpr part) _ List.getLast?_concat _ rfl
    · intro bounded part mem e last data sent
      obtain ⟨past, rfl⟩ := List.getLast?_eq_some_iff.mp last
      cases e with
      | sent h' m w =>
          cases sent
          rw [← List.append_assoc]
          exact bounded past h' m w ((List.mem_inits _ _).mp mem)
      | _ => cases sent

/-- Registered and in step with the log. -/
structure Lossless (U : UidSource) (G : Segment) (T h : Nat) (past : List Event) (s : State) : Prop where
  registered : Registered s h
  followed : Followed (boundedLaps G.size T) (· = h) U G.size s (sinceWrap past) (s.q.writeOffset + 1) (spec past)

theorem lossless_start (prior : Run (Step U G) (State.fresh conflate) before s₀) :
    Lossless U G T h (before ++ [.initSubscriber h (full s₀.q)]) (initSubscriber U s₀ h) := by
  have own := initSubscriber_owns (U := U) s₀ h
  have slot := initSubscriber_slot (U := U) s₀ h
  have F := followed_none (prior.snoc (.initSubscriber s₀ h))
  refine ⟨⟨_, own, slot.2.1⟩, ?_⟩
  apply F.restart own (slot.2.2.trans (initSubscriber_same s₀ h).1.symm) F.nonempty
  · rw [spec_append]
    exact Broadcast.seek_valid_self _ h
  · rw [spec_append, Spec.event, Broadcast.unread_seek, Function.update_self]

theorem Lossless.step {past : List Event} {e : Event} {t : State} (K : Lossless U G T h past s)
    (step : Step U G s e t) (peace : Peaceful s e)
    (bounded : ∀ h' m w, e = .sent h' m w → span m.data.length ≤ T ∧
      spans (Broadcast.unread (spec (past ++ [e])) h) + T + 8 < G.size) :
    Lossless U G T h (past ++ [e]) t := by
  cases silent : e.sent? with
  | none =>
      obtain ⟨same, F⟩ := K.followed.call step silent
      refine ⟨K.followed.registered_call K.registered peace step silent, ?_⟩
      rw [sinceWrap_append, Event.lap_silent silent, spec_append, writeOffset_congr same]
      exact F
  | some data =>
      cases step with
      | sent accepted =>
          obtain ⟨small, bound⟩ := bounded _ _ _ rfl
          obtain ⟨-, rfl, fits⟩ := msgSend_sent accepted
          rw [spec_append] at bound
          obtain ⟨r, F⟩ := K.followed.sendBounded G.small K.registered fits small bound
          refine ⟨r, ?_⟩
          rw [sinceWrap_append, spec_append]
          exact F
      | _ => cases silent

theorem lossless_run (prior : Run (Step U G) (State.fresh conflate) before s₀)
    (run : Run (Where U G Peaceful) (initSubscriber U s₀ h) after s)
    (bounded : BoundedBacklog G.size T h (before ++ [.initSubscriber h (full s₀.q)]) after) :
    Lossless U G T h (before ++ [.initSubscriber h (full s₀.q)] ++ after) s := by
  induction run with
  | nil =>
      rw [List.append_nil]
      exact lossless_start prior
  | snoc run one ih =>
      rw [← List.append_assoc]
      apply (ih fun past h' m w sub => bounded past h' m w (sub.trans (List.prefix_append _ _))).step one.1 one.2
      rintro h' m w rfl
      exact bounded _ h' m w (List.prefix_refl _)

/-- Lossless delivery under a bounded backlog. From its registration on, with no
publisher start and no eviction, a subscriber whose backlog stays within the
bound is never invalidated, and every receive takes exactly its oldest unread
message; it is empty exactly when there is none. -/
theorem lossless_under_bounded_backlog (prior : Run (Step U G) (State.fresh conflate) before s₀)
    (run : Run (Where U G Peaceful) (initSubscriber U s₀ h) after s)
    (bounded : BoundedBacklog G.size T h (before ++ [.initSubscriber h (full s₀.q)]) after) :
    (∃ id, Owns s h id ∧ s.q.readValids id = true) ∧
      (conflate h = false → ∀ alloc, ∃ fuel passes t, msgRecv U G.size alloc h fuel s = some (passes, t) ∧
        (alloc = true → returned passes =
          (Broadcast.unread (spec (before ++ [.initSubscriber h (full s₀.q)] ++ after)) h).head?) ∧
        (passes.getLast? = some .empty ↔
          Broadcast.unread (spec (before ++ [.initSubscriber h (full s₀.q)] ++ after)) h = [])) := by
  obtain ⟨⟨id, own, valid⟩, F⟩ := lossless_run prior run bounded
  refine ⟨⟨id, own, valid⟩, ?_⟩
  intro hc alloc
  have plain : (s.handle h).readConflate = false := by
    have whole := (prior.snoc (.initSubscriber s₀ h)).append (run_of_where run)
    exact (run_conflate whole h).trans hc
  obtain ⟨fuel, ws, k, t, returns, -, oldest⟩ := F.tracked.reads alloc G.small rfl own valid
    F.unread_nonempty fun conflating => absurd (plain.symm.trans conflating) Bool.false_ne_true
  refine ⟨fuel, ws ++ [k], t, returns, ?_⟩
  rw [returned, List.getLast?_concat, Option.bind_some]
  cases ahead : Broadcast.unread (spec (before ++ [.initSubscriber h (full s₀.q)] ++ after)) h with
  | nil =>
      rw [ahead] at oldest
      obtain rfl : k = .empty := oldest
      exact ⟨fun _ => rfl, by simp⟩
  | cons m rest =>
      rw [ahead] at oldest
      cases alloc with
      | true =>
          obtain ⟨p, rfl⟩ := oldest
          exact ⟨fun _ => rfl, by simp⟩
      | false =>
          obtain ⟨p, rfl⟩ := oldest
          exact ⟨fun no => absurd no Bool.false_ne_true, by simp⟩

end runs

/-- The small endpoint with a publisher on handle 0. -/
def startedState : State := initPublisher countingUids blankState 0

theorem lossless_under_bounded_backlog_rounds : ∃ after s,
    Run (Where countingUids tinySegment Peaceful) (initSubscriber countingUids startedState 1) after s ∧
    wrapCount after = 2 ∧ Broadcast.unread (spec ([.initPublisher 0] ++
      [.initSubscriber 1 (full startedState.q)] ++ after)) 1 = [[9]] ∧
    (∃ id, Owns s 1 id ∧ s.q.readValids id = true) ∧
    ((fun _ => false) 1 = false → ∀ alloc, ∃ fuel passes t,
      msgRecv countingUids tinySegment.size alloc 1 fuel s = some (passes, t) ∧
        (alloc = true → returned passes = (Broadcast.unread (spec ([.initPublisher 0] ++
          [.initSubscriber 1 (full startedState.q)] ++ after)) 1).head?) ∧
        (passes.getLast? = some .empty ↔ Broadcast.unread (spec ([.initPublisher 0] ++
          [.initSubscriber 1 (full startedState.q)] ++ after)) 1 = [])) := by
  -- another subscriber registers in between and falls behind
  obtain ⟨after, s, -, run, wraps, unread, bounded⟩ := script_shows Peaceful
    (initSubscriber countingUids startedState 1) (inTurns 2 ++ .initSubscriber 2 :: inTurns 3 ++ [.send 0 (byteMsg 9)])
    (p := fun after _ => wrapCount after = 2 ∧ Broadcast.unread (spec ([.initPublisher 0] ++
        [.initSubscriber 1 (full startedState.q)] ++ after)) 1 = [[9]] ∧
      BoundedBacklog tinySegment.size 16 1 ([.initPublisher 0] ++ [.initSubscriber 1 (full startedState.q)]) after)
    (by decide +kernel)
  have prior : Run (Step countingUids tinySegment) (State.fresh fun _ => false) [.initPublisher 0]
      startedState := Run.nil.snoc (.initPublisher blankState 0)
  exact ⟨after, s, run, wraps, unread, lossless_under_bounded_backlog prior run bounded⟩

end Msgq
