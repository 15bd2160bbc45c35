import Msgq.Layout

/-! Opening the shared file again. Every `msgq_new_queue` brings the file to the
caller's own size; the header, the ring and the other handles' sizes stay as
they are. -/
namespace Msgq
open ByteMemory FramedRecords Traces

/-- The shared file: its ring part is `length` bytes long. A live handle keeps
the size it was opened with. `reach` stands in no file: it is the size of the
publisher that started last. -/
structure SharedFile where
  state : State
  length : Nat
  opened : List (Nat × Segment)
  reach : Nat

inductive FileEvent
  | opened (h : Nat) (G : Segment)
  | closed (h : Nat)
  | call (e : Event)

/-- What a longer or a shorter file keeps; the rest is zero. -/
def ftruncate (old new : Nat) (data : Memory) : Memory :=
  if old = new then data else fun p => if p < old ∧ p < new then data p else 0

/-- `msgq_new_queue` and the conflate flag its caller sets. -/
def newQueue (w : SharedFile) (h : Nat) (G : Segment) (conflate : Bool) : SharedFile where
  state := ({ w.state with q := { w.state.q with data := ftruncate w.length G.size w.state.q.data } }).setHandle h
    { readConflate := conflate }
  length := G.size
  opened := (h, G) :: w.opened
  reach := w.reach

/-- The handle is unmapped and deleted. -/
def closeQueue (w : SharedFile) (h : Nat) : SharedFile where
  state := w.state.setHandle h {}
  length := w.length
  opened := w.opened.filter fun o => o.1 ≠ h
  reach := w.reach

def SharedFile.call (w : SharedFile) (G : Segment) (e : Event) (t : State) : SharedFile where
  state := t
  length := w.length
  opened := w.opened
  reach := match e with
    | .initPublisher _ => G.size
    | .initSubscriber _ _ | .sent _ _ _ | .refused _ _ | .aborted _ _ | .recv _ _ | .ready _ _ => w.reach

/-- Opening, closing, and the calls of live handles, each with its own size. -/
inductive FileStep (U : UidSource) : SharedFile → FileEvent → SharedFile → Prop
  | opened {w h} (G conflate) : w.opened.lookup h = none →
      FileStep U w (.opened h G) (newQueue w h G conflate)
  | closed {w h} : FileStep U w (.closed h) (closeQueue w h)
  | call {w G e t} : w.opened.lookup e.caller = some G → Step U G w.state e t →
      FileStep U w (.call e) (w.call G e t)

/-- No file yet. -/
def SharedFile.start : SharedFile := ⟨State.fresh fun _ => false, 0, [], 0⟩

/-- The running lap and a wrap tag behind it. -/
def lapEnd (q : Queue) : Nat := if q.writeOffset = 0 then 0 else q.writeOffset + 8

/-- The handle has nothing to read. -/
def Sated (s : State) (h : Nat) : Prop :=
  ∀ id ∈ (s.handle h).readerId, Owns s h id → s.q.readValids id = true → s.q.readOffset id = s.q.writeOffset

instance (s : State) (h : Nat) : Decidable (Sated s h) :=
  inferInstanceAs (Decidable (∀ id ∈ (s.handle h).readerId, _))

/-- No live handle publishes or has something to read. -/
def SharedFile.Resting (w : SharedFile) : Prop :=
  ∀ o ∈ w.opened, isPublisher w.state.q (w.state.handle o.1) = false ∧ Sated w.state o.1

instance (w : SharedFile) : Decidable w.Resting := inferInstanceAs (Decidable (∀ o ∈ w.opened, _))

/-- A publisher of size `G` starts behind a lap that leaves room for a tag, in a
file as long as its data area, and over no shorter subscriber; nor does a shorter
subscriber register while anybody publishes or reads. -/
def FittingCall (w : SharedFile) (G : Segment) : Event → Prop
  | .initPublisher _ => lapEnd w.state.q ≤ G.size ∧ G.size ≤ w.length ∧
      ∀ o ∈ w.opened, (w.state.handle o.1).readerId ≠ none → G.size ≤ o.2.size
  | .initSubscriber _ _ => w.Resting ∨ w.reach ≤ G.size
  | .sent _ _ _ | .refused _ _ | .aborted _ _ | .recv _ _ | .ready _ _ => True

instance (w : SharedFile) (G : Segment) : ∀ e, Decidable (FittingCall w G e)
  | .initPublisher _ => inferInstanceAs (Decidable (_ ∧ _ ∧ ∀ o ∈ w.opened, _))
  | .initSubscriber _ _ => inferInstanceAs (Decidable (_ ∨ _))
  | .sent _ _ _ | .refused _ _ | .aborted _ _ | .recv _ _ | .ready _ _ => isTrue trivial

/-- While anybody publishes or reads, the file stays as long as the publisher's data area. -/
def Fitting (w : SharedFile) : FileEvent → Prop
  | .opened _ G => w.Resting ∨ w.reach ≤ G.size
  | .closed _ => True
  | .call e => ∀ G ∈ w.opened.lookup e.caller, FittingCall w G e

instance (w : SharedFile) : ∀ e, Decidable (Fitting w e)
  | .opened _ _ => inferInstanceAs (Decidable (_ ∨ _))
  | .closed _ => isTrue trivial
  | .call e => inferInstanceAs (Decidable (∀ G ∈ w.opened.lookup e.caller, FittingCall w G e))

def FittingStep (U : UidSource) (w : SharedFile) (e : FileEvent) (w' : SharedFile) : Prop :=
  FileStep U w e w' ∧ Fitting w e

def FileEvent.wraps : FileEvent → Bool
  | .call e => e.wraps
  | .opened _ _ | .closed _ => false

/-- The bytes of a range lie in the caller's own data area and in the file. -/
def Within (G : Segment) (w : SharedFile) (r : Nat × Nat) : Prop := r.1 + r.2 ≤ G.size ∧ r.1 + r.2 ≤ w.length

instance (G : Segment) (w : SharedFile) (r : Nat × Nat) : Decidable (Within G w r) :=
  inferInstanceAs (Decidable (_ ∧ _))

/-- What an accepted send and a receive of a live handle touch. -/
structure InBounds (U : UidSource) (w : SharedFile) (h : Nat) (G : Segment) : Prop where
  sends : ∀ (m : Msg) q ret signalled,
    msgSend G.size w.state.q (w.state.handle h) m.data = .sent q ret signalled →
    q = Store.applyAll w.state.q (sendStores G.size w.state.q m.data) ∧
    ∀ st ∈ sendStores G.size w.state.q m.data, ∀ r, st.range = some r → Within G w r
  receives : ∀ alloc, ∃ fuel passes t, msgRecv U G.size alloc h fuel w.state = some (passes, t) ∧
    ∀ p ∈ passes, ∀ r ∈ p.ranges, Within G w r

section handles
variable {U : UidSource} {size : Nat} {s : State} {sent lap : List Bytes} {received : Nat → List Bytes}
  {front : Nat} {g : Nat → List Bytes} {h : Nat} {H : Handle}

/-- A handle as `msgq_new_queue` leaves it. -/
def Blank (H : Handle) : Prop := H.readerId = none ∧ H.writeUidLocal = none

theorem Blank.inactive (blank : Blank H) (q : Queue) : isPublisher q H = false := by
  rw [isPublisher, blank.2]
  rfl

theorem Blank.sated (blank : Blank (s.handle h)) : Sated s h := by
  intro id mem
  rw [blank.1] at mem
  cases mem

theorem setHandle_owns (blank : Blank H) {h' id : Nat} (own : Owns (s.setHandle h H) h' id) :
    h' ≠ h ∧ Owns s h' id := by
  by_cases same : h' = h
  · subst same
    have registered : H.readerId = some id := by simpa [State.setHandle] using own.1
    rw [blank.1] at registered
    cases registered
  · refine ⟨same, ?_⟩
    simpa [Owns, State.setHandle, same] using own

theorem setHandle_registry (R : Registry U s) (blank : Blank H) : Registry U (s.setHandle h H) := by
  have other : ∀ h', ((s.setHandle h H).handle h') = s.handle h' ∨ Blank ((s.setHandle h H).handle h') := by
    intro h'
    by_cases same : h' = h
    · subst same
      exact Or.inr (by simpa [State.setHandle] using blank)
    · exact Or.inl (Function.update_of_ne same _ _)
  have reader : ∀ h' id, ((s.setHandle h H).handle h').readerId = some id →
      (s.setHandle h H).handle h' = s.handle h' := by
    intro h' id registered
    rcases other h' with same | none
    · exact same
    · rw [none.1] at registered
      cases registered
  have writer : ∀ h' u, ((s.setHandle h H).handle h').writeUidLocal = some u →
      (s.setHandle h H).handle h' = s.handle h' := by
    intro h' u active
    rcases other h' with same | none
    · exact same
    · rw [none.2] at active
      cases active
  refine ⟨R.count, ?_, R.slots, ?_, ?_, ?_, ?_, ?_⟩
  · intro h' id registered
    exact R.ids h' id (reader h' id registered ▸ registered)
  · intro h' id registered
    have same := reader h' id registered
    rw [same] at registered ⊢
    exact R.locals h' id registered
  · intro a b ia ib ha hb
    have sa := reader a ia ha
    have sb := reader b ib hb
    rw [sa] at ha ⊢
    rw [sb] at hb ⊢
    exact R.unique a b ia ib ha hb
  · intro h' id own
    exact R.below h' id (setHandle_owns blank own).2
  · intro h' u active
    have same := writer h' u active
    rw [same] at active
    exact R.writers h' u active
  · intro a b u ha hb
    have sa := writer a u ha
    have sb := writer b u hb
    rw [sa] at ha
    rw [sb] at hb
    exact R.writer a b u ha hb

theorem Intact.setHandle (I : Intact U size s sent received lap front g) (blank : Blank H) :
    Intact U size (s.setHandle h H) sent received lap front g := by
  refine ⟨⟨setHandle_registry I.tracked.registry blank, I.tracked.ok, ?_⟩, I.order, I.nonempty⟩
  intro h' id hP own valid
  exact I.tracked.at_slot h' id hP (setHandle_owns blank own).2 valid

end handles

section resting
variable {U : UidSource} {size : Nat} {alloc : Bool} {s t : State} {h id : Nat}

/-- Nobody has anything to read. -/
structure AllSated (U : UidSource) (s : State) : Prop where
  registry : Registry U s
  sated : ∀ h, Sated s h

theorem AllSated.initSubscriber (A : AllSated U s) (h : Nat) : AllSated U (initSubscriber U s h) where
  registry := initSubscriber_registry A.registry h
  sated h' id _ own valid := by
    have writer := (initSubscriber_same (U := U) s h).1
    by_cases same : h' = h
    · subst same
      obtain rfl := own.slot_unique (initSubscriber_owns s h')
      rw [Queue.readOffset, Queue.writeOffset, (initSubscriber_slot (U := U) s h').2.2, writer]
    · obtain ⟨before, -, -, flag, pointer⟩ := initSubscriber_owner_ne A.registry.roster same own
      rw [Queue.readOffset, Queue.writeOffset, pointer, writer]
      exact A.sated h' id before.1 before (flag ▸ valid)

theorem AllSated.resetReader (A : AllSated U s) (id : Nat) : AllSated U (s.setQueue (resetReader s.q id)) where
  registry := A.registry.congr (sameRegistry_resetReader s id)
  sated h' id' _ own valid := by
    have before : Owns s h' id' := (sameRegistry_resetReader s id).owns.mp own
    change (unpack64 (Function.update s.q.readPointers id s.q.writePointer id')).2 = s.q.writeOffset
    by_cases same : id' = id
    · rw [same, Function.update_self]
      rfl
    · have flag : Function.update s.q.readValids id true id' = true := valid
      rw [Function.update_of_ne same] at flag ⊢
      exact A.sated h' id' before.1 before flag

/-- A pass registers the handle again, resets its slot, or finds nothing. -/
theorem AllSated.recvPass (A : AllSated U s) :
    (recvPass U size alloc h s).1.ranges = [] ∧ AllSated U (recvPass U size alloc h s).2 := by
  cases hid : (s.handle h).readerId with
  | none =>
      rw [recvPass_unregistered hid]
      exact ⟨rfl, A⟩
  | some id =>
      by_cases huid : (s.handle h).readUidLocal = s.q.readUids id
      swap
      · rw [recvPass_evicted hid huid]
        exact ⟨rfl, A.initSubscriber h⟩
      have own : Owns s h id := ⟨hid, huid⟩
      cases hv : s.q.readValids id with
      | false =>
          rw [recvPass_invalid own hv]
          exact ⟨rfl, A.resetReader id⟩
      | true =>
          rw [recvPass_empty own hv (A.sated h id hid own hv)]
          exact ⟨rfl, A⟩

theorem AllSated.recv {fuel : Nat} {passes : List Pass} (A : AllSated U s)
    (run : msgRecv U size alloc h fuel s = some (passes, t)) :
    (∀ p ∈ passes, p.ranges = []) ∧ AllSated U t := by
  refine loop_invariant (I := fun ks u => (∀ p ∈ ks, p.ranges = []) ∧ AllSated U u) ?_ ⟨by simp, A⟩ run
  rintro ks u ⟨none, A'⟩
  obtain ⟨empty, kept⟩ : (Msgq.recvPass U size alloc h u).1.ranges = [] ∧ _ := A'.recvPass
  refine ⟨fun p mem => ?_, kept⟩
  rcases List.mem_append.mp mem with before | last
  · exact none p before
  · exact List.mem_singleton.mp last ▸ empty

theorem AllSated.ready {fuel : Nat} {passes : List ReadyPass} (A : AllSated U s)
    (run : msgReady U h fuel s = some (passes, t)) : AllSated U t := by
  refine loop_invariant (I := fun _ u => AllSated U u) (fun _ u A' => ?_) A run
  unfold readyPass
  cases (u.handle h).readerId with
  | none => exact A'
  | some id =>
      dsimp only
      split_ifs
      · exact A'.initSubscriber h
      · exact A'.resetReader id
      · exact A'

theorem AllSated.returns (A : AllSated U s) (alloc : Bool) : Returns U size alloc h s := by
  cases hid : (s.handle h).readerId with
  | none => exact returns_done (recvPass_unregistered hid) rfl
  | some id =>
      by_cases huid : (s.handle h).readUidLocal = s.q.readUids id
      swap
      · have own := initSubscriber_owns (U := U) s h
        have valid := (initSubscriber_slot (U := U) s h).2.1
        apply returns_again (recvPass_evicted hid huid) rfl
        exact returns_empty own valid ((A.initSubscriber h).sated h _ own.1 own valid)
      have own : Owns s h id := ⟨hid, huid⟩
      cases hv : s.q.readValids id with
      | true => exact returns_empty own hv (A.sated h id hid own hv)
      | false =>
          have own' : Owns (s.setQueue (Msgq.resetReader s.q id)) h id := (sameRegistry_resetReader s id).owns.mpr own
          have valid : (Msgq.resetReader s.q id).readValids id = true := by simp [Msgq.resetReader]
          apply returns_again (recvPass_invalid own hv) rfl
          exact returns_empty own' valid ((A.resetReader id).sated h id own'.1 own' valid)

/-- While nobody publishes, only a starting publisher brings something to read. -/
theorem AllSated.step {G : Segment} {e : Event} (A : AllSated U s) (step : Step U G s e t)
    (silent : isPublisher s.q (s.handle e.caller) = false) (other : ∀ h, e ≠ .initPublisher h) :
    AllSated U t := by
  cases step with
  | initPublisher h => exact absurd rfl (other h)
  | initSubscriber h => exact A.initSubscriber h
  | refused | aborted => exact A
  | sent accepted => exact absurd (msgSend_sent accepted).1 (Bool.eq_false_iff.mp silent)
  | recv run => exact (A.recv run).2
  | ready run => exact A.ready run

end resting

/-! The ring when the file changes its size. -/

section resizes
variable {U : UidSource} {size bound : Nat} {s : State} {sent lap : List Bytes} {received : Nat → List Bytes}
  {g : Nat → List Bytes}

def State.setData (s : State) (data : Memory) : State := { s with q := { s.q with data } }

theorem ftruncate_agrees {old new p : Nat} (data : Memory) (hold : p ≤ old) (hnew : p ≤ new) :
    AgreeOn data (ftruncate old new data) 0 p := by
  intro a _ below
  rw [ftruncate]
  split_ifs with same
  · rfl
  · exact (if_pos ⟨below.trans_le hold, below.trans_le hnew⟩).symm

/-- Records stay records, though others. -/
theorem ftruncate_chain {old new e : Nat} {data : Memory} {lap : List Bytes} (chain : Chain data 0 lap e) :
    ∃ lap', Chain (ftruncate old new data) 0 lap' e := by
  by_cases same : old = new
  · rw [ftruncate, if_pos same]
    exact ⟨lap, chain⟩
  · have cut : CutOff data (ftruncate old new data) (min old new) := by
      constructor
      · intro a below
        rw [ftruncate, if_neg same, if_pos (lt_min_iff.mp below)]
      · intro a beyond
        rw [ftruncate, if_neg same, if_neg (fun inside => absurd (lt_min_iff.mpr inside) (not_lt.mpr beyond))]
    exact chain.cutOff cut

theorem lapEnd_le {q : Queue} {n : Nat} : lapEnd q ≤ n ↔ q.writeOffset = 0 ∨ q.writeOffset + 8 < n + 1 := by
  unfold lapEnd
  split_ifs <;> omega

/-- A publisher that starts behind any chain that ends with a tag in its area. -/
theorem intact_started (R : Registry U s) (chain : Chain s.q.data 0 lap s.q.writeOffset) {n : Nat}
    (fits : lapEnd s.q ≤ n) (h : Nat) :
    Intact U (n + 1) (initPublisher U s h) [] (fun _ => []) lap s.q.writeOffset (fun _ => []) := by
  have ok : ((initPublisher U s h).q.view (n + 1) lap s.q.writeOffset).Ok := ⟨chain, lapEnd_le.mp fits⟩
  refine ⟨⟨initPublisher_registry R h, ok, ?_⟩, fun _ => List.nil_sublist _, by simp⟩
  intro h' id _ own
  exact absurd own (initPublisher_no_owner R h h' id)

/-- Bytes beyond the bound are nothing to the ring. -/
theorem Intact.setData (I : Intact U (size + 1) s sent received lap s.q.writeOffset g) {data : Memory}
    (agree : AgreeOn s.q.data data 0 size) :
    Intact U (size + 1) (s.setData data) sent received lap s.q.writeOffset g := by
  have inside : s.q.writeOffset ≤ size := by
    have room := I.tracked.ok.room
    simp only [Queue.view] at room
    omega
  refine ⟨⟨I.tracked.registry.congr ⟨rfl, rfl, rfl, rfl, rfl⟩, ?_, ?_⟩, I.order, I.nonempty⟩
  · exact I.tracked.ok.write (agree.mono (le_refl 0) inside)
  · intro h id hP own valid
    exact (I.tracked.at_slot h id hP own valid).agree agree (le_refl _)

end resizes

/-! Runs. -/

/-- The ring goes as far as `reach`: so far the active publisher sends, the file
goes on and every registered subscriber sees. -/
structure InReach (U : UidSource) (w : SharedFile) : Prop where
  inside : w.reach ≤ w.length
  active : ∀ h G, w.opened.lookup h = some G → isPublisher w.state.q (w.state.handle h) = true →
    G.size = w.reach
  registered : ∀ h G, w.opened.lookup h = some G → (w.state.handle h).readerId ≠ none → w.reach ≤ G.size
  intact : ∃ sent received lap g, Intact U (w.reach + 1) w.state sent received lap w.state.q.writeOffset g

/-- Where nobody publishes or reads, the ring may go anywhere. -/
structure Consistent (U : UidSource) (past : List FileEvent) (w : SharedFile) : Prop where
  cycles : w.state.q.writeCycles = past.countP FileEvent.wraps
  small : w.length < 0xFFFFFFFF
  blank : ∀ h, w.opened.lookup h = none → Blank (w.state.handle h)
  registry : Registry U w.state
  chain : ∃ lap, Chain w.state.q.data 0 lap w.state.q.writeOffset
  ring : w.Resting ∨ InReach U w

section runs
variable {U : UidSource} {past : List FileEvent} {w w' : SharedFile} {e : FileEvent} {h : Nat} {G : Segment}

theorem consistent_start (U : UidSource) : Consistent U [] .start where
  cycles := fresh_writeCycles _
  small := by decide
  blank _ _ := ⟨rfl, rfl⟩
  registry := registry_fresh U _
  chain := ⟨[], rfl⟩
  ring := Or.inl fun _ mem => absurd mem (List.not_mem_nil)

theorem mem_of_lookup {h : Nat} {G : Segment} {os : List (Nat × Segment)} (live : os.lookup h = some G) :
    (h, G) ∈ os := by
  induction os with
  | nil => cases live
  | cons o os ih =>
      obtain ⟨k, G'⟩ := o
      rw [List.lookup_cons] at live
      split at live
      · rename_i same
        cases live
        rw [beq_iff_eq.mp same]
        exact List.mem_cons_self
      · exact List.mem_cons_of_mem _ (ih live)

/-- Dead handles publish and read nothing either. -/
theorem Consistent.rests (K : Consistent U past w) (resting : w.Resting) (h : Nat) :
    isPublisher w.state.q (w.state.handle h) = false ∧ Sated w.state h := by
  cases live : w.opened.lookup h with
  | none => exact ⟨(K.blank h live).inactive _, (K.blank h live).sated⟩
  | some G => exact resting _ (mem_of_lookup live)

theorem Consistent.allSated (K : Consistent U past w) (resting : w.Resting) : AllSated U w.state :=
  ⟨K.registry, fun h => (K.rests resting h).2⟩

/-- A new handle publishes nothing and holds no slot. -/
theorem newQueue_handle (conflate : Bool) (h' : Nat) :
    h' = h ∧ Blank ((newQueue w h G conflate).state.handle h') ∨
      h' ≠ h ∧ (newQueue w h G conflate).state.handle h' = w.state.handle h' := by
  by_cases same : h' = h
  · subst same
    exact Or.inl ⟨rfl, by simp [newQueue, State.setHandle, Blank]⟩
  · exact Or.inr ⟨same, by simp [newQueue, State.setHandle, same]⟩

theorem newQueue_lookup (conflate : Bool) {h' : Nat} (ne : h' ≠ h) :
    (newQueue w h G conflate).opened.lookup h' = w.opened.lookup h' := by
  rw [newQueue, List.lookup_cons, beq_eq_false_iff_ne.mpr ne]

theorem InReach.newQueue (K : InReach U w) (conflate : Bool) (fits : w.reach ≤ G.size) :
    InReach U (newQueue w h G conflate) where
  inside := fits
  active h' G' live publishes := by
    rcases newQueue_handle conflate h' with ⟨-, blank⟩ | ⟨ne, same⟩
    · rw [blank.inactive] at publishes
      cases publishes
    · rw [newQueue_lookup conflate ne] at live
      exact K.active h' G' live (same ▸ publishes)
  registered h' G' live holds := by
    rcases newQueue_handle conflate h' with ⟨-, blank⟩ | ⟨ne, same⟩
    · exact absurd blank.1 holds
    · rw [newQueue_lookup conflate ne] at live
      exact K.registered h' G' live (same ▸ holds)
  intact := by
    obtain ⟨sent, received, lap, g, I⟩ := K.intact
    exact ⟨sent, received, lap, g, (I.setData (ftruncate_agrees _ K.inside fits)).setHandle ⟨rfl, rfl⟩⟩

theorem Consistent.newQueue (K : Consistent U past w) (conflate : Bool) (fits : w.Resting ∨ w.reach ≤ G.size) :
    Consistent U (past ++ [.opened h G]) (newQueue w h G conflate) where
  cycles := by
    rw [List.countP_append, ← K.cycles]
    rfl
  small := G.small
  blank h' closed := by
    rcases newQueue_handle conflate h' with ⟨-, blank⟩ | ⟨ne, same⟩
    · exact blank
    · rw [newQueue_lookup conflate ne] at closed
      exact same ▸ K.blank h' closed
  registry := setHandle_registry (K.registry.congr ⟨rfl, rfl, rfl, rfl, rfl⟩) ⟨rfl, rfl⟩
  chain := ftruncate_chain K.chain.choose_spec
  ring := by
    by_cases resting : w.Resting
    · refine Or.inl fun o _ => ?_
      rcases newQueue_handle (w := w) (G := G) conflate o.1 with ⟨-, blank⟩ | ⟨-, same⟩
      · exact ⟨blank.inactive _, blank.sated⟩
      · obtain ⟨silent, sated⟩ := K.rests resting o.1
        refine ⟨same.symm ▸ silent, fun id mem own valid => ?_⟩
        rw [Owns, same] at own
        exact sated id own.1 own valid
    · exact Or.inr ((K.ring.resolve_left resting).newQueue conflate (fits.resolve_left resting))

theorem closeQueue_lookup (h h' : Nat) : (closeQueue w h).opened.lookup h' =
    if h' = h then none else w.opened.lookup h' := by
  rw [closeQueue]
  induction w.opened with
  | nil => split_ifs <;> rfl
  | cons o os ih =>
      obtain ⟨k, G⟩ := o
      by_cases other : k = h
      · rw [List.filter_cons_of_neg (by simpa using other), ih, other]
        split_ifs with same
        · rfl
        · rw [List.lookup_cons, beq_eq_false_iff_ne.mpr same]
      · rw [List.filter_cons_of_pos (by simpa using other), List.lookup_cons, List.lookup_cons, ih]
        split_ifs with same
        · rw [same, beq_eq_false_iff_ne.mpr (Ne.symm other)]
        · rfl

/-- A closed handle is blank, the others stay as they are. -/
theorem closeQueue_handle (h h' : Nat) :
    h' = h ∧ Blank ((closeQueue w h).state.handle h') ∨
      h' ≠ h ∧ (closeQueue w h).state.handle h' = w.state.handle h' := by
  by_cases same : h' = h
  · subst same
    exact Or.inl ⟨rfl, by simp [closeQueue, State.setHandle, Blank]⟩
  · exact Or.inr ⟨same, by simp [closeQueue, State.setHandle, same]⟩

/-- Who is left when a handle is closed was there before. -/
theorem closeQueue_live {h' : Nat} {G' : Segment} (live : (closeQueue w h).opened.lookup h' = some G') :
    w.opened.lookup h' = some G' ∧ (closeQueue w h).state.handle h' = w.state.handle h' := by
  rw [closeQueue_lookup] at live
  split_ifs at live with other
  exact ⟨live, ((closeQueue_handle h h').resolve_left fun same => other same.1).2⟩

theorem Consistent.closeQueue (K : Consistent U past w) (h : Nat) :
    Consistent U (past ++ [.closed h]) (closeQueue w h) where
  cycles := by
    rw [List.countP_append, ← K.cycles]
    rfl
  small := K.small
  blank h' closed := by
    rcases closeQueue_handle (w := w) h h' with ⟨-, blank⟩ | ⟨ne, same⟩
    · exact blank
    · rw [closeQueue_lookup, if_neg ne] at closed
      exact same ▸ K.blank h' closed
  registry := setHandle_registry K.registry ⟨rfl, rfl⟩
  chain := K.chain
  ring := by
    rcases K.ring with resting | ringed
    · refine Or.inl fun o _ => ?_
      rcases closeQueue_handle (w := w) h o.1 with ⟨-, blank⟩ | ⟨-, same⟩
      · exact ⟨blank.inactive _, blank.sated⟩
      · obtain ⟨silent, sated⟩ := K.rests resting o.1
        refine ⟨same.symm ▸ silent, fun id mem own valid => ?_⟩
        rw [Owns, same] at own
        exact sated id own.1 own valid
    · refine Or.inr ⟨ringed.inside, ?_, ?_, ?_⟩
      · intro h' G' live publishes
        obtain ⟨before, same⟩ := closeQueue_live live
        exact ringed.active h' G' before (same ▸ publishes)
      · intro h' G' live holds
        obtain ⟨before, same⟩ := closeQueue_live live
        exact ringed.registered h' G' before (same ▸ holds)
      · obtain ⟨sent, received, lap, g, I⟩ := ringed.intact
        exact ⟨sent, received, lap, g, I.setHandle ⟨rfl, rfl⟩⟩

theorem Consistent.initPublisher (K : Consistent U past w) (live : w.opened.lookup h = some G)
    (fits : FittingCall w G (.initPublisher h)) :
    Consistent U (past ++ [.call (.initPublisher h)])
      (w.call G (.initPublisher h) (Msgq.initPublisher U w.state h)) := by
  obtain ⟨lap, chain⟩ := K.chain
  obtain ⟨lap_fits, inside, longer⟩ := fits
  refine ⟨?_, K.small, ?_, initPublisher_registry K.registry h, ⟨lap, chain⟩, Or.inr ⟨inside, ?_, ?_, ?_⟩⟩
  · rw [List.countP_append, ← K.cycles]
    rfl
  · intro h' closed
    have other : h' ≠ h := by
      rintro rfl
      rw [show w.opened.lookup h' = none from closed] at live
      cases live
    exact (initPublisher_handle_ne (U := U) w.state other).symm ▸ K.blank h' closed
  · intro h' G' live' publishes
    have uid : ((Msgq.initPublisher U w.state h).handle h').writeUidLocal = some (U.draw w.state.drawn) :=
      beq_iff_eq.mp publishes
    by_cases same : h' = h
    · subst same
      rw [show w.opened.lookup h' = some G' from live'] at live
      cases live
      rfl
    · -- nobody else has drawn the new uid
      rw [initPublisher_handle_ne w.state same] at uid
      exact absurd rfl (draw_fresh (K.registry.writers h' _ uid))
  · intro h' G' live' holds
    change ((Msgq.initPublisher U w.state h).handle h').readerId ≠ none at holds
    rw [initPublisher_readerId] at holds
    exact longer _ (mem_of_lookup live') holds
  · exact ⟨_, _, _, _, intact_started K.registry chain lap_fits h⟩

/-- A handle registers by msgq_init_subscriber; recv and ready register it anew only. -/
theorem step_registers {s t : State} {e : Event} (step : Step U G s e t) (h : Nat)
    (holds : (t.handle h).readerId ≠ none) :
    (s.handle h).readerId ≠ none ∨ ∃ evicts, e = .initSubscriber h evicts := by
  by_cases mine : h = e.caller
  swap
  · exact Or.inl (step_handle_ne step mine ▸ holds)
  have passes : ∀ {u v}, OnePass U h u v → ((u.handle h).readerId ≠ none → (s.handle h).readerId ≠ none) →
      (v.handle h).readerId ≠ none → (s.handle h).readerId ≠ none := by
    intro u v one before
    cases one with
    | stay | reset | move => exact before
    | register registered => exact fun _ => before (registered ▸ Option.some_ne_none _)
  cases step with
  | initPublisher h' => exact Or.inl (by rwa [initPublisher_readerId] at holds)
  | initSubscriber h' => exact Or.inr ⟨_, by rw [mine]; rfl⟩
  | sent | refused | aborted => exact Or.inl holds
  | recv run =>
      obtain rfl : h = _ := mine
      exact Or.inl (recv_keeps (I := fun u => (u.handle _).readerId ≠ none → (s.handle _).readerId ≠ none)
        passes id run holds)
  | ready run =>
      obtain rfl : h = _ := mine
      exact Or.inl (ready_keeps (I := fun u => (u.handle _).readerId ≠ none → (s.handle _).readerId ≠ none)
        passes id run holds)

/-- Any other call of a handle in a ring that may be read. -/
theorem InReach.step {e : Event} {t : State} (K : InReach U w)
    (turn : e.wraps = true → w.state.q.writeCycles + 1 < 2 ^ 32)
    (live : w.opened.lookup e.caller = some G) (step : Step U G w.state e t)
    (other : ∀ h, e ≠ .initPublisher h) (fits : ∀ h evicts, e = .initSubscriber h evicts → w.reach ≤ G.size) :
    t.q.writeCycles = w.state.q.writeCycles + (if e.wraps then 1 else 0) ∧ InReach U (w.call G e t) := by
  obtain ⟨sent, received, lap, g, I⟩ := K.intact
  have reach : (w.call G e t).reach = w.reach := by
    cases e with
    | initPublisher h => exact absurd rfl (other h)
    | _ => rfl
  have sends : ∀ data, e.sent? = some data → G.size ≤ w.reach + 1 ∧
      w.state.q.writeOffset = w.state.q.writeOffset ∧ (e.wraps = true → w.state.q.writeCycles + 1 < 2 ^ 32) := by
    intro data some
    refine ⟨?_, rfl, turn⟩
    cases step with
    | sent accepted => exact (K.active _ G live (msgSend_sent accepted).1).trans_le (Nat.le_succ _)
    | _ => cases some
  obtain ⟨-, cycles, front, g', I', at_off⟩ := I.step step
    (fun holds => Nat.succ_le_succ (K.registered _ G live holds)) sends
  obtain rfl := at_off (Or.inl rfl)
  refine ⟨cycles, reach ▸ K.inside, ?_, ?_, _, _, _, g', reach ▸ I'⟩
  · intro h' G' live' publishes
    rw [reach]
    exact K.active h' G' live' ((step_isPublisher step other h').symm.trans publishes)
  · intro h' G' live' holds
    rw [reach]
    rcases step_registers step h' holds with before | ⟨evicts, same⟩
    · exact K.registered h' G' live' before
    · have mine : w.opened.lookup e.caller = some G' := by
        rw [same]
        exact live'
      rw [live] at mine
      cases mine
      exact fits h' evicts same

/-- While nobody publishes or reads, other calls leave the ring alone. -/
theorem Consistent.resting_step {e : Event} {t : State} (K : Consistent U past w) (resting : w.Resting)
    (step : Step U G w.state e t) (other : ∀ h, e ≠ .initPublisher h) :
    e.wraps = false ∧ t.q.writePointer = w.state.q.writePointer ∧ t.q.data = w.state.q.data ∧
      (w.call G e t).Resting := by
  have silent := (K.rests resting e.caller).1
  have sated := (K.allSated resting).step step silent other
  refine and_assoc.mp (and_assoc.mp ⟨?_, fun o _ => ⟨?_, sated.sated o.1⟩⟩)
  · cases step with
    | initPublisher h => exact absurd rfl (other h)
    | initSubscriber h =>
        obtain ⟨pointer, -, data⟩ := initSubscriber_same (U := U) w.state h
        exact ⟨⟨rfl, pointer⟩, data⟩
    | refused | aborted => exact ⟨⟨rfl, rfl⟩, rfl⟩
    | sent accepted => exact absurd (msgSend_sent accepted).1 (Bool.eq_false_iff.mp silent)
    | recv run => exact ⟨⟨rfl, (quiet_recv run).writePointer⟩, (quiet_recv run).data⟩
    | ready run => exact ⟨⟨rfl, (quiet_ready run).writePointer⟩, (quiet_ready run).data⟩
  · exact (step_isPublisher step other o.1).trans (K.rests resting o.1).1

/-- A call that starts no publisher. -/
theorem Consistent.goes_on {e : Event} {t : State} (K : Consistent U past w)
    (few : (past ++ [FileEvent.call e]).countP FileEvent.wraps < 2 ^ 32)
    (live : w.opened.lookup e.caller = some G) (step : Step U G w.state e t)
    (other : ∀ h, e ≠ .initPublisher h) (fits : FittingCall w G e) :
    Consistent U (past ++ [.call e]) (w.call G e t) := by
  have count : (past ++ [FileEvent.call e]).countP FileEvent.wraps =
      past.countP FileEvent.wraps + (if e.wraps then 1 else 0) := by
    rw [List.countP_append, List.countP_singleton]
    rfl
  have blank : ∀ h', (w.call G e t).opened.lookup h' = none → Blank ((w.call G e t).state.handle h') := by
    intro h' closed
    have ne : h' ≠ e.caller := by
      rintro rfl
      rw [show w.opened.lookup e.caller = none from closed] at live
      cases live
    exact (step_handle_ne step ne).symm ▸ K.blank h' closed
  have registry : Registry U (w.call G e t).state := K.registry.step step
  by_cases resting : w.Resting
  · obtain ⟨stays, pointer, data, rests⟩ := K.resting_step resting step other
    have cycles : t.q.writeCycles = w.state.q.writeCycles := congrArg (fun word => (unpack64 word).1) pointer
    have offset : t.q.writeOffset = w.state.q.writeOffset := congrArg (fun word => (unpack64 word).2) pointer
    refine ⟨?_, K.small, blank, registry, ?_, Or.inl rests⟩
    · rw [count, stays, ← K.cycles]
      exact cycles
    · change ∃ lap, Chain t.q.data 0 lap t.q.writeOffset
      rw [data, offset]
      exact K.chain
  · have turn : e.wraps = true → w.state.q.writeCycles + 1 < 2 ^ 32 := by
      intro hw
      rw [count, if_pos hw, ← K.cycles] at few
      exact few
    obtain ⟨cycles, ringed⟩ := (K.ring.resolve_left resting).step turn live step other
      (by rintro h evicts rfl; exact fits.resolve_left resting)
    refine ⟨?_, K.small, blank, registry, ?_, Or.inr ringed⟩
    · exact cycles.trans (K.cycles ▸ count.symm)
    · obtain ⟨sent, received, lap, g, I⟩ := ringed.intact
      exact ⟨lap, I.tracked.ok.chain⟩

theorem consistent (run : Run (FittingStep U) .start past w) (few : past.countP FileEvent.wraps < 2 ^ 32) :
    Consistent U past w := by
  refine run.invariant (I := fun past w => past.countP FileEvent.wraps < 2 ^ 32 → Consistent U past w)
    (fun _ => consistent_start U) ?_ few
  rintro past w e w' _ ih ⟨step, fits⟩ few
  have before : past.countP FileEvent.wraps < 2 ^ 32 := by
    rw [List.countP_append] at few
    omega
  have K := ih before
  cases step with
  | opened G conflate => exact K.newQueue conflate fits
  | closed => exact K.closeQueue _
  | @call G e t live step =>
      by_cases starts : ∃ h, e = .initPublisher h
      · obtain ⟨h, rfl⟩ := starts
        cases step
        exact K.initPublisher live (fits G live)
      · exact K.goes_on few live step (fun h same => starts ⟨h, same⟩) (fits G live)

/-- Reopening in bounds: handles of different sizes may be open at once. As long as
publishers start behind a lap that fits them, in a file that is long enough, and
neither the file nor a subscriber is shorter than a ring that somebody writes or
reads, each send and each receive of a live handle touches only its own data area
and the file. -/
theorem reopened_in_bounds (run : Run (FittingStep U) .start past w)
    (few : past.countP FileEvent.wraps < 2 ^ 32) (live : w.opened.lookup h = some G) :
    InBounds U w h G := by
  have K := consistent run few
  constructor
  · intro m q ret signalled accepted
    obtain ⟨publishes, same, fits⟩ := msgSend_sent accepted
    rcases K.ring with resting | ringed
    · exact absurd publishes (Bool.eq_false_iff.mp (K.rests resting h).1)
    obtain ⟨sent, received, lap, g, I⟩ := ringed.intact
    have own : G.size = w.reach := ringed.active h G live publishes
    refine ⟨same.trans (applyAll_sendStores _ _ _).symm, ?_⟩
    intro st mem r hr
    have inside := sendStores_range G.small I.tracked.ok (own ▸ le_refl _) fits mem hr
    exact ⟨inside, inside.trans (own.trans_le ringed.inside)⟩
  · intro alloc
    by_cases hid : (w.state.handle h).readerId = none
    · exact ⟨1, _, _, loop_done 0 (recvPass_unregistered hid) rfl, by simp [Pass.ranges]⟩
    rcases K.ring with resting | ringed
    · have sated := K.allSated resting
      have returns : Returns U G.size alloc h w.state := sated.returns alloc
      obtain ⟨fuel, ⟨passes, t⟩, returned⟩ := returns
      refine ⟨fuel, passes, t, returned, fun p mem r hr => ?_⟩
      rw [(sated.recv returned).1 p mem] at hr
      cases hr
    · obtain ⟨sent, received, lap, g, I⟩ := ringed.intact
      have own : w.reach ≤ G.size := ringed.registered h G live hid
      have nonempty : ∀ m ∈ g h, m ≠ [] := fun m hm =>
        I.nonempty m ((I.order h).subset (List.mem_append_right _ hm))
      obtain ⟨fuel, ⟨passes, t⟩, returned⟩ :=
        I.tracked.returns alloc G.small (Nat.succ_le_succ own) trivial nonempty
      refine ⟨fuel, passes, t, returned, fun p mem r hr => ?_⟩
      have inside := (I.recv G.small (Nat.succ_le_succ own) returned).2.2.1 p mem r hr
      have inside : r.1 + r.2 ≤ w.reach := Nat.lt_succ_iff.mp inside
      exact ⟨inside.trans own, inside.trans ringed.inside⟩

end runs

/-! Executing a list of openings, closings and calls. -/

inductive FileCall
  | opened (h : Nat) (G : Segment)
  | closed (h : Nat)
  | call (c : Call)

def fileExec (U : UidSource) (fuel : Nat) (w : SharedFile) : FileCall → Option (FileEvent × SharedFile)
  | .opened h G => match w.opened.lookup h with
      | none => some (.opened h G, newQueue w h G false)
      | some _ => none
  | .closed h => some (.closed h, closeQueue w h)
  | .call c => match w.opened.lookup c.caller with
      | some G => (exec U G fuel w.state c).map fun r => (.call r.1, w.call G r.1 r.2)
      | none => none

section execution
variable {U : UidSource} {fuel : Nat} {w w' : SharedFile}

theorem fileExec_step {c : FileCall} {e : FileEvent} (h : fileExec U fuel w c = some (e, w')) :
    FileStep U w e w' := by
  cases c with
  | opened k G =>
      rw [fileExec] at h
      split at h
      · rename_i closed
        cases h
        exact .opened G false closed
      · cases h
  | closed k =>
      cases h
      exact .closed
  | call c =>
      rw [fileExec] at h
      split at h
      · rename_i live
        obtain ⟨⟨e, t⟩, one, same⟩ := Option.map_eq_some_iff.mp h
        cases same
        exact .call (exec_caller one ▸ live) (exec_step one)
      · cases h

/-- Four messages of one byte. -/
def fourSends (h : Nat) : List FileCall := List.replicate 4 (.call (.send h (byteMsg 1)))

def wideSegment : Segment := ⟨96, by decide⟩

/-- Files of 96, 32, 48, 96 and 64 bytes. At first the lap is longer than the file; the
second publisher is the shortest handle and starts where just the tag fits before its
end, and its send wraps. -/
def coexisting : List FileCall :=
  [.opened 0 wideSegment, .call (.initPublisher 0), .call (.send 0 (filledMsg 7 1 eight_bytes_small)),
    .call (.send 0 (filledMsg 15 2 (by decide))), .closed 0, .opened 3 ⟨32, by decide⟩, .closed 3,
    .opened 1 tinySegment, .opened 2 wideSegment, .call (.initPublisher 1), .call (.initSubscriber 2),
    .opened 0 ⟨64, by decide⟩, .call (.send 1 (byteMsg 3)), .call (.recv 2 true), .call (.initSubscriber 0),
    .call (.send 1 (byteMsg 4))]

theorem reopened_in_bounds_coexisting : ∃ past w, Run (FittingStep countingUids) .start past w ∧
    past.countP FileEvent.wraps = 1 ∧ w.length = 64 ∧
    InBounds countingUids w 0 ⟨64, by decide⟩ ∧ InBounds countingUids w 1 tinySegment ∧
      InBounds countingUids w 2 wideSegment := by
  have shows : (perform (fileExec countingUids 4) Fitting .start coexisting).any
      (fun r => decide (r.1.countP FileEvent.wraps = 1 ∧ r.2.length = 64 ∧
        r.2.opened = [(0, ⟨64, by decide⟩), (2, wideSegment), (1, tinySegment)])) = true := by
    decide +kernel
  obtain ⟨⟨past, w⟩, ends, shown⟩ := (Option.any_eq_true _ _).mp shows
  obtain ⟨wraps, length, opened⟩ := of_decide_eq_true shown
  have run := performed ends fun _ _ _ _ => fileExec_step
  have few : past.countP FileEvent.wraps < 2 ^ 32 := by
    rw [wraps]
    decide
  refine ⟨past, w, run, wraps, length, ?_, ?_, ?_⟩
  · exact reopened_in_bounds run few (by rw [opened]; rfl)
  · exact reopened_in_bounds run few (by rw [opened]; rfl)
  · exact reopened_in_bounds run few (by rw [opened]; rfl)

/-! What the condition keeps out. -/

/-- A receive, or a send of one byte, through the first handle goes astray. -/
def strays (w : SharedFile) : Bool :=
  (w.opened.lookup 0).any fun G =>
    (match msgSend G.size w.state.q (w.state.handle 0) (byteMsg 1).data with
      | .sent _ _ _ => (sendStores G.size w.state.q (byteMsg 1).data).any
          fun st => st.range.any fun r => !decide (Within G w r)
      | .refused | .aborted => false) ||
    (msgRecv countingUids G.size true 0 4 w.state).any
      fun r => r.1.any fun p => p.ranges.any fun r => !decide (Within G w r)

theorem strays_out_of_bounds (h : strays w = true) :
    ∃ G, w.opened.lookup 0 = some G ∧ ¬ InBounds countingUids w 0 G := by
  obtain ⟨G, live, either⟩ := (Option.any_eq_true _ _).mp h
  refine ⟨G, live, fun inside => ?_⟩
  rcases Bool.or_eq_true_iff.mp either with sends | receives
  · split at sends
    · rename_i q ret signalled accepted
      obtain ⟨st, mem, ranged⟩ := List.any_eq_true.mp sends
      obtain ⟨r, hr, out⟩ := (Option.any_eq_true _ _).mp ranged
      have within := (inside.sends (byteMsg 1) q ret signalled accepted).2 st mem r hr
      simp [within] at out
    · cases sends
    · cases sends
  · obtain ⟨⟨passes, t⟩, returned, some⟩ := (Option.any_eq_true _ _).mp receives
    obtain ⟨p, mem, ranged⟩ := List.any_eq_true.mp some
    obtain ⟨r, hr, out⟩ := List.any_eq_true.mp ranged
    obtain ⟨fuel, passes', t', returned', within⟩ := inside.receives true
    cases loop_unique returned returned'
    have := within p mem r hr
    simp [this] at out

/-- Behind these calls the first handle is live and not in bounds. -/
def Straying (calls : List FileCall) : Prop := ∃ past w G,
  perform (fileExec countingUids 4) (fun _ _ => True) .start calls = some (past, w) ∧
    Run (FileStep countingUids) .start past w ∧ past.countP FileEvent.wraps = 0 ∧
    w.opened.lookup 0 = some G ∧ ¬ InBounds countingUids w 0 G

theorem straying {calls : List FileCall}
    (shows : (perform (fileExec countingUids 4) (fun _ _ => True) .start calls).any
      (fun r => decide (r.1.countP FileEvent.wraps = 0) && strays r.2) = true) : Straying calls := by
  obtain ⟨⟨past, w⟩, ends, shown⟩ := (Option.any_eq_true _ _).mp shows
  obtain ⟨few, stray⟩ := Bool.and_eq_true_iff.mp shown
  obtain ⟨G, live, out⟩ := strays_out_of_bounds stray
  have run := (performed ends fun _ _ _ _ => fileExec_step).mono fun _ _ _ step => step.1
  exact ⟨past, w, G, ends, run, of_decide_eq_true few, live, out⟩

/-- A shorter file behind a lap that went further. -/
def shorterAgain : List FileCall :=
  [.opened 0 wideSegment, .call (.initPublisher 0)] ++ fourSends 0 ++
    [.closed 0, .opened 0 tinySegment, .call (.initPublisher 0)]

/-- A shorter file under a live publisher. -/
def shorterUnder : List FileCall :=
  [.opened 0 wideSegment, .call (.initPublisher 0)] ++ fourSends 0 ++ [.opened 1 tinySegment]

/-- A shorter file before a subscriber has read what a closed publisher sent. -/
def shorterBehind : List FileCall :=
  [.opened 1 wideSegment, .opened 0 wideSegment, .call (.initPublisher 1), .call (.initSubscriber 0)] ++
    fourSends 1 ++ [.call (.recv 0 true), .call (.recv 0 true), .call (.recv 0 true), .closed 1, .opened 2 tinySegment]

/-- A publisher longer than the file. -/
def longerStart : List FileCall :=
  [.opened 0 wideSegment, .opened 1 tinySegment, .call (.initPublisher 0)] ++ fourSends 0

/-- A publisher longer than a registered subscriber. -/
def longerOver : List FileCall :=
  [.opened 0 tinySegment, .opened 1 wideSegment, .call (.initSubscriber 0), .call (.initPublisher 1)] ++
    fourSends 1 ++ [.call (.recv 0 true), .call (.send 1 (byteMsg 1))]

/-- A subscriber shorter than the publisher. -/
def longerUnder : List FileCall :=
  [.opened 0 tinySegment, .opened 1 wideSegment, .call (.initPublisher 1)] ++ fourSends 1 ++
    [.call (.initSubscriber 0), .call (.send 1 (byteMsg 1))]

/-! The cycle counters have 32 bits: behind 2^32 wraps the writer is back in the
cycle of a reader that stands where every lap has ended. -/

/-- Two records of 32 bytes make a lap. -/
def lapMsg : Msg := filledMsg 16 1 (by decide)

/-- Its second word reads as the size 95. -/
def tagLikeMsg : Msg where
  data := List.replicate 8 0 ++ 95 :: List.replicate 15 0
  nonempty := by decide
  real := by
    change 3 * (24 + 15) < 2 ^ 64
    decide

/-- A publisher at `(c, w)` and a subscriber whose flag is still set at `(0, 64)`. -/
structure LeftBehind (c w : Nat) (f : SharedFile) : Prop where
  writer : (f.opened.lookup 1).map Segment.size = some 96
  reader : (f.opened.lookup 0).map Segment.size = some 96
  active : isPublisher f.state.q (f.state.handle 1) = true
  own : Owns f.state 0 0
  plain : (f.state.handle 0).readConflate = false
  count : f.state.q.numReaders = 1
  pointer : unpack64 f.state.q.writePointer = (c, w)
  place : unpack64 (f.state.q.readPointers 0) = (0, 64)
  valid : f.state.q.readValids 0 = true

theorem LeftBehind.accepts {c w : Nat} {f : SharedFile} {m : Msg} {wrap : Bool} {q : Queue} (L : LeftBehind c w f)
    (admitted : admits 96 m.data.length = true) (wraps : mustWrap 96 f.state.q m.data.length = wrap)
    (whole : sendQueue 96 f.state.q m.data = q) :
    FittingStep U f (.call (.sent 1 m wrap)) { f with state := f.state.setQueue q } := by
  obtain ⟨G, live, size⟩ := Option.map_eq_some_iff.mp L.writer
  have accepted : msgSend G.size f.state.q (f.state.handle 1) m.data =
      .sent q (toInt m.data.length)
        ((List.range f.state.q.numReaders).map fun i => f.state.q.readUids i % 2 ^ 32) := by
    rw [msgSend, L.active, size, admitted, applyAll_sendStores, whole]
    rfl
  refine ⟨?_, fun _ _ => trivial⟩
  rw [← wraps, ← size]
  exact .call live (.sent accepted)

/-- A send that does not wrap and leaves the reader alone. -/
theorem LeftBehind.send {c w stop : Nat} {f : SharedFile} {m : Msg} (L : LeftBehind c w f) (hc : c < 2 ^ 32)
    (admitted : admits 96 m.data.length = true) (fits : 0 < remainingSpace 96 w (totalMsgSize m.data.length))
    (ends : align (w + 8 + m.data.length) = stop) (low : stop < 2 ^ 32) (apart : c = 0 ∨ stop ≤ 64) :
    ∃ f', FittingStep U f (.call (.sent 1 m false)) f' ∧
      f'.state.q.data = writeRecord f.state.q.data w m.data ∧ LeftBehind c stop f' := by
  have hcycles : f.state.q.writeCycles = c := congrArg Prod.fst L.pointer
  have hoffset : f.state.q.writeOffset = w := congrArg Prod.snd L.pointer
  have stays : mustWrap 96 f.state.q m.data.length = false := by
    rw [mustWrap, hoffset, decide_eq_false_iff_not, not_le]
    exact fits
  have whole : sendQueue 96 f.state.q m.data = recordQueue f.state.q c w m.data := by
    simp [sendQueue, recordCycles, recordOffset, stays, hcycles, hoffset]
  refine ⟨_, L.accepts admitted stays whole, rfl, ?_⟩
  refine ⟨L.writer, L.reader, L.active, L.own, L.plain, L.count, ?_, L.place, ?_⟩
  · have same : w + m.data.length + 8 = w + 8 + m.data.length := by omega
    have stored : (recordQueue f.state.q c w m.data).writePointer = pack64 c stop := by
      rw [recordQueue, same, ends, Nat.mod_eq_of_lt low]
    exact (congrArg unpack64 stored).trans (Prod.ext (unpack64_pack64_fst hc) (unpack64_pack64_snd low))
  · refine (recordQueue_readValids (L.count ▸ Nat.one_pos)).mpr ⟨L.valid, ?_⟩
    rw [ends, inArea_iff, Queue.readOffset, Queue.readCycles, L.place]
    rintro ⟨-, inside, other⟩
    rcases apart with same | before
    · exact other same.symm
    · exact absurd before (not_le.mpr inside)

/-- A send that wraps where the last lap ended and the reader stands. -/
theorem LeftBehind.wrap {c : Nat} {f : SharedFile} (L : LeftBehind c 64 f) :
    ∃ f', FittingStep U f (.call (.sent 1 lapMsg true)) f' ∧ LeftBehind (nextCycle c) 32 f' := by
  have hcycles : f.state.q.writeCycles = c := congrArg Prod.fst L.pointer
  have hoffset : f.state.q.writeOffset = 64 := congrArg Prod.snd L.pointer
  have place : f.state.q.readOffset 0 = 64 := congrArg Prod.snd L.place
  have wraps : mustWrap 96 f.state.q lapMsg.data.length = true := by
    rw [mustWrap, hoffset]
    decide
  have whole : sendQueue 96 f.state.q lapMsg.data =
      recordQueue (wrapQueue f.state.q) (nextCycle c) 0 lapMsg.data := by
    simp [sendQueue, recordCycles, recordOffset, wraps, hcycles]
  have first : 0 < f.state.q.numReaders := L.count ▸ Nat.one_pos
  refine ⟨_, L.accepts (by decide) wraps whole, ?_⟩
  refine ⟨L.writer, L.reader, L.active, L.own, L.plain, L.count, ?_, L.place, ?_⟩
  · exact Prod.ext (unpack64_pack64_fst (nextCycle_lt c)) (unpack64_pack64_snd (by decide))
  · have kept : (wrapQueue f.state.q).readValids 0 = true := by
      refine (wrapQueue_readValids first).mpr ⟨L.valid, ?_⟩
      rw [beyondWriter_iff, hoffset, place]
      exact fun beyond => absurd beyond.1 (lt_irrefl 64)
    refine (recordQueue_readValids (q := wrapQueue f.state.q) first).mpr ⟨kept, ?_⟩
    rw [inArea_iff, show (wrapQueue f.state.q).readOffset 0 = 64 from place]
    exact fun inside => absurd inside.2.1 (by decide)

/-- Laps of two messages, each ending where the reader stands. -/
theorem laps_end (n : Nat) : ∃ past f, Run (FittingStep countingUids) .start past f ∧
    past.countP FileEvent.wraps = n ∧ LeftBehind (n % 2 ^ 32) 64 f := by
  induction n with
  | zero =>
      have shows : (perform (fileExec countingUids 4) Fitting .start ([.opened 1 wideSegment, .opened 0 wideSegment,
          .call (.initPublisher 1), .call (.send 1 lapMsg), .call (.send 1 lapMsg), .call (.initSubscriber 0)])).any
          (fun r => decide (r.1.countP FileEvent.wraps = 0 ∧ (r.2.opened.lookup 1).map Segment.size = some 96 ∧
            (r.2.opened.lookup 0).map Segment.size = some 96 ∧
            isPublisher r.2.state.q (r.2.state.handle 1) = true ∧ Owns r.2.state 0 0 ∧
            (r.2.state.handle 0).readConflate = false ∧ r.2.state.q.numReaders = 1 ∧
            unpack64 r.2.state.q.writePointer = (0, 64) ∧ unpack64 (r.2.state.q.readPointers 0) = (0, 64) ∧
            r.2.state.q.readValids 0 = true)) = true := by
        decide +kernel
      obtain ⟨⟨past, f⟩, ends, shown⟩ := (Option.any_eq_true _ _).mp shows
      obtain ⟨none, writer, reader, active, own, plain, count, pointer, place, valid⟩ := of_decide_eq_true shown
      have run := performed ends fun _ _ _ _ => fileExec_step
      exact ⟨past, f, run, none, writer, reader, active, own, plain, count, pointer, place, valid⟩
  | succ n ih =>
      obtain ⟨past, f, run, count, L⟩ := ih
      obtain ⟨f₁, first, L₁⟩ := L.wrap (U := countingUids)
      obtain ⟨f₂, second, -, L₂⟩ := L₁.send (U := countingUids) (m := lapMsg) (nextCycle_lt _) (by decide)
        (by decide) (by decide : align (32 + 8 + lapMsg.data.length) = 64) (by decide) (Or.inr (le_refl 64))
      refine ⟨_, f₂, (run.snoc first).snoc second, ?_, ?_⟩
      · rw [List.countP_append, List.countP_append, count]
        rfl
      · have next : (n + 1) % 2 ^ 32 = nextCycle (n % 2 ^ 32) := (Nat.mod_add_mod n (2 ^ 32) 1).symm
        rw [next]
        exact L₂

/-- The reader takes the payload at 64 for a record of 95 bytes. -/
theorem LeftBehind.strays {f : SharedFile} {data : Memory} (L : LeftBehind 0 80 f)
    (covered : f.state.q.data = writeRecord data 48 tagLikeMsg.data) {G : Segment} (size : G.size = 96) :
    ¬ InBounds U f 0 G := by
  intro inside
  have tag : loadWord f.state.q.data 64 = 95 := by
    have payload : readBytes f.state.q.data 56 24 = tagLikeMsg.data := by
      rw [covered]
      exact readBytes_writeBytes _ 56 tagLikeMsg.data
    have word : readBytes f.state.q.data 64 8 = (tagLikeMsg.data.drop 8).take 8 := by
      rw [← payload, drop_readBytes, take_readBytes f.state.q.data 64 (by decide)]
    rw [loadWord, word]
    decide
  have place : f.state.q.readOffset 0 = 64 := congrArg Prod.snd L.place
  have offset : f.state.q.writeOffset = 80 := congrArg Prod.snd L.pointer
  have one : (recvPass U G.size true 0 f.state).1 = .message 64 (readBytes f.state.q.data 72 95) := by
    simp [recvPass, L.own.1, L.own.2, L.valid, place, offset, tag, size, L.plain, setReadPointer, toU64]
  obtain ⟨fuel, passes, t, returned, within⟩ := inside.receives true
  have alone : msgRecv U G.size true 0 1 f.state =
      some ([.message 64 (readBytes f.state.q.data 72 95)], (recvPass U G.size true 0 f.state).2) :=
    loop_done 0 (Prod.ext one rfl) rfl
  cases loop_unique alone returned
  have reached := (within _ (List.mem_singleton_self _) (72, 95) (by simp [Pass.ranges])).1
  rw [size] at reached
  exact absurd reached (by decide)

/-- Everybody has the same size, and the 2^32-th wrap lets a receive read on beyond
the data area. -/
theorem wrapping_strays : ∃ past f G, Run (FittingStep countingUids) .start past f ∧
    past.countP FileEvent.wraps = 2 ^ 32 ∧ f.opened.lookup 0 = some G ∧ ¬ InBounds countingUids f 0 G := by
  obtain ⟨past, f, run, count, L⟩ := laps_end (2 ^ 32 - 1)
  obtain ⟨f₁, first, L₁⟩ := L.wrap (U := countingUids)
  have round : nextCycle ((2 ^ 32 - 1) % 2 ^ 32) = 0 := by decide
  rw [round] at L₁
  obtain ⟨f₂, second, -, L₂⟩ := L₁.send (U := countingUids) (m := byteMsg 1) (Nat.two_pow_pos 32) (by decide) (by decide)
    rfl (by decide) (Or.inl rfl)
  obtain ⟨f₃, third, covered, L₃⟩ := L₂.send (U := countingUids) (m := tagLikeMsg) (Nat.two_pow_pos 32) (by decide)
    (by decide) rfl (by decide) (Or.inl rfl)
  obtain ⟨G, live, size⟩ := Option.map_eq_some_iff.mp L₃.reader
  refine ⟨_, f₃, G, ((run.snoc first).snoc second).snoc third, ?_, live, L₃.strays covered size⟩
  rw [List.countP_append, List.countP_append, List.countP_append, count]
  rfl

/-- The ways out by resizing, one for each condition, and one in which all sizes agree. -/
theorem reopening_strays : Straying shorterAgain ∧ Straying shorterUnder ∧ Straying shorterBehind ∧
    Straying longerStart ∧ Straying longerOver ∧ Straying longerUnder ∧
    ∃ past f G, Run (FittingStep countingUids) .start past f ∧ past.countP FileEvent.wraps = 2 ^ 32 ∧
      f.opened.lookup 0 = some G ∧ ¬ InBounds countingUids f 0 G := by
  refine ⟨straying ?_, straying ?_, straying ?_, straying ?_, straying ?_, straying ?_, wrapping_strays⟩
  all_goals decide +kernel

end execution

end Msgq
