import Msgq.Attending
import Msgq.Slots

/-! Publishers access by access, and the calls of subscribers as a whole. A send
checks once, at its start, that its handle is the active publisher; a new
publisher that starts behind this check does not stop it. -/
namespace Msgq
open ByteMemory FramedRecords Traces Turns

/-- The endpoint as a whole call sees it. -/
def stateOf (w : Endpoint) : State := ⟨w.shared.q, fun p => (w.proc p).handle, w.shared.drawn⟩

def withState (w : Endpoint) (t : State) : Endpoint := ⟨⟨t.q, t.drawn⟩, fun p => ⟨t.handle p, (w.proc p).pc⟩⟩

/-- The moves of publishers. -/
def publishes (P : Process) : Choice → Bool
  | .call .initPublisher | .call (.send _) => true
  | .call .initSubscriber | .call .recv | .call .ready => false
  | .go _ => match P.pc with
      | .publisherUid | .initPublisher _ _ | .send _ _ => true
      | .idle | .failed | .subscriberUid _ | .initSubscriber _ _ _ | .resetReader _ _ _ _ | .get _ _ _
      | .recv _ _ _ => false

/-- The calls of subscribers: recv and ready are for handles that registered. -/
def Event.Subscribes (s : State) : Event → Prop
  | .initSubscriber _ _ => True
  | .recv h _ | .ready h _ => (s.handle h).readerId ≠ none
  | .initPublisher _ | .sent _ _ _ | .refused _ _ | .aborted _ _ => False

instance (s : State) : ∀ e : Event, Decidable (e.Subscribes s)
  | .initSubscriber _ _ => isTrue trivial
  | .recv h _ | .ready h _ => inferInstanceAs (Decidable ((s.handle h).readerId ≠ none))
  | .initPublisher _ | .sent _ _ _ | .refused _ _ | .aborted _ _ => isFalse id

inductive TakeoverEvent
  | publisher (p : Nat) (e : Note)
  | subscriber (e : Event)
  deriving DecidableEq

inductive TakeoverStep (U : UidSource) (G : Segment) : Endpoint → TakeoverEvent → Endpoint → Prop
  | publisher {w p k e s P} : publishes (w.proc p) k = true → next U G.size w.shared (w.proc p) k = some (e, s, P) →
      TakeoverStep U G w (.publisher p e) (w.set p s P)
  | subscriber {w e t} : e.Subscribes (stateOf w) → (w.proc e.caller).pc = .idle → Step U G (stateOf w) e t →
      TakeoverStep U G w (.subscriber e) (withState w t)

/-- Runs whose moves and calls all meet a condition on the endpoint before them. -/
abbrev TakeoverRun (U : UidSource) (G : Segment) (ok : Endpoint → TakeoverEvent → Prop) (w : Endpoint)
    (past : List TakeoverEvent) (w' : Endpoint) : Prop :=
  Run (fun w e w' => TakeoverStep U G w e w' ∧ ok w e) w past w'

def TakeoverEvent.move : TakeoverEvent → Nat × Note
  | .publisher p e => (p, e)
  | .subscriber e => (e.caller, .quiet)

/-- From the load of num_readers up to the final store of the write pointer. -/
def Pc.writing : Pc → Bool
  | .send _ (.writePointer _) | .send _ (.tag _) | .send _ (.beyond _ _) | .send _ (.dropBeyond _ _)
  | .send _ (.turn _) | .send _ (.area _ _) | .send _ (.dropArea _ _) | .send _ (.size _) | .send _ (.copy _ _)
  | .send _ (.publish _) => true
  | .send _ .writeUid | .send _ .numReaders | .send _ (.signal _ _)
  | .idle | .failed | .publisherUid | .initPublisher _ _ | .subscriberUid _ | .initSubscriber _ _ _
  | .resetReader _ _ _ _ | .get _ _ _ | .recv _ _ _ => false

/-- The stores of a send into the data area or the write pointer. -/
def SendPc.stores : SendPc → Bool
  | .tag _ | .turn _ | .size _ | .copy _ _ | .publish _ => true
  | .writeUid | .numReaders | .writePointer _ | .beyond _ _ | .dropBeyond _ _ | .area _ _ | .dropArea _ _
  | .signal _ _ => false

def Pc.stores : Pc → Bool
  | .send _ k => k.stores
  | .idle | .failed | .publisherUid | .initPublisher _ _ | .subscriberUid _ | .initSubscriber _ _ _
  | .resetReader _ _ _ _ | .get _ _ _ | .recv _ _ _ => false

/-- The load of num_readers in a send. -/
def Pc.counts : Pc → Bool
  | .send _ k => k = .numReaders
  | .idle | .failed | .publisherUid | .initPublisher _ _ | .subscriberUid _ | .initSubscriber _ _ _
  | .resetReader _ _ _ _ | .get _ _ _ | .recv _ _ _ => false

/-! What the moves of publishers do. -/

theorem writing_of_stores {pc : Pc} (stores : pc.stores = true) : pc.writing = true := by
  cases pc with
  | send m k =>
      cases k with
      | tag | turn | size | copy | publish => rfl
      | writeUid | numReaders | writePointer | beyond | dropBeyond | area | dropArea | signal => cases stores
  | _ => cases stores

/-- A send that has loaded num_readers does not do so again. -/
theorem counts_of_writing {pc : Pc} (writing : pc.writing = true) : pc.counts = false := by
  cases pc with
  | send m k =>
      cases k with
      | numReaders => cases writing
      | _ => rfl
  | _ => rfl

/-- All that a publisher's access does to readers: it takes flags and uids away. -/
structure Withdraws (s : Shared) (P : Process) (s' : Shared) (P' : Process) : Prop where
  drawn : s.drawn ≤ s'.drawn
  pointers : s'.q.readPointers = s.q.readPointers
  valids : ∀ i, s'.q.readValids i = true → s.q.readValids i = true
  uids : ∀ i, s'.q.readUids i = s.q.readUids i ∨ s'.q.readUids i = 0
  id : P'.handle.readerId = P.handle.readerId
  uid : P'.handle.readUidLocal = P.handle.readUidLocal


/-- An access that leaves the ring alone. -/
structure Aside (s : Shared) (e : Note) (s' : Shared) : Prop where
  data : s'.q.data = s.q.data
  writePointer : s'.q.writePointer = s.q.writePointer
  note : e = .quiet

section publishers
variable {U : UidSource} {size : Nat} {s s' : Shared} {P P' : Process} {k : Choice} {e : Note}

theorem withdraws_same {q : Queue} {drawn drawn' : Nat} {H : Handle} {pc pc' : Pc} (le : drawn ≤ drawn') :
    Withdraws ⟨q, drawn⟩ ⟨H, pc⟩ ⟨q, drawn'⟩ ⟨H, pc'⟩ :=
  ⟨le, rfl, fun _ valid => valid, fun _ => Or.inl rfl, rfl, rfl⟩

theorem initPublisherStep_withdraws (uid : Nat) (k : PublisherPc) {drawn : Nat} {q q' : Queue} {H H' : Handle}
    {pc : Pc} (one : initPublisherStep uid q H k = (q', H', pc)) :
    Withdraws ⟨q, drawn⟩ ⟨H, .initPublisher uid k⟩ ⟨q', drawn⟩ ⟨H', pc⟩ ∧
      Aside ⟨q, drawn⟩ .quiet ⟨q', drawn⟩ ∧ pc.writing = false ∧ ∀ m, pc ≠ .send m .numReaders := by
  have clear : ∀ j i, Function.update q.readUids j 0 i = q.readUids i ∨ Function.update q.readUids j 0 i = 0 := by
    intro j i
    by_cases same : i = j
    · subst same
      exact Or.inr (Function.update_self ..)
    · exact Or.inl (Function.update_of_ne same _ _)
  cases k with
  | writeUid | numReaders =>
      cases one
      exact ⟨⟨le_refl _, rfl, fun _ valid => valid, fun _ => Or.inl rfl, rfl, rfl⟩, ⟨rfl, rfl, rfl⟩, rfl,
        fun _ same => by cases same⟩
  | valid j =>
      cases one
      refine ⟨⟨le_refl _, rfl, fun i valid => ?_, fun _ => Or.inl rfl, rfl, rfl⟩, ⟨rfl, rfl, rfl⟩, rfl,
        fun _ same => by cases same⟩
      by_cases same : i = j
      · subst same
        simp at valid
      · change Function.update q.readValids j false i = true at valid
        rwa [Function.update_of_ne same] at valid
  | readUid j =>
      simp only [initPublisherStep] at one
      split_ifs at one <;> cases one <;>
        exact ⟨⟨le_refl _, rfl, fun _ valid => valid, clear j, rfl, rfl⟩, ⟨rfl, rfl, rfl⟩, rfl,
          fun _ same => by cases same⟩

theorem sendStep_withdraws (size drawn : Nat) (m : Msg) (q : Queue) (H : Handle) (k : SendPc) :
    Withdraws ⟨q, drawn⟩ ⟨H, .send m k⟩ ⟨(sendStep size m q H k).1, drawn⟩ ⟨H, (sendStep size m q H k).2.1⟩ := by
  obtain ⟨-, uids, -⟩ := sendStep_keeps size m q H k
  obtain ⟨pointers, flags⟩ := sendStep_slots size m q H k
  exact ⟨le_refl _, pointers, fun i valid => (flags i valid).1, fun i => Or.inl (congrFun uids i), rfl, rfl⟩

theorem sendStep_aside {drawn : Nat} {m : Msg} {q : Queue} {H : Handle} {k : SendPc} (calm : k.stores = false) :
    Aside ⟨q, drawn⟩ (sendStep size m q H k).2.2 ⟨(sendStep size m q H k).1, drawn⟩ := by
  cases k with
  | writeUid | writePointer | beyond | area =>
      rw [sendStep]
      split_ifs <;> exact ⟨rfl, rfl, rfl⟩
  | numReaders | dropBeyond | dropArea | signal => exact ⟨rfl, rfl, rfl⟩
  | tag | turn | size | copy | publish => cases calm

theorem access_stands {alloc : Bool} {m : Msg} {k : SendPc} (stands : P.pc = .send m k)
    (one : access U size alloc s P = some (e, s', P')) :
    e = (sendStep size m s.q P.handle k).2.2 ∧ s' = ⟨(sendStep size m s.q P.handle k).1, s.drawn⟩ ∧
      P' = ⟨P.handle, (sendStep size m s.q P.handle k).2.1⟩ := by
  obtain ⟨H, pc⟩ := P
  cases stands
  exact access_send one

/-- Only the uid check leads to the load of num_readers, and it lets no message
through that does not fit. -/
theorem sendStep_loads {m m' : Msg} {q : Queue} {H : Handle} {k : SendPc}
    (loads : (sendStep size m q H k).2.1 = .send m' .numReaders) : Fits size m'.data := by
  cases k with
  | writeUid =>
      simp only [sendStep] at loads
      split_ifs at loads with refused aborted
      cases loads
      exact ⟨m.nonempty, (admits_real m.real).mp (by simpa using aborted)⟩
  | numReaders => cases loads
  | writePointer | turn | area | dropArea =>
      simp only [sendStep, areaFrom] at loads
      split_ifs at loads <;> cases loads
  | tag | beyond | dropBeyond =>
      simp only [sendStep, beyondFrom] at loads
      split_ifs at loads <;> cases loads
  | size | copy =>
      simp only [sendStep, piecesFrom] at loads
      split_ifs at loads <;> cases loads
  | publish | signal =>
      simp only [sendStep, signalFrom] at loads
      split_ifs at loads
      cases loads

/-- A send writes on, or it has just loaded num_readers. -/
theorem sendStep_writes {m : Msg} {q : Queue} {H : Handle} {k : SendPc}
    (writes : (sendStep size m q H k).2.1.writing = true) : k = .numReaders ∨ (Pc.send m k).writing = true := by
  cases k with
  | writeUid =>
      simp only [sendStep] at writes
      split_ifs at writes <;> cases writes
  | signal =>
      simp only [sendStep, signalFrom] at writes
      split_ifs at writes <;> cases writes
  | numReaders => exact Or.inl rfl
  | writePointer | tag | beyond | dropBeyond | turn | area | dropArea | size | copy | publish => exact Or.inr rfl

/-- The move of a publisher that is not an access of a send. -/
structure Starts (s : Shared) (P : Process) (e : Note) (s' : Shared) (P' : Process) : Prop where
  withdraws : Withdraws s P s' P'
  aside : Aside s e s'
  writing : P'.pc.writing = false
  loads : ∀ m, P'.pc ≠ .send m .numReaders

/-- An access of a send, or another move of a publisher. -/
theorem publishes_cases (may : publishes P k = true) (one : next U size s P k = some (e, s', P')) :
    (∃ m k alloc, P.pc = .send m k ∧ access U size alloc s P = some (e, s', P')) ∨
      (∀ m k, P.pc ≠ .send m k) ∧ Starts s P e s' P' := by
  obtain ⟨H, pc⟩ := P
  obtain ⟨q, drawn⟩ := s
  cases k with
  | call c =>
      cases pc with
      | idle =>
          cases one
          refine Or.inr ⟨?_, ?_⟩
          · rintro m k ⟨⟩
          · cases c with
            | initPublisher | send m =>
                exact ⟨withdraws_same (le_refl _), ⟨rfl, rfl, rfl⟩, rfl, fun _ same => by cases same⟩
            | initSubscriber | recv | ready => cases may
      | _ => cases one
  | go alloc =>
      cases pc with
      | idle | failed => cases one
      | subscriberUid | initSubscriber | resetReader | get | recv => cases may
      | publisherUid =>
          cases one
          refine Or.inr ⟨?_, withdraws_same (Nat.le_succ _), ⟨rfl, rfl, rfl⟩, rfl, fun _ same => by cases same⟩
          rintro m k ⟨⟩
      | initPublisher uid k =>
          cases one
          obtain ⟨withdraws, aside, writing, loads⟩ := initPublisherStep_withdraws (q := q) (H := H) uid k rfl
          refine Or.inr ⟨?_, withdraws, aside, writing, loads⟩
          rintro m k ⟨⟩
      | send m k => exact Or.inl ⟨m, k, alloc, rfl, one⟩

end publishers

section worlds
variable {U : UidSource} {w : Endpoint} {s' : Shared} {P' : Process} {p : Nat}

/-- Who keeps a slot through an access of a publisher had it before. -/
theorem Withdraws.roster (W : Withdraws w.shared (w.proc p) s' P') (R : Roster U (stateOf w)) :
    Roster U (stateOf (w.set p s' P')) ∧
      ∀ h id, Owns (stateOf (w.set p s' P')) h id → Owns (stateOf w) h id := by
  have handles : ∀ h, ((stateOf (w.set p s' P')).handle h).readerId = ((stateOf w).handle h).readerId ∧
      ((stateOf (w.set p s' P')).handle h).readUidLocal = ((stateOf w).handle h).readUidLocal := by
    intro h
    by_cases same : h = p
    · subst same
      simp only [stateOf, set_self]
      exact ⟨W.id, W.uid⟩
    · simp only [stateOf, set_ne w same, and_self]
  refine ⟨R.keep (fun h => (handles h).1) (fun h => (handles h).2) W.drawn, ?_⟩
  intro h id own
  have registered : ((stateOf w).handle h).readerId = some id := (handles h).1.symm.trans own.1
  have uid : ((stateOf w).handle h).readUidLocal = s'.q.readUids id := (handles h).2.symm.trans own.2
  rcases W.uids id with same | zero
  · exact ⟨registered, uid.trans same⟩
  · obtain ⟨j, -, drawn⟩ := R.locals h id registered
    exact absurd (drawn.symm.trans (uid.trans zero)) (U.nonzero j)

end worlds

/-! Carrying out given moves of publishers and calls of subscribers. -/

inductive Action
  | turn (p : Nat) (k : Choice)
  | call (c : Call)

/-- The message an action passes to send. -/
def Action.message? : Action → Option Bytes
  | .turn _ (.call (.send m)) => some m.data
  | .turn _ _ | .call _ => none

def act (G : Segment) (w : Endpoint) : Action → Option (TakeoverEvent × Endpoint)
  | .turn p k =>
      if publishes (w.proc p) k then
        (next countingUids G.size w.shared (w.proc p) k).map fun r => (.publisher p r.1, w.set p r.2.1 r.2.2)
      else none
  | .call c =>
      if (w.proc c.caller).pc = .idle then
        (exec countingUids G 4 (stateOf w) c).bind fun r =>
          if r.1.Subscribes (stateOf w) then some (.subscriber r.1, withState w r.2) else none
      else none

theorem act_step {G : Segment} {w w' : Endpoint} {a : Action} {e : TakeoverEvent} (h : act G w a = some (e, w')) :
    TakeoverStep countingUids G w e w' := by
  cases a with
  | turn p k =>
      simp only [act] at h
      split_ifs at h with may
      obtain ⟨⟨e', s', P'⟩, one, done⟩ := Option.map_eq_some_iff.mp h
      cases done
      exact .publisher may one
  | call c =>
      simp only [act] at h
      split_ifs at h with idle
      obtain ⟨⟨e', t⟩, one, more⟩ := Option.bind_eq_some_iff.mp h
      split_ifs at more with subscribes
      cases more
      rw [← exec_caller one] at idle
      exact .subscriber subscribes idle (exec_step one)

theorem act_shows (G : Segment) (ok : Endpoint → TakeoverEvent → Prop) [∀ w e, Decidable (ok w e)] (start : Endpoint)
    (actions : List Action) (shown : List TakeoverEvent → Endpoint → Prop) [∀ past w, Decidable (shown past w)]
    (h : (perform (act G) ok start actions).any (fun r => shown r.1 r.2) = true) : ∃ past w,
      perform (act G) ok start actions = some (past, w) ∧
        TakeoverRun countingUids G ok start past w ∧ shown past w := by
  obtain ⟨⟨past, w⟩, ends, shows⟩ := (Option.any_eq_true _ _).mp h
  exact ⟨past, w, ends, performed ends fun _ _ _ _ => act_step, of_decide_eq_true shows⟩

def turns (p n : Nat) : List Action := List.replicate n (.turn p (.go true))

end Msgq
