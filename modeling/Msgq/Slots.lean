import Msgq.Registry
import Msgq.Accesses

/-! Who may use which slot while publishers start and subscribers register in
any interleaving. Of an access only its effect on the registry matters here:
num_readers, the uids of the slots and how far a registration has come. -/
namespace Msgq
open ByteMemory Traces Turns

/-- How far a process is with a registration; the uid it draws is stored last. -/
inductive Stage
  | out
  | drawing
  | trying (uid : Nat)
  | taken (uid id : Nat)
  deriving DecidableEq

def SubscriberPc.stage (uid : Nat) : SubscriberPc → Stage
  | .numReaders | .evict | .evictValid _ | .evictSignal _ | .evictUid _ | .claim _ => .trying uid
  | .valid id | .pointer id | .readUid id => .taken uid id

def Pc.stage : Pc → Stage
  | .subscriberUid _ => .drawing
  | .initSubscriber _ uid k => k.stage uid
  | .idle | .failed | .publisherUid | .initPublisher _ _ | .resetReader _ _ _ _ | .get _ _ _
  | .recv _ _ _ | .send _ _ => .out

/-- Inside `msgq_init_subscriber`. -/
def Pc.registering : Pc → Bool
  | .subscriberUid _ | .initSubscriber _ _ _ | .resetReader true _ _ _ => true
  | .idle | .failed | .publisherUid | .initPublisher _ _ | .resetReader false _ _ _ | .get _ _ _
  | .recv _ _ _ | .send _ _ => false

/-- The process has completed `msgq_init_subscriber` and its slot still holds its
uid: recv and ready go on using the slot. -/
def HoldsSlot (w : Endpoint) (p id : Nat) : Prop :=
  (w.proc p).pc.registering = false ∧ (w.proc p).handle.readerId = some id ∧
    w.shared.q.readUids id = (w.proc p).handle.readUidLocal

instance (w : Endpoint) (p id : Nat) : Decidable (HoldsSlot w p id) :=
  inferInstanceAs (Decidable (_ ∧ _ ∧ _))

/-- The slot is the process's own, or will be once the uid is stored. -/
def Claims (readUids : Nat → Nat) (P : Process) (id : Nat) : Prop :=
  match P.pc.stage with
  | .out => P.handle.readerId = some id ∧ readUids id = P.handle.readUidLocal
  | .taken _ id' => id' = id
  | .drawing | .trying _ => False

/-- The next access is a store of 0 to num_readers. -/
def Pc.zeroes : Pc → Bool
  | .initPublisher _ .numReaders | .initSubscriber _ _ .evict => true
  | _ => false

/-- A uid the process may still store, or has stored. -/
def Process.HasUid (P : Process) (u : Nat) : Prop :=
  (∃ id, P.handle.readerId = some id) ∧ P.handle.readUidLocal = u ∨
    P.pc.stage = .trying u ∨ ∃ id, P.pc.stage = .taken u id

/-- All that an access can do to the registry. -/
inductive Effect (U : UidSource) (s : Shared) (P : Process) (s' : Shared) (P' : Process) : Prop
  | keep (drawn : s.drawn ≤ s'.drawn) (count : s'.q.numReaders = s.q.numReaders)
      (uids : s'.q.readUids = s.q.readUids) (id : P'.handle.readerId = P.handle.readerId)
      (uid : P'.handle.readUidLocal = P.handle.readUidLocal)
      (stage : P'.pc.stage = P.pc.stage ∨ P'.pc.stage = .drawing)
  | draw (stage : P.pc.stage = .drawing) (drawn : s'.drawn = s.drawn + 1) (same : s'.q = s.q)
      (handle : P'.handle = P.handle) (stage' : P'.pc.stage = .trying (U.draw s.drawn))
  | zero (zeroes : P.pc.zeroes = true) (drawn : s'.drawn = s.drawn) (count : s'.q.numReaders = 0)
      (uids : s'.q.readUids = s.q.readUids) (handle : P'.handle = P.handle)
      (stage : P'.pc.stage = P.pc.stage)
  | clear (i : Nat) (drawn : s'.drawn = s.drawn) (count : s'.q.numReaders = s.q.numReaders)
      (uids : s'.q.readUids = Function.update s.q.readUids i 0)
      (id : P'.handle.readerId = P.handle.readerId)
      (uid : P'.handle.readUidLocal = P.handle.readUidLocal) (stage : P'.pc.stage = P.pc.stage)
  | take (u : Nat) (stage : P.pc.stage = .trying u) (drawn : s'.drawn = s.drawn)
      (count : s'.q.numReaders = s.q.numReaders + 1) (uids : s'.q.readUids = s.q.readUids)
      (id : P'.handle.readerId = some s.q.numReaders) (uid : P'.handle.readUidLocal = u)
      (stage' : P'.pc.stage = .taken u s.q.numReaders)
  | enter (u i : Nat) (stage : P.pc.stage = .taken u i) (drawn : s'.drawn = s.drawn)
      (count : s'.q.numReaders = s.q.numReaders)
      (uids : s'.q.readUids = Function.update s.q.readUids i u) (handle : P'.handle = P.handle)
      (stage' : P'.pc.stage = .out)

section effects
variable {U : UidSource} {size : Nat} {s s' : Shared} {P P' : Process}

theorem ReaderGoes.stage {id : Nat} {H : Handle} {pc : Pc} (goes : ReaderGoes id H pc) :
    pc.stage = .out ∨ pc.stage = .drawing := by
  cases goes with
  | register => exact Or.inr rfl
  | idle | failed | again | reset | get | recv => exact Or.inl rfl

theorem SenderGoes.stage {m : Msg} {pc : Pc} (goes : SenderGoes m pc) : pc.stage = .out := by
  cases goes <;> rfl

/-- Neither a receive nor a send touches the registry. -/
theorem recvStep_keeps (size : Nat) (alloc : Bool) (id rp : Nat) (q : Queue) (H : Handle) (k : RecvPc) :
    (recvStep size alloc id rp q H k).1.numReaders = q.numReaders ∧
      (recvStep size alloc id rp q H k).1.readUids = q.readUids := by
  rcases recvStep_queue size alloc id rp q H k with same | ⟨v, same⟩
  · rw [same]
    exact ⟨rfl, rfl⟩
  · rw [same]
    exact ⟨rfl, rfl⟩

theorem sendStep_keeps (size : Nat) (m : Msg) (q : Queue) (H : Handle) (k : SendPc) :
    (sendStep size m q H k).1.numReaders = q.numReaders ∧ (sendStep size m q H k).1.readUids = q.readUids ∧
      (sendStep size m q H k).1.writeUid = q.writeUid := by
  cases k with
  | writeUid | writePointer | beyond | area =>
      rw [sendStep]
      split_ifs <;> exact ⟨rfl, rfl, rfl⟩
  | numReaders | tag | dropBeyond | turn | dropArea | size | copy | publish | signal => exact ⟨rfl, rfl, rfl⟩

theorem initPublisherStep_effect (uid : Nat) (k : PublisherPc) {drawn : Nat} {q q' : Queue} {H H' : Handle}
    {pc : Pc} (one : initPublisherStep uid q H k = (q', H', pc)) :
    Effect U ⟨q, drawn⟩ ⟨H, .initPublisher uid k⟩ ⟨q', drawn⟩ ⟨H', pc⟩ := by
  cases k with
  | writeUid =>
      cases one
      exact .keep (le_refl _) rfl rfl rfl rfl (Or.inl rfl)
  | numReaders =>
      cases one
      exact .zero rfl rfl rfl rfl rfl rfl
  | valid i =>
      cases one
      exact .keep (le_refl _) rfl rfl rfl rfl (Or.inl rfl)
  | readUid i =>
      simp only [initPublisherStep] at one
      split_ifs at one <;> cases one <;> exact .clear i rfl rfl rfl rfl rfl rfl

theorem initSubscriberStep_effect (back : Option Get) (uid : Nat) (k : SubscriberPc) {drawn : Nat}
    {q q' : Queue} {H H' : Handle} {pc : Pc} (one : initSubscriberStep back uid q H k = (q', H', pc)) :
    Effect U ⟨q, drawn⟩ ⟨H, .initSubscriber back uid k⟩ ⟨q', drawn⟩ ⟨H', pc⟩ := by
  cases k with
  | numReaders =>
      simp only [initSubscriberStep] at one
      split_ifs at one <;> cases one <;> exact .keep (le_refl _) rfl rfl rfl rfl (Or.inl rfl)
  | evict =>
      cases one
      exact .zero rfl rfl rfl rfl rfl rfl
  | evictUid i =>
      simp only [initSubscriberStep] at one
      split_ifs at one <;> cases one <;> exact .clear i rfl rfl rfl rfl rfl rfl
  | claim cur =>
      simp only [initSubscriberStep] at one
      split_ifs at one with won <;> cases one
      · subst won
        exact .take uid rfl rfl rfl rfl rfl rfl rfl
      · exact .keep (le_refl _) rfl rfl rfl rfl (Or.inl rfl)
  | readUid id =>
      cases one
      exact .enter uid id rfl rfl rfl rfl rfl rfl
  | evictValid | evictSignal | valid | pointer =>
      cases one
      exact .keep (le_refl _) rfl rfl rfl rfl (Or.inl rfl)

theorem access_effect {alloc : Bool} {e : Note} (one : access U size alloc s P = some (e, s', P')) :
    Effect U s P s' P' := by
  obtain ⟨H, pc⟩ := P
  cases pc with
  | idle | failed => cases one
  | publisherUid =>
      cases one
      exact .keep (Nat.le_succ _) rfl rfl rfl rfl (Or.inl rfl)
  | initPublisher uid k =>
      cases one
      exact initPublisherStep_effect uid k rfl
  | subscriberUid back =>
      cases one
      exact .draw rfl rfl rfl rfl rfl
  | initSubscriber back uid k =>
      cases one
      exact initSubscriberStep_effect back uid k rfl
  | resetReader new back id k =>
      have stage := (resetReaderStep_goes new back k : ReaderGoes id H (resetReaderStep new back id s.q H k).2).stage
      cases one
      cases k with
      | valid | load | store => exact .keep (le_refl _) rfl rfl rfl rfl stage
  | get g id k =>
      cases one
      exact .keep (le_refl _) rfl rfl rfl rfl (getStep_goes g k).stage
  | recv id rp k =>
      cases one
      obtain ⟨count, uids⟩ := recvStep_keeps size alloc id rp s.q H k
      exact .keep (le_refl _) count uids rfl rfl (recvStep_goes k).stage
  | send m k =>
      cases one
      obtain ⟨count, uids, -⟩ := sendStep_keeps size m s.q H k
      exact .keep (le_refl _) count uids rfl rfl (Or.inl (sendStep_goes k).stage)

theorem task_stage (H : Handle) (c : Task) : (c.pc H).stage = .out ∨ (c.pc H).stage = .drawing := by
  cases c with
  | initSubscriber => exact Or.inr rfl
  | initPublisher => exact Or.inl rfl
  | send => exact Or.inl rfl
  | recv => exact (start_goes 0 .recv H).stage
  | ready => exact (start_goes 0 .ready H).stage

theorem next_effect {k : Choice} {e : Note} (one : next U size s P k = some (e, s', P')) :
    Effect U s P s' P' := by
  cases k with
  | go alloc => exact access_effect one
  | call c =>
      obtain ⟨H, pc⟩ := P
      cases pc with
      | idle =>
          cases one
          exact .keep (le_refl _) rfl rfl rfl rfl (task_stage H c)
      | _ => cases one

/-! What each effect does to the uids and the slots in use. -/

/-- Uid 0 marks a free slot, so no process uses it. -/
def Process.Proper (P : Process) : Prop :=
  (∀ u, P.HasUid u → u ≠ 0) ∧
    ∀ u id, P.pc.stage = .taken u id → P.handle.readerId = some id ∧ P.handle.readUidLocal = u

theorem Effect.drawn_le (E : Effect U s P s' P') : s.drawn ≤ s'.drawn := by
  cases E with
  | keep drawn => exact drawn
  | draw _ drawn => omega
  | zero _ drawn => omega
  | clear i drawn => omega
  | take u _ drawn => omega
  | enter u i _ drawn => omega

/-- A process has the uids it had, and perhaps the next one drawn. -/
theorem Effect.hasUid (E : Effect U s P s' P') {u : Nat} (has : P'.HasUid u) :
    P.HasUid u ∨ u = U.draw s.drawn ∧ s.drawn < s'.drawn := by
  unfold Process.HasUid at has ⊢
  cases E with
  | keep drawn count uids id uid stage =>
      rw [id, uid] at has
      rcases stage with same | drawing
      · rw [same] at has
        exact Or.inl has
      · simp only [drawing, reduceCtorEq, exists_false, or_false] at has
        exact Or.inl (Or.inl has)
  | draw stage drawn same handle stage' =>
      rw [handle, stage'] at has
      rcases has with has | has | ⟨id, has⟩
      · exact Or.inl (Or.inl has)
      · obtain rfl := Stage.trying.inj has
        exact Or.inr ⟨rfl, by omega⟩
      · cases has
  | zero zeroes drawn count uids handle stage =>
      rw [handle, stage] at has
      exact Or.inl has
  | clear i drawn count uids id uid stage =>
      rw [id, uid, stage] at has
      exact Or.inl has
  | take v stage drawn count uids id uid stage' =>
      rw [uid, stage'] at has
      rcases has with ⟨-, rfl⟩ | has | ⟨id', has⟩
      · exact Or.inl (Or.inr (Or.inl stage))
      · cases has
      · obtain ⟨rfl, -⟩ := Stage.taken.inj has
        exact Or.inl (Or.inr (Or.inl stage))
  | enter v i stage drawn count uids handle stage' =>
      rw [handle, stage'] at has
      simp only [reduceCtorEq, exists_false, or_false] at has
      exact Or.inl (Or.inl has)

theorem Effect.proper (E : Effect U s P s' P') (proper : P.Proper) : P'.Proper := by
  constructor
  · intro u has
    rcases E.hasUid has with has | ⟨rfl, -⟩
    · exact proper.1 u has
    · exact U.nonzero s.drawn
  · intro u id taken
    cases E with
    | keep drawn count uids id' uid stage =>
        rw [id', uid]
        rcases stage with same | drawing
        · exact proper.2 u id (same ▸ taken)
        · rw [drawing] at taken
          cases taken
    | draw stage drawn same handle stage' =>
        rw [stage'] at taken
        cases taken
    | zero zeroes drawn count uids handle stage =>
        rw [handle]
        exact proper.2 u id (stage ▸ taken)
    | clear i drawn count uids id' uid stage =>
        rw [id', uid]
        exact proper.2 u id (stage ▸ taken)
    | take v stage drawn count uids id' uid stage' =>
        rw [stage'] at taken
        obtain ⟨rfl, rfl⟩ := Stage.taken.inj taken
        exact ⟨id', uid⟩
    | enter v i stage drawn count uids handle stage' =>
        rw [stage'] at taken
        cases taken

theorem Claims.mono {uids uids' : Nat → Nat} {Q : Process} {id : Nat} (claims : Claims uids' Q id)
    (stored : Q.handle.readerId = some id → uids' id = Q.handle.readUidLocal →
      uids id = Q.handle.readUidLocal) : Claims uids Q id := by
  unfold Claims at claims ⊢
  split at claims
  · exact ⟨claims.1, stored claims.1 claims.2⟩
  · exact claims
  · exact claims
  · exact claims

theorem stored_hasUid {Q : Process} {id : Nat} (reader : Q.handle.readerId = some id) :
    Q.HasUid Q.handle.readUidLocal := Or.inl ⟨⟨id, reader⟩, rfl⟩

/-- Another process never gains a slot. -/
theorem Effect.claims (E : Effect U s P s' P') {Q : Process} {id : Nat} (proper : Q.Proper)
    (apart : ∀ u, P.HasUid u → ¬ Q.HasUid u) (claims : Claims s'.q.readUids Q id) :
    Claims s.q.readUids Q id := by
  cases E with
  | keep drawn count uids => exact uids ▸ claims
  | draw stage drawn same => exact same ▸ claims
  | zero zeroes drawn count uids => exact uids ▸ claims
  | take u stage drawn count uids => exact uids ▸ claims
  | clear i drawn count uids =>
      apply claims.mono
      intro reader holds
      by_cases here : id = i
      · rw [uids, here, Function.update_self] at holds
        exact absurd holds.symm (proper.1 _ (stored_hasUid reader))
      · rw [uids, Function.update_of_ne here] at holds
        exact holds
  | enter u i stage drawn count uids =>
      apply claims.mono
      intro reader holds
      by_cases here : id = i
      · rw [uids, here, Function.update_self] at holds
        exact absurd (holds ▸ stored_hasUid reader) (apart u (Or.inr (Or.inr ⟨i, stage⟩)))
      · rw [uids, Function.update_of_ne here] at holds
        exact holds

/-- A process gains a slot only where it counts it. -/
theorem Effect.claims_own (E : Effect U s P s' P') {id : Nat} (proper : P.Proper)
    (claims : Claims s'.q.readUids P' id) : Claims s.q.readUids P id ∨ id < s'.q.numReaders := by
  unfold Claims at claims ⊢
  cases E with
  | keep drawn count uids id' uid stage =>
      rw [uids, id', uid] at claims
      rcases stage with same | drawing
      · rw [same] at claims
        exact Or.inl claims
      · rw [drawing] at claims
        exact claims.elim
  | draw stage drawn same handle stage' =>
      rw [stage'] at claims
      exact claims.elim
  | zero zeroes drawn count uids handle stage =>
      rw [uids, handle, stage] at claims
      exact Or.inl claims
  | clear i drawn count uids id' uid stage =>
      refine Or.inl ?_
      rw [uids, id', uid, stage] at claims
      split at claims
      · obtain ⟨reader, holds⟩ := claims
        refine ⟨reader, ?_⟩
        by_cases here : id = i
        · rw [here, Function.update_self] at holds
          exact absurd holds.symm (proper.1 _ (stored_hasUid reader))
        · rw [Function.update_of_ne here] at holds
          exact holds
      · exact claims
      · exact claims
      · exact claims
  | take u stage drawn count uids id' uid stage' =>
      rw [stage'] at claims
      obtain rfl : s.q.numReaders = id := claims
      exact Or.inr (by omega)
  | enter u i stage drawn count uids handle stage' =>
      rw [stage', handle] at claims
      obtain ⟨reader, -⟩ := proper.2 u i stage
      obtain rfl := Option.some.inj (reader.symm.trans claims.1)
      rw [stage]
      exact Or.inl rfl

theorem Effect.count_le (E : Effect U s P s' P') (keeps : P.pc.zeroes = false) :
    s.q.numReaders ≤ s'.q.numReaders := by
  cases E with
  | keep drawn count => omega
  | draw stage drawn same => rw [same]
  | zero zeroes => exact absurd zeroes (by simp [keeps])
  | clear i drawn count => omega
  | take u stage drawn count => omega
  | enter u i stage drawn count => omega

end effects

/-! Runs. -/

/-- num_readers goes back to 0 only while no process uses or has taken a slot. -/
def ZeroesUnclaimed (w : Endpoint) (p : Nat) : Prop :=
  (w.proc p).pc.zeroes = true → ∀ p' id, ¬ Claims w.shared.q.readUids (w.proc p') id

/-- Every uid has one process, and every slot in use is one that is counted. -/
structure Enrolled (U : UidSource) (w : Endpoint) : Prop where
  drawn : ∀ p u, (w.proc p).HasUid u → ∃ j < w.shared.drawn, u = U.draw j
  apart : ∀ p p' u, (w.proc p).HasUid u → (w.proc p').HasUid u → p = p'
  proper : ∀ p, (w.proc p).Proper
  below : ∀ p id, Claims w.shared.q.readUids (w.proc p) id → id < w.shared.q.numReaders

section runs
variable {U : UidSource} {size : Nat} {conflate : Nat → Bool} {w w' : Endpoint}
  {past : List (Nat × Note)}

theorem enrolled_fresh (U : UidSource) (conflate : Nat → Bool) :
    Enrolled U (State.fresh conflate).endpoint where
  drawn := by simp [State.endpoint, State.fresh, Process.HasUid, Pc.stage]
  apart := by simp [State.endpoint, State.fresh, Process.HasUid, Pc.stage]
  proper := by simp [State.endpoint, State.fresh, Process.Proper, Process.HasUid, Pc.stage]
  below := by simp [State.endpoint, State.fresh, Claims, Pc.stage]

theorem enrolled_step {pe : Nat × Note} (E : Enrolled U w)
    (step : Turn (next U size) ZeroesUnclaimed w pe w') : Enrolled U w' := by
  cases step with
  | @move p k e s P may makes =>
  have effect := next_effect makes
  have uids : ∀ p' u, ((w.set p s P).proc p').HasUid u →
      (w.proc p').HasUid u ∨ p' = p ∧ u = U.draw w.shared.drawn ∧ w.shared.drawn < s.drawn := by
    intro p' u has
    by_cases same : p' = p
    · subst same
      rw [set_self] at has
      exact (effect.hasUid has).imp_right fun new => ⟨rfl, new⟩
    · rw [set_ne w same] at has
      exact Or.inl has
  have fresh : ∀ p' u, (w.proc p').HasUid u → u ≠ U.draw w.shared.drawn :=
    fun p' u has => draw_fresh (E.drawn p' u has)
  refine ⟨?_, ?_, ?_, ?_⟩
  · intro p' u has
    rcases uids p' u has with old | ⟨-, rfl, more⟩
    · obtain ⟨j, hj, rfl⟩ := E.drawn p' u old
      exact ⟨j, hj.trans_le effect.drawn_le, rfl⟩
    · exact ⟨_, more, rfl⟩
  · intro a b u ha hb
    rcases uids a u ha with olda | ⟨ea, rfl, -⟩
    · rcases uids b u hb with oldb | ⟨-, rfl, -⟩
      · exact E.apart a b u olda oldb
      · exact absurd rfl (fresh a _ olda)
    · rcases uids b _ hb with oldb | ⟨eb, -, -⟩
      · exact absurd rfl (fresh b _ oldb)
      · rw [ea, eb]
  · intro p'
    by_cases same : p' = p
    · subst same
      rw [set_self]
      exact effect.proper (E.proper p')
    · rw [set_ne w same]
      exact E.proper p'
  · intro p' id claims
    rw [set_shared] at claims ⊢
    have before : Claims w.shared.q.readUids (w.proc p') id ∨ id < s.q.numReaders := by
      by_cases same : p' = p
      · subst same
        rw [set_self] at claims
        exact effect.claims_own (E.proper p') claims
      · rw [set_ne w same] at claims
        exact Or.inl (effect.claims (E.proper p')
          (fun u hp hp' => same (E.apart p' p u hp' hp)) claims)
    rcases before with before | counted
    · cases zeroes : (w.proc p).pc.zeroes with
      | true => exact absurd before (may zeroes p' id)
      | false => exact (E.below p' id before).trans_le (effect.count_le zeroes)
    · exact counted

theorem enrolled (run : Interleaving U size ZeroesUnclaimed (State.fresh conflate).endpoint past w) :
    Enrolled U w := by
  induction run with
  | nil => exact enrolled_fresh U conflate
  | snoc _ one ih => exact enrolled_step ih one

theorem HoldsSlot.claims {p id : Nat} (holds : HoldsSlot w p id) :
    Claims w.shared.q.readUids (w.proc p) id := by
  obtain ⟨done, reader, uid⟩ := holds
  unfold Claims
  split
  · exact ⟨reader, uid⟩
  all_goals
    rename_i stage
    revert done stage
    cases (w.proc p).pc <;> simp [Pc.registering, Pc.stage]

/-- A subscriber whose slot still holds its uid is one that send inspects,
invalidates and signals, in every run in which num_readers goes back to 0 only
while no slot is in use or taken. -/
theorem slot_counted (run : Interleaving U size ZeroesUnclaimed (State.fresh conflate).endpoint past w)
    {p id : Nat} (holds : HoldsSlot w p id) : id < w.shared.q.numReaders :=
  (enrolled run).below p id holds.claims

/-! The condition leaves out no more than it must: a store of 0 that breaks it
can be followed by a state in which the property fails. -/

/-- Left alone, process `p` ends up using slot `id`, and num_readers stays as it is. -/
def Finishes (U : UidSource) (size : Nat) (w : Endpoint) (p id : Nat) : Prop :=
  ∃ past w', Interleaving U size (fun _ q => q = p) w past w' ∧ HoldsSlot w' p id ∧
    w'.shared.q.numReaders = w.shared.q.numReaders

theorem finish_done {p id : Nat} (holds : HoldsSlot w p id) : Finishes U size w p id :=
  ⟨[], w, .nil, holds, rfl⟩

theorem finish_step {p id : Nat} {e : Note} {s : Shared} {P : Process}
    (one : next U size w.shared (w.proc p) (.go true) = some (e, s, P))
    (count : s.q.numReaders = w.shared.q.numReaders) (rest : Finishes U size (w.set p s P) p id) :
    Finishes U size w p id := by
  obtain ⟨past, w', run, holds, same⟩ := rest
  have first : Interleaving U size (fun _ q => q = p) w [(p, e)] (w.set p s P) :=
    Run.nil.snoc (.move rfl one)
  exact ⟨_, w', first.append run, holds, same.trans count⟩

theorem comeBack_registering (back : Option Get) (H : Handle) : (comeBack back H).registering = false := by
  cases back with
  | none => rfl
  | some g =>
      simp only [comeBack, start]
      split <;> rfl

/-- A process that only has to reset its reader. -/
theorem finish_reset {p id i : Nat} {H : Handle} {back : Option Get} {k : ResetPc}
    (here : w.proc p = ⟨H, .resetReader true back i k⟩) (reader : H.readerId = some id)
    (uid : w.shared.q.readUids id = H.readUidLocal) : Finishes U size w p id := by
  have store : ∀ (w : Endpoint) (word : Nat), w.proc p = ⟨H, .resetReader true back i (.store word)⟩ →
      w.shared.q.readUids id = H.readUidLocal → Finishes U size w p id := by
    intro w word here uid
    refine finish_step (by rw [here]; rfl) ?_ (finish_done ?_)
    · rfl
    · rw [HoldsSlot, set_self]
      exact ⟨comeBack_registering back H, reader, uid⟩
  have load : ∀ w : Endpoint, w.proc p = ⟨H, .resetReader true back i .load⟩ →
      w.shared.q.readUids id = H.readUidLocal → Finishes U size w p id := by
    intro w here uid
    refine finish_step (by rw [here]; rfl) ?_ (store _ w.shared.q.writePointer (set_self _ _ _ _) ?_)
    · rfl
    · exact uid
  cases k with
  | valid =>
      refine finish_step (by rw [here]; rfl) ?_ (load _ (set_self _ _ _ _) ?_)
      · rfl
      · exact uid
  | load => exact load w here uid
  | store word => exact store w word here uid

/-- A process that has taken its slot. -/
theorem finish_taken {p u id : Nat} {H : Handle} {back : Option Get} {k : SubscriberPc}
    (here : w.proc p = ⟨H, .initSubscriber back u k⟩) (taken : k.stage u = .taken u id)
    (reader : H.readerId = some id) (uid : H.readUidLocal = u) : Finishes U size w p id := by
  have readUid : ∀ w : Endpoint, w.proc p = ⟨H, .initSubscriber back u (.readUid id)⟩ →
      Finishes U size w p id := by
    intro w here
    refine finish_step (by rw [here]; rfl) ?_ (finish_reset (set_self _ _ _ _) reader ?_)
    · rfl
    · rw [set_shared, uid]
      exact Function.update_self id u w.shared.q.readUids
  have pointer : ∀ w : Endpoint, w.proc p = ⟨H, .initSubscriber back u (.pointer id)⟩ →
      Finishes U size w p id := by
    intro w here
    refine finish_step (by rw [here]; rfl) ?_ (readUid _ (set_self _ _ _ _))
    rfl
  cases k with
  | valid i =>
      obtain ⟨-, rfl⟩ := Stage.taken.inj taken
      refine finish_step (by rw [here]; rfl) ?_ (pointer _ (set_self _ _ _ _))
      rfl
  | pointer i =>
      obtain ⟨-, rfl⟩ := Stage.taken.inj taken
      exact pointer w here
  | readUid i =>
      obtain ⟨-, rfl⟩ := Stage.taken.inj taken
      exact readUid w here
  | numReaders | evict | evictValid | evictSignal | evictUid | claim => cases taken

theorem finish_claims {p id : Nat} (proper : (w.proc p).Proper)
    (claims : Claims w.shared.q.readUids (w.proc p) id) : Finishes U size w p id := by
  generalize here : w.proc p = P at proper claims
  obtain ⟨H, pc⟩ := P
  cases pc with
  | subscriberUid back => exact claims.elim
  | initSubscriber back u k =>
      rcases hk : k.stage u with _ | _ | u' | ⟨u', i⟩
      · cases k <;> cases hk
      · cases k <;> cases hk
      · simp only [Claims, Pc.stage, hk] at claims
      · simp only [Claims, Pc.stage, hk] at claims
        subst claims
        obtain rfl : u' = u := by cases k <;> cases hk <;> rfl
        obtain ⟨reader, uid⟩ := proper.2 u' i hk
        exact finish_taken here hk reader uid
  | resetReader new back i k =>
      cases new with
      | true => exact finish_reset here claims.1 claims.2
      | false => exact finish_done (by rw [HoldsSlot, here]; exact ⟨rfl, claims⟩)
  | idle | failed | publisherUid | initPublisher | get | recv | send =>
      exact finish_done (by rw [HoldsSlot, here]; exact ⟨rfl, claims⟩)

theorem zero_access (U : UidSource) (size : Nat) {p : Nat} (zeroes : (w.proc p).pc.zeroes = true) :
    ∃ e s P, next U size w.shared (w.proc p) (.go true) = some (e, s, P) ∧ s.q.numReaders = 0 ∧
      s.q.readUids = w.shared.q.readUids ∧ P.handle = (w.proc p).handle ∧ P.pc.stage = (w.proc p).pc.stage := by
  generalize w.proc p = Q at zeroes ⊢
  obtain ⟨H, pc⟩ := Q
  cases pc with
  | initPublisher uid k =>
      cases k with
      | numReaders => exact ⟨_, _, _, rfl, rfl, rfl, rfl, rfl⟩
      | writeUid | valid | readUid => cases zeroes
  | initSubscriber back uid k =>
      cases k with
      | evict => exact ⟨_, _, _, rfl, rfl, rfl, rfl, rfl⟩
      | numReaders | evictValid | evictSignal | evictUid | claim | valid | pointer | readUid => cases zeroes
  | idle | failed | publisherUid | subscriberUid | resetReader | get | recv | send => cases zeroes

/-- Behind a store of 0 over a slot in use or taken, the subscriber alone goes on
to a state in which it uses a slot that is not counted. -/
theorem zeroing_uncounts {p p' id : Nat} (E : Enrolled U w) (zeroes : (w.proc p).pc.zeroes = true)
    (claims : Claims w.shared.q.readUids (w.proc p') id) : ∃ past w',
      Interleaving U size (fun _ _ => True) w past w' ∧ HoldsSlot w' p' id ∧ w'.shared.q.numReaders = 0 := by
  obtain ⟨e, s, P, one, count, uids, handle, stage⟩ := zero_access U size zeroes
  have first : Interleaving U size (fun _ _ => True) w [(p, e)] (w.set p s P) :=
    Run.nil.snoc (.move trivial one)
  have after : Finishes U size (w.set p s P) p' id := by
    by_cases same : p' = p
    · subst same
      apply finish_claims
      · rw [set_self]
        exact (next_effect one).proper (E.proper p')
      · rw [set_self, set_shared, uids, Claims, handle, stage]
        exact claims
    · apply finish_claims
      · rw [set_ne w same]
        exact E.proper p'
      · rw [set_ne w same, set_shared, uids]
        exact claims
  obtain ⟨past, w', run, holds, none⟩ := after
  exact ⟨_, w', first.append (run.mono fun _ _ _ turn => turn.weaken fun _ _ _ => trivial), holds,
    none.trans count⟩

end runs

/-- Two subscribers race for the slots after a publisher has started. -/
theorem slot_counted_race : ∃ past w,
    Interleaving countingUids tinySegment.size ZeroesUnclaimed blankState.endpoint past w ∧
      HoldsSlot w 1 0 ∧ HoldsSlot w 2 1 ∧ 0 < w.shared.q.numReaders ∧ 1 < w.shared.q.numReaders := by
  obtain ⟨past, w, run, -, first, second⟩ := play_shows tinySegment.size
    (fun w p => (w.proc p).pc.zeroes = true →
      ∀ p' ∈ [0, 1, 2], (w.proc p').handle.readerId = none ∧ (w.proc p').pc.stage = .out)
    blankState.endpoint
    ((0, .call .initPublisher) :: goes 0 53 ++ (1, .call .initSubscriber) :: goes 1 2 ++
      (2, .call .initSubscriber) :: goes 2 2 ++ goes 1 4 ++ goes 2 9 ++ goes 1 3)
    [0, 1, 2] (by decide) (fun _ w => HoldsSlot w 1 0 ∧ HoldsSlot w 2 1) (by decide +kernel)
  have careful : Interleaving countingUids tinySegment.size ZeroesUnclaimed blankState.endpoint past w := by
    refine run.mono fun _ _ _ turn => turn.weaken ?_
    rintro w p ⟨clear, others⟩ zeroes p' id claims
    have unused : (w.proc p').handle.readerId = none ∧ (w.proc p').pc.stage = .out := by
      by_cases mem : p' ∈ [0, 1, 2]
      · exact clear zeroes p' mem
      · rw [others p' mem]
        exact ⟨rfl, rfl⟩
    rw [Claims, unused.2, unused.1] at claims
    cases claims.1
  exact ⟨past, w, careful, first, second, slot_counted careful first, slot_counted careful second⟩

/-- A publisher starts while a subscriber has taken slot 0 and has not stored its
uid: both are done, and send never looks at the slot the subscriber uses. -/
theorem uncounted_slot : ∃ past w,
    Interleaving countingUids tinySegment.size (fun _ _ => True) blankState.endpoint past w ∧
      (∀ p, (w.proc p).pc = .idle) ∧ HoldsSlot w 1 0 ∧ w.shared.q.numReaders = 0 := by
  obtain ⟨past, w, run, others, idle, holds, none⟩ := play_shows tinySegment.size
    (fun _ _ => True) blankState.endpoint
    ((1, .call .initSubscriber) :: goes 1 3 ++ (0, .call .initPublisher) :: goes 0 53 ++ goes 1 6)
    [0, 1] (by decide) (fun _ w => ((w.proc 0).pc = .idle ∧ (w.proc 1).pc = .idle) ∧ HoldsSlot w 1 0 ∧
      w.shared.q.numReaders = 0) (by decide +kernel)
  refine ⟨past, w, run.mono fun _ _ _ turn => turn.weaken fun _ _ _ => trivial, ?_, holds, none⟩
  intro p
  by_cases mem : p ∈ [0, 1]
  · rcases List.mem_pair.mp mem with rfl | rfl
    · exact idle.1
    · exact idle.2
  · rw [others p mem]
    rfl

end Msgq
