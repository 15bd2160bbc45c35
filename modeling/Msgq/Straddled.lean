import Msgq.Seeing
import Msgq.Slots
import Msgq.Integrity

/-! One publisher and any number of subscribers, access by access. A subscriber's
reset sets the flag first and stores the write pointer it has loaded last; in
between a send tests the old read pointer. As long as no send passes such a slot
over with the pending pointer inside the area it is about to write, nothing torn
is ever received. -/
namespace Msgq
open ByteMemory FramedRecords Traces Turns

/-- One publisher, and free slots for all. -/
def Supposed (w : Endpoint) (p : Nat) : Prop := (w.proc p).pc.excluded = false

instance (w : Endpoint) (p : Nat) : Decidable (Supposed w p) := inferInstanceAs (Decidable (_ = false))

/-- A send that passes slot `i` over finds no flagged reset of that slot about to
store a pointer strictly inside the area. -/
def Unstraddled (w : Endpoint) (p : Nat) : Prop :=
  ∀ m x i, (w.proc p).pc = .send m (.area x i) →
    inArea w.shared.q x.writeCycles x.writePointer (align (x.writePointer + 8 + m.data.length)) i = false →
    w.shared.q.readValids i = true →
    ∀ p' word, (w.proc p').pc.slot = some i → (w.proc p').pc.pending = some word →
      ¬ (x.writePointer < (unpack64 word).2 ∧ (unpack64 word).2 < align (x.writePointer + 8 + m.data.length))

/-- Who uses which slot when nobody evicts. -/
structure Tidy (w : Endpoint) : Prop where
  below : ∀ p i, (w.proc p).handle.readerId = some i → i < w.shared.q.numReaders
  apart : ∀ p p' i, (w.proc p).handle.readerId = some i → (w.proc p').handle.readerId = some i → p = p'
  slot : ∀ p i, (w.proc p).pc.slot = some i → (w.proc p).handle.readerId = some i
  alone : ∀ p, p ≠ 0 → (w.proc p).handle.writeUidLocal = none ∧ (w.proc p).pc.sending = false

def ringAt (w : Endpoint) (lap sent : List Bytes) : Moment := ⟨w.shared.q, lap, sent, (w.proc 0).pc⟩

structure Sound (size : Nat) (w : Endpoint) (lap sent : List Bytes) : Prop where
  tidy : Tidy w
  ok : (ringAt w lap sent).Ok size
  sees : ∀ p i, (w.proc p).handle.readerId = some i → w.shared.q.readValids i = true →
    (w.proc p).pc.Sees size (ringAt w lap sent) i (w.shared.q.readPointers i)

section tidying
variable {U : UidSource} {size : Nat} {s s' : Shared} {P P' : Process} {alloc : Bool} {e : Note}

theorem ReaderGoes.slot {id i : Nat} {H : Handle} {pc : Pc} (goes : ReaderGoes id H pc)
    (own : H.readerId = some id) (h : pc.slot = some i) : H.readerId = some i := by
  cases goes with
  | idle | failed | register => cases h
  | again registered => exact registered.trans h
  | reset | get | recv => exact own.trans h

theorem SenderGoes.slot {m : Msg} {pc : Pc} (goes : SenderGoes m pc) : pc.slot = none := by
  cases goes <;> rfl

theorem start_slot (g : Get) (H : Handle) {i : Nat} (h : (start g H).slot = some i) : H.readerId = some i := by
  unfold start at h
  split at h
  · cases h
  · rename_i registered
    exact registered.trans h

theorem initSubscriberStep_slot (back : Option Get) (uid : Nat) (q : Queue) (H : Handle) (k : SubscriberPc)
    (own : ∀ i, (Pc.initSubscriber back uid k).slot = some i → H.readerId = some i) {i : Nat}
    (h : (initSubscriberStep back uid q H k).2.2.slot = some i) :
    (initSubscriberStep back uid q H k).2.1.readerId = some i := by
  cases k with
  | numReaders | evictUid =>
      simp only [initSubscriberStep] at h
      split_ifs at h <;> cases h
  | evict | evictValid | evictSignal => cases h
  | claim cur =>
      rw [initSubscriberStep] at h ⊢
      split_ifs at h ⊢
      · exact h
      · cases h
  | valid | pointer | readUid => exact own i h

/-- Slots are only ever taken, at the end. -/
theorem Effect.enrols (E : Effect U s P s' P') (free : P.pc.excluded = false) :
    P'.handle.readerId = P.handle.readerId ∧ s'.q.numReaders = s.q.numReaders ∨
      P'.handle.readerId = some s.q.numReaders ∧ s'.q.numReaders = s.q.numReaders + 1 := by
  cases E with
  | keep drawn count uids id uid stage => exact Or.inl ⟨id, count⟩
  | draw stage drawn same handle stage' => exact Or.inl ⟨by rw [handle], by rw [same]⟩
  | zero zeroes drawn count uids handle stage =>
      obtain ⟨H, pc⟩ := P
      cases pc with
      | initPublisher uid k => cases free
      | initSubscriber back uid k =>
          cases k with
          | evict | evictValid | evictSignal | evictUid => cases free
          | numReaders | claim | valid | pointer | readUid => cases zeroes
      | idle | failed | publisherUid | subscriberUid | resetReader | get | recv | send => cases zeroes
  | clear i drawn count uids id uid stage => exact Or.inl ⟨id, count⟩
  | take u stage drawn count uids id uid stage' => exact Or.inr ⟨id, count⟩
  | enter u i stage drawn count uids handle stage' => exact Or.inl ⟨by rw [handle], count⟩

theorem next_slot {k : Choice} (own : ∀ i, P.pc.slot = some i → P.handle.readerId = some i)
    (one : next U size s P k = some (e, s', P')) {i : Nat} (h : P'.pc.slot = some i) :
    P'.handle.readerId = some i := by
  obtain ⟨H, pc⟩ := P
  cases k with
  | call c =>
      cases pc with
      | idle =>
          cases one
          cases c with
          | initPublisher | initSubscriber | send => cases h
          | recv => exact start_slot .recv H h
          | ready => exact start_slot .ready H h
      | _ => cases one
  | go alloc =>
      cases pc with
      | idle | failed => cases one
      | publisherUid | subscriberUid =>
          cases one
          cases h
      | initPublisher uid k =>
          cases k with
          | writeUid | numReaders | valid =>
              cases one
              cases h
          | readUid j =>
              simp only [next, access, initPublisherStep] at one
              split_ifs at one <;> cases one <;> cases h
      | initSubscriber back uid k =>
          cases one
          exact initSubscriberStep_slot back uid s.q H k own h
      | resetReader new back id k =>
          cases one
          cases k with
          | valid | load => exact own i h
          | store w => exact (comeBack_goes id back H).slot (own id rfl) h
      | get g id k =>
          cases one
          exact (getStep_goes g k).slot (own id rfl) h
      | recv id rp k =>
          cases one
          exact (recvStep_goes k).slot (own id rfl) h
      | send m k =>
          cases one
          cases (sendStep_goes k).slot.symm.trans h

theorem ReaderGoes.sending {id : Nat} {H : Handle} {pc : Pc} (goes : ReaderGoes id H pc) : pc.sending = false := by
  cases goes <;> rfl

theorem initSubscriberStep_sending (back : Option Get) (uid : Nat) (q : Queue) (H : Handle) (k : SubscriberPc) :
    (initSubscriberStep back uid q H k).2.1.writeUidLocal = H.writeUidLocal ∧
      (initSubscriberStep back uid q H k).2.2.sending = false := by
  cases k with
  | numReaders | claim =>
      rw [initSubscriberStep]
      split_ifs <;> exact ⟨rfl, rfl⟩
  | evict | evictValid | evictSignal | evictUid | valid | pointer | readUid => exact ⟨rfl, rfl⟩

theorem task_sending (H : Handle) (c : Task) : (c.pc H).sending = false := by
  cases c with
  | initPublisher | initSubscriber | send => rfl
  | recv => exact (start_goes 0 .recv H).sending
  | ready => exact (start_goes 0 .ready H).sending

/-- No access but a send's leads on into a send. -/
theorem access_sending (free : P.pc.excluded = false) (calm : ∀ m k, P.pc ≠ .send m k)
    (one : access U size alloc s P = some (e, s', P')) :
    P'.handle.writeUidLocal = P.handle.writeUidLocal ∧ P'.pc.sending = false := by
  obtain ⟨H, pc⟩ := P
  cases pc with
  | idle | failed => cases one
  | publisherUid | initPublisher => cases free
  | subscriberUid back =>
      cases one
      exact ⟨rfl, rfl⟩
  | initSubscriber back uid k =>
      cases one
      exact initSubscriberStep_sending back uid s.q H k
  | resetReader new back id k =>
      cases one
      cases k with
      | valid | load => exact ⟨rfl, rfl⟩
      | store w => exact ⟨rfl, (comeBack_goes id back H).sending⟩
  | get g id k =>
      cases one
      exact ⟨rfl, (getStep_goes g k : ReaderGoes id H (getStep g id s.q H k)).sending⟩
  | recv id rp k =>
      cases one
      exact ⟨rfl, (recvStep_goes k : ReaderGoes id H (recvStep size alloc id rp s.q H k).2.1).sending⟩
  | send m k => exact absurd rfl (calm m k)

/-- Who never started as a publisher is refused. -/
theorem access_refused {m : Msg} {k : SendPc} (none : P.handle.writeUidLocal = none) (calm : P.pc.sending = false)
    (sends : P.pc = .send m k) (one : access U size alloc s P = some (e, s', P')) :
    e = .quiet ∧ s' = s ∧ P' = ⟨P.handle, .idle⟩ := by
  obtain ⟨H, pc⟩ := P
  cases sends
  cases k with
  | writeUid =>
      have refused : isPublisher s.q H = false := by
        rw [isPublisher, show H.writeUidLocal = Option.none from none]
        rfl
      have step : sendStep size m s.q H .writeUid = (s.q, .idle, .quiet) := by
        rw [sendStep, refused]
        rfl
      simp only [access, step] at one
      cases one
      exact ⟨rfl, rfl, rfl⟩
  | numReaders | writePointer | tag | beyond | dropBeyond | turn | area | dropArea | size | copy | publish | signal =>
      cases calm

/-- A note that is not about the ring. -/
def Note.silent : Note → Bool
  | .wrapped | .published _ => false
  | .quiet | .received _ | .garbage => true

theorem recvStep_silent (id rp : Nat) (q : Queue) (H : Handle) (k : RecvPc) :
    (recvStep size alloc id rp q H k).2.2.silent = true := by
  cases k with
  | tag | wrap | skip | copy | pointer => rfl
  | valid | done =>
      rw [recvStep]
      split_ifs <;> rfl

theorem access_silent (calm : ∀ m k, P.pc ≠ .send m k) (one : access U size alloc s P = some (e, s', P')) :
    e.silent = true := by
  obtain ⟨H, pc⟩ := P
  cases pc with
  | idle | failed => cases one
  | publisherUid | initPublisher | subscriberUid | initSubscriber | resetReader | get =>
      cases one
      rfl
  | recv id rp k =>
      cases one
      exact recvStep_silent id rp s.q H k
  | send m k => exact absurd rfl (calm m k)

theorem sendStep_truthful (m : Msg) (q : Queue) (H : Handle) (k : SendPc) (sent : List Bytes) :
    (sendStep size m q H k).2.2.Truthful sent := by
  cases k with
  | writeUid | writePointer | beyond | area =>
      rw [sendStep]
      split_ifs <;> trivial
  | numReaders | tag | dropBeyond | turn | dropArea | size | copy | publish | signal => trivial

/-- What a subscriber's access leaves alone: the ring, and every slot but its own. -/
structure Spares (q q' : Queue) (own : Option Nat) : Prop where
  data : q'.data = q.data
  writePointer : q'.writePointer = q.writePointer
  valids : ∀ i, own ≠ some i → q'.readValids i = q.readValids i
  pointers : ∀ i, own ≠ some i → q'.readPointers i = q.readPointers i

theorem Spares.rfl {q : Queue} {own : Option Nat} : Spares q q own :=
  ⟨Eq.refl _, Eq.refl _, fun _ _ => Eq.refl _, fun _ _ => Eq.refl _⟩

theorem spares_valid (q : Queue) (id : Nat) (v : Bool) :
    Spares q { q with readValids := Function.update q.readValids id v } (some id) where
  data := Eq.refl _
  writePointer := Eq.refl _
  valids _ other := Function.update_of_ne (fun same => other (congrArg some same.symm)) _ _
  pointers _ _ := Eq.refl _

theorem spares_pointer (q : Queue) (id w : Nat) : Spares q (setReadPointer q id w) (some id) where
  data := Eq.refl _
  writePointer := Eq.refl _
  valids _ _ := Eq.refl _
  pointers _ other := Function.update_of_ne (fun same => other (congrArg some same.symm)) _ _

theorem recvStep_spares (id rp : Nat) (q : Queue) (H : Handle) (k : RecvPc) :
    Spares q (recvStep size alloc id rp q H k).1 (some id) := by
  rcases recvStep_queue size alloc id rp q H k with same | ⟨v, same⟩
  · rw [same]
    exact .rfl
  · rw [same]
    exact spares_pointer q id v

theorem initSubscriberStep_spares (back : Option Get) (uid : Nat) (q : Queue) (H : Handle) (k : SubscriberPc)
    (free : (Pc.initSubscriber back uid k).excluded = false) :
    Spares q (initSubscriberStep back uid q H k).1 (Pc.initSubscriber back uid k).slot := by
  cases k with
  | numReaders =>
      rw [initSubscriberStep]
      split_ifs <;> exact .rfl
  | claim cur =>
      rw [initSubscriberStep]
      split_ifs
      · exact ⟨rfl, rfl, fun _ _ => rfl, fun _ _ => rfl⟩
      · exact .rfl
  | evict | evictValid | evictSignal | evictUid => cases free
  | valid id => exact spares_valid q id false
  | pointer id => exact spares_pointer q id 0
  | readUid id => exact ⟨rfl, rfl, fun _ _ => rfl, fun _ _ => rfl⟩

theorem access_spares (free : P.pc.excluded = false) (calm : ∀ m k, P.pc ≠ .send m k)
    (one : access U size alloc s P = some (e, s', P')) : Spares s.q s'.q P.pc.slot := by
  obtain ⟨H, pc⟩ := P
  cases pc with
  | idle | failed => cases one
  | publisherUid | initPublisher => cases free
  | subscriberUid back =>
      cases one
      exact .rfl
  | initSubscriber back uid k =>
      cases one
      exact initSubscriberStep_spares back uid s.q H k free
  | resetReader new back id k =>
      cases one
      cases k with
      | valid => exact spares_valid s.q id true
      | load => exact .rfl
      | store w => exact spares_pointer s.q id w
  | get g id k =>
      cases one
      exact .rfl
  | recv id rp k =>
      cases one
      exact recvStep_spares id rp s.q H k
  | send m k => exact absurd rfl (calm m k)

end tidying

section worlds
variable {U : UidSource} {size : Nat} {w : Endpoint} {s' : Shared} {p : Nat} {P' : Process} {k : Choice} {e : Note}
  {lap sent : List Bytes}

/-- A move that is not one inside a send. -/
theorem next_calm (free : Supposed w p) (T : Tidy w) (calm : ∀ m k, (w.proc p).pc = .send m k → p ≠ 0)
    (one : next U size w.shared (w.proc p) k = some (e, s', P')) :
    (w.proc p).pc.sending = false ∧ P'.handle.writeUidLocal = (w.proc p).handle.writeUidLocal ∧
      P'.pc.sending = false ∧ Spares w.shared.q s'.q (w.proc p).pc.slot ∧ e.silent = true := by
  cases k with
  | call c =>
      generalize here : w.proc p = P at one ⊢
      obtain ⟨H, pc⟩ := P
      cases pc with
      | idle =>
          cases one
          exact ⟨rfl, rfl, task_sending H c, .rfl, rfl⟩
      | _ => cases one
  | go alloc =>
      by_cases sends : ∃ m k, (w.proc p).pc = .send m k
      · obtain ⟨m, k, sends⟩ := sends
        obtain ⟨none, quiet⟩ := T.alone p (calm m k sends)
        obtain ⟨rfl, rfl, rfl⟩ := access_refused none quiet sends one
        exact ⟨quiet, rfl, rfl, .rfl, rfl⟩
      · have reads : ∀ m k, (w.proc p).pc ≠ .send m k := fun m k same => sends ⟨m, k, same⟩
        obtain ⟨uid, after⟩ := access_sending free reads one
        refine ⟨?_, uid, after, access_spares free reads one, access_silent reads one⟩
        cases pc : (w.proc p).pc with
        | send m k => exact absurd pc (reads m k)
        | _ => rfl

/-- The registry keeps its order. -/
theorem Tidy.step (T : Tidy w) (free : Supposed w p)
    (one : next U size w.shared (w.proc p) k = some (e, s', P')) : Tidy (w.set p s' P') := by
  have enrols := (next_effect one).enrols free
  have fresh : ∀ p' i, p' ≠ p → (w.proc p').handle.readerId = some i → P'.handle.readerId = some i → False := by
    intro p' i ne other mine
    rcases enrols with ⟨same, -⟩ | ⟨new, -⟩
    · exact ne (T.apart p' p i other (same.symm.trans mine))
    · have below := T.below p' i other
      have taken := Option.some.inj (new.symm.trans mine)
      omega
  refine ⟨?_, ?_, ?_, ?_⟩
  · intro p' i registered
    rw [set_shared]
    by_cases same : p' = p
    · subst same
      rw [set_self] at registered
      rcases enrols with ⟨kept, count⟩ | ⟨new, count⟩
      · rw [count]
        exact T.below p' i (kept.symm.trans registered)
      · have taken := Option.some.inj (new.symm.trans registered)
        omega
    · rw [set_ne w same] at registered
      have below := T.below p' i registered
      rcases enrols with ⟨-, count⟩ | ⟨-, count⟩ <;> omega
  · intro a b i ha hb
    by_cases sa : a = p
    · subst sa
      by_cases sb : b = a
      · exact sb.symm
      · rw [set_self] at ha
        rw [set_ne w sb] at hb
        exact (fresh b i sb hb ha).elim
    · rw [set_ne w sa] at ha
      by_cases sb : b = p
      · subst sb
        rw [set_self] at hb
        exact (fresh a i sa ha hb).elim
      · rw [set_ne w sb] at hb
        exact T.apart a b i ha hb
  · intro p' i slot
    by_cases same : p' = p
    · subst same
      rw [set_self] at slot ⊢
      exact next_slot (T.slot p') one slot
    · rw [set_ne w same] at slot ⊢
      exact T.slot p' i slot
  · intro p' ne
    by_cases same : p' = p
    · subst same
      rw [set_self]
      obtain ⟨-, uid, after, -, -⟩ := next_calm free T (fun _ _ _ => ne) one
      exact ⟨uid.trans (T.alone p' ne).1, after⟩
    · rw [set_ne w same]
      exact T.alone p' ne

/-- Every move but those inside a send. -/
theorem Sound.calm (S : Sound size w lap sent) (hsize : size < 0xFFFFFFFF) (free : Supposed w p)
    (calm : ∀ m k, (w.proc p).pc = .send m k → p ≠ 0)
    (one : next U size w.shared (w.proc p) k = some (e, s', P')) :
    Sound size (w.set p s' P') lap sent ∧ e.Truthful sent ∧ s'.q.writePointer = w.shared.q.writePointer := by
  obtain ⟨before, -, after, spares, silent⟩ := next_calm free S.tidy calm one
  have tidy := S.tidy.step free one
  have guard : ∀ off i, ((w.set p s' P').proc 0).pc.guard size off i = (w.proc 0).pc.guard size off i := by
    intro off i
    by_cases same : 0 = p
    · subst same
      rw [set_self, calm_guard after, calm_guard before]
    · rw [set_ne w same]
  have carry : ∀ S i word, (ringAt w lap sent).Stands S size i word →
      (ringAt (w.set p s' P') lap sent).Stands S size i word :=
    fun S i word h => h.congr spares.data spares.writePointer rfl rfl fun off => guard off i
  have writes : ((w.set p s' P').proc 0).pc.Writes size s'.q := by
    by_cases same : 0 = p
    · subst same
      rw [set_self]
      exact calm_writes after s'.q
    · rw [set_ne w same]
      exact S.ok.writes.congr spares.data spares.writePointer
  have own : (∀ i, P'.handle.readerId = some i → s'.q.readValids i = true →
      P'.pc.Sees size (ringAt w lap sent) i (s'.q.readPointers i)) ∧ e.Truthful sent := by
    cases k with
    | call c =>
        have sees := S.sees p
        generalize w.proc p = P at one sees
        obtain ⟨H, pc⟩ := P
        cases pc with
        | idle =>
            cases one
            exact ⟨fun i registered valid => task_sees H c (sees i registered valid), trivial⟩
        | _ => cases one
    | go alloc =>
        by_cases sends : ∃ m k, (w.proc p).pc = .send m k
        · obtain ⟨m, k, sends⟩ := sends
          obtain ⟨none, -⟩ := S.tidy.alone p (calm m k sends)
          obtain ⟨rfl, rfl, rfl⟩ := access_refused none before sends one
          refine ⟨fun i registered valid => ?_, trivial⟩
          have sees := S.sees p i registered valid
          rw [sends] at sees
          exact sees
        · have reads : ∀ m k, (w.proc p).pc ≠ .send m k := fun m k same => sends ⟨m, k, same⟩
          exact access_sees (M := ringAt w lap sent) rfl S.ok hsize free reads (S.tidy.slot p) (S.sees p) one
  refine ⟨⟨tidy, S.ok.congr spares.data spares.writePointer writes, ?_⟩, own.2, spares.writePointer⟩
  intro p' i registered valid
  by_cases same : p' = p
  · subst same
    rw [set_self] at registered ⊢
    exact (own.1 i registered valid).carry (fun _ h => h) (fun S => carry S i _) fun word _ => carry .spot i word
  · rw [set_ne w same] at registered ⊢
    have other : (w.proc p).pc.slot ≠ some i := fun slot => same (S.tidy.apart p' p i registered (S.tidy.slot p i slot))
    rw [set_shared, spares.valids i other] at valid
    rw [set_shared, spares.pointers i other]
    exact (S.sees p' i registered valid).carry (fun _ h => h) (fun S => carry S i _) fun word _ => carry .spot i word

/-- An access inside a send of the publisher. -/
theorem Sound.send (S : Sound size w lap sent) (hsize : size < 0xFFFFFFFF) (free : Supposed w 0)
    (clear : Unstraddled w 0) {m : Msg} {k : SendPc} {alloc : Bool} (stands : (w.proc 0).pc = .send m k)
    (one : access U size alloc w.shared (w.proc 0) = some (e, s', P'))
    (few : e = .wrapped → w.shared.q.writeCycles + 1 < 2 ^ 32) :
    Sound size (w.set 0 s' P') (e.lap lap) (e.sent sent) ∧ e.Truthful sent ∧
      s'.q.writeCycles = if e = .wrapped then nextCycle w.shared.q.writeCycles else w.shared.q.writeCycles := by
  have tidy := S.tidy.step (k := .go alloc) free one
  generalize here : w.proc 0 = P at one stands
  obtain ⟨H, pc⟩ := P
  cases stands
  obtain ⟨rfl, rfl, rfl⟩ := access_send one
  have writer : (ringAt w lap sent).writer = .send m k := congrArg Process.pc here
  have ok : ((ringAt w lap sent).after (sendStep size m w.shared.q H k)).Ok size := S.ok.send hsize writer
  have cycles : (sendStep size m w.shared.q H k).1.writeCycles =
      if (sendStep size m w.shared.q H k).2.2 = .wrapped then nextCycle w.shared.q.writeCycles
      else w.shared.q.writeCycles := S.ok.cycles hsize writer
  obtain ⟨pointers, flags⟩ := sendStep_slots size m w.shared.q H k
  have slotless : (sendStep size m w.shared.q H k).2.1.slot = none := (sendStep_goes k).slot
  have truthful : (sendStep size m w.shared.q H k).2.2.Truthful sent := sendStep_truthful m w.shared.q H k sent
  have moved : ∀ S i word, Unharmed S size (ringAt w lap sent) m k i word → (ringAt w lap sent).Stands S size i word →
      ((ringAt w lap sent).after (sendStep size m w.shared.q H k)).Stands S size i word :=
    fun S' i word unharmed h => h.send S.ok hsize writer unharmed few
  have area : ∀ {i x}, k = .area x i → (ringAt w lap sent).writer = .send m (.area x i) := by
    rintro i x rfl
    exact writer
  generalize sendStep size m w.shared.q H k = r at *
  obtain ⟨q', pc', e⟩ := r
  have after : ringAt (w.set 0 ⟨q', w.shared.drawn⟩ ⟨H, pc'⟩) (e.lap lap) (e.sent sent) =
      (ringAt w lap sent).after (q', pc', e) := by
    simp only [ringAt, Moment.after, set_self, set_shared]
  refine ⟨⟨tidy, after.symm ▸ ok, ?_⟩, truthful, cycles⟩
  intro p' i registered valid
  rw [after, set_shared, congrFun pointers i]
  obtain ⟨kept, drop⟩ := flags i valid
  have registered : (w.proc p').handle.readerId = some i := by
    by_cases same : p' = 0
    · subst same
      rw [set_self] at registered
      rw [here]
      exact registered
    · rw [set_ne w same] at registered
      exact registered
  have sees := S.sees p' i registered kept
  have counted : k = .numReaders → i < w.shared.q.numReaders := fun _ => S.tidy.below p' i registered
  have stored : ∀ S, (ringAt w lap sent).Stands S size i (w.shared.q.readPointers i) →
      ((ringAt w lap sent).after (q', pc', e)).Stands S size i (w.shared.q.readPointers i) := by
    refine fun S' => moved S' i _ ⟨counted, ?_, drop⟩
    exact fun x hk passed h => S.ok.passed (area hk) passed h
  by_cases same : p' = 0
  · subst same
    rw [set_self]
    rw [here] at sees
    exact slotless_sees slotless (stored .spot sees)
  · rw [set_ne w same]
    refine sees.carry (e.subset_sent sent) stored ?_
    intro word pending
    refine moved .spot i word ⟨counted, ?_, drop⟩
    intro x hk passed h
    obtain ⟨current, stop⟩ := S.ok.area (area hk)
    obtain ⟨id, slot⟩ := pending_slot pending
    obtain rfl : id = i := Option.some.inj ((S.tidy.slot p' id slot).symm.trans registered)
    refine Stands.claim_from h (S.ok.view _) (le_refl _) fun inside => ?_
    refine clear m x id ?_ passed kept p' word slot pending ?_
    · rw [here, hk]
    · rw [stop, current.pointer]
      exact inside

/-- One move of anybody. -/
theorem Sound.step (S : Sound size w lap sent) (hsize : size < 0xFFFFFFFF) (free : Supposed w p)
    (clear : Unstraddled w p) (one : next U size w.shared (w.proc p) k = some (e, s', P'))
    (few : e = .wrapped → w.shared.q.writeCycles + 1 < 2 ^ 32) :
    Sound size (w.set p s' P') (e.lap lap) (e.sent sent) ∧ e.Truthful sent ∧
      s'.q.writeCycles = if e = .wrapped then nextCycle w.shared.q.writeCycles else w.shared.q.writeCycles := by
  by_cases sends : p = 0 ∧ ∃ m k, (w.proc p).pc = .send m k
  · obtain ⟨rfl, m, k', stands⟩ := sends
    cases k with
    | call c =>
        generalize w.proc 0 = P at one stands
        obtain ⟨H, pc⟩ := P
        cases stands
        cases one
    | go alloc => exact S.send hsize free clear stands one few
  · have calm : ∀ m k, (w.proc p).pc = .send m k → p ≠ 0 := fun m k stands zero => sends ⟨zero, m, k, stands⟩
    obtain ⟨S', truthful, pointer⟩ := S.calm hsize free calm one
    have silent := (next_calm free S.tidy calm one).2.2.2.2
    have cycles : s'.q.writeCycles = w.shared.q.writeCycles := by
      rw [Queue.writeCycles, Queue.writeCycles, pointer]
    cases e with
    | wrapped | published => cases silent
    | quiet | received | garbage => exact ⟨S', truthful, cycles⟩

end worlds

/-! Runs. -/

/-- A publisher that has started on a zeroed segment. -/
def publisherStart (U : UidSource) (conflate : Nat → Bool) : Endpoint :=
  (initPublisher U (State.fresh conflate) 0).endpoint

section runs
variable {U : UidSource} {size : Nat} {conflate : Nat → Bool} {past : List (Nat × Note)} {w : Endpoint}

theorem sound_start (U : UidSource) (size : Nat) (conflate : Nat → Bool) :
    Sound size (publisherStart U conflate) [] [] := by
  have readerless : ∀ p, ((publisherStart U conflate).proc p).handle.readerId = none :=
    fun p => initPublisher_readerId (State.fresh conflate) 0 p
  have unset : ∀ p i, ((publisherStart U conflate).proc p).handle.readerId ≠ some i := by
    intro p i registered
    rw [readerless p] at registered
    cases registered
  refine ⟨⟨?_, ?_, ?_, ?_⟩, ⟨⟨rfl, Or.inl rfl⟩, List.nil_subset _, fun m mem => (List.not_mem_nil mem).elim, trivial⟩, ?_⟩
  · exact fun p i registered => (unset p i registered).elim
  · exact fun p p' i registered => (unset p i registered).elim
  · intro p i slot
    cases slot
  · intro p other
    refine ⟨?_, rfl⟩
    exact congrArg Handle.writeUidLocal (initPublisher_handle_ne (State.fresh conflate) other)
  · exact fun p i registered => (unset p i registered).elim

theorem Note.Truthful.mono {sent sent' : List Bytes} {e : Note} (h : e.Truthful sent) (more : sent ⊆ sent') :
    e.Truthful sent' := by
  cases e with
  | received m => exact more h
  | garbage => exact h
  | quiet | wrapped | published => trivial

/-- What holds in every state of a run that meets the condition. -/
structure Straight (size : Nat) (past : List (Nat × Note)) (w : Endpoint) : Prop where
  sound : Sound size w (lapIn past) (publishedIn past)
  cycles : w.shared.q.writeCycles = wrapsIn past
  truthful : ∀ e ∈ past, e.2.Truthful (publishedIn past)

theorem straight (hsize : size < 0xFFFFFFFF)
    (run : Interleaving U size (fun w p => Supposed w p ∧ Unstraddled w p) (publisherStart U conflate) past w)
    (few : wrapsIn past < 2 ^ 32) : Straight size past w := by
  refine run.invariant (I := fun past w => wrapsIn past < 2 ^ 32 → Straight size past w) ?_ ?_ few
  · intro _
    exact ⟨sound_start U size conflate, fresh_writeCycles conflate, fun e mem => (List.not_mem_nil mem).elim⟩
  · intro past w e w' _ ih turn few
    cases turn with
    | @move p _ e s' P' may one =>
        have wraps : wrapsIn (past ++ [(p, e)]) = wrapsIn past + if e = .wrapped then 1 else 0 := wrapsIn_snoc past _
        rw [wraps] at few
        obtain ⟨sound, cycles, truthful⟩ := ih (by omega)
        obtain ⟨sound', true, cycles'⟩ := sound.step hsize may.1 may.2 one fun wrapped => by
          rw [if_pos wrapped] at few
          omega
        have more := e.subset_sent (publishedIn past)
        refine ⟨?_, ?_, ?_⟩
        · rw [publishedIn_snoc, lapIn_snoc]
          exact sound'
        · rw [set_shared, cycles', wraps, cycles]
          split_ifs with wrapped
          · rw [if_pos wrapped] at few
            exact nextCycle_eq few
          · rfl
        · intro e' mem
          rw [publishedIn_snoc]
          rcases List.mem_append.mp mem with old | new
          · exact (truthful e' old).mono more
          · rw [List.mem_singleton.mp new]
            exact true.mono more

/-- Nothing torn and no garbage: while no send passes a slot over with the pending
read pointer of a flagged reset strictly inside the area it claims, every
received message was published before, and no size assertion fails. -/
theorem received_published (hsize : size < 0xFFFFFFFF)
    (run : Interleaving U size (fun w p => Supposed w p ∧ Unstraddled w p) (publisherStart U conflate) past w)
    (few : wrapsIn past < 2 ^ 32) :
    (∀ p b, (p, Note.received b) ∈ past → ∃ p' m, (p', Note.published m) ∈ past ∧ m.data = b) ∧
      ∀ p, (p, Note.garbage) ∉ past := by
  have S := straight hsize run few
  constructor
  · intro p b mem
    exact mem_publishedIn (S.truthful _ mem)
  · intro p mem
    exact S.truthful _ mem

end runs

/-- Two subscribers and two wraps; a receive stands in the middle of a send, and a
send in the middle of a receive. -/
def crossingTurns : List (Nat × Choice) :=
  (1, .call .initSubscriber) :: goes 1 9 ++ (2, .call .initSubscriber) :: goes 2 9 ++
    (0, .call (.send (byteMsg 2))) :: goes 0 10 ++ (1, .call .recv) :: goes 1 4 ++
    (0, .call (.send (byteMsg 3))) :: goes 0 10 ++ goes 1 5 ++ (1, .call .recv) :: goes 1 9 ++
    (2, .call .recv) :: goes 2 9 ++ (0, .call (.send (byteMsg 4))) :: goes 0 6 ++ (2, .call .recv) :: goes 2 9 ++
    goes 0 8 ++ (1, .call .recv) :: goes 1 16 ++ (2, .call .recv) :: goes 2 16 ++
    (0, .call (.send (byteMsg 5))) :: goes 0 10 ++ (1, .call .recv) :: goes 1 9 ++ (2, .call .recv) :: goes 2 9 ++
    (0, .call (.send (byteMsg 6))) :: goes 0 14 ++ (1, .call .recv) :: goes 1 16

/-- The messages that a process received. -/
def receivedIn (p : Nat) (past : List (Nat × Note)) : List Bytes :=
  past.filterMap fun
    | (p', .received b) => if p' = p then some b else none
    | _ => none

theorem received_published_crossing : ∃ past w,
    Interleaving countingUids tinySegment.size (fun w p => Supposed w p ∧ Unstraddled w p)
      (publisherStart countingUids fun _ => false) past w ∧ wrapsIn past = 2 ∧
      receivedIn 1 past = [[2], [3], [4], [5], [6]] ∧ receivedIn 2 past = [[2], [3], [4], [5]] ∧
      (∀ p b, (p, Note.received b) ∈ past → ∃ p' m, (p', Note.published m) ∈ past ∧ m.data = b) ∧
      ∀ p, (p, Note.garbage) ∉ past := by
  obtain ⟨past, w, run, -, wraps, first, second⟩ := play_shows tinySegment.size
    (fun w p => Supposed w p ∧ ((w.proc p).pc.sending = true → [0, 1, 2].all fun p' => (w.proc p').pc.pending.isNone))
    (publisherStart countingUids fun _ => false) crossingTurns [0, 1, 2] (by decide +kernel)
    (fun past _ => wrapsIn past = 2 ∧ receivedIn 1 past = [[2], [3], [4], [5], [6]] ∧
      receivedIn 2 past = [[2], [3], [4], [5]]) (by decide +kernel)
  have clear : Interleaving countingUids tinySegment.size (fun w p => Supposed w p ∧ Unstraddled w p)
      (publisherStart countingUids fun _ => false) past w := by
    refine run.mono fun _ _ _ turn => turn.weaken ?_
    rintro w p ⟨⟨free, settled⟩, others⟩
    refine ⟨free, ?_⟩
    intro m x i stands _ _ p' word _ pending
    have none : (w.proc p').pc.pending = none := by
      by_cases mem : p' ∈ [0, 1, 2]
      · exact Option.isNone_iff_eq_none.mp (List.all_eq_true.mp (settled (by rw [stands]; rfl)) p' mem)
      · rw [others p' mem]
        rfl
    rw [none] at pending
    cases pending
  have few : wrapsIn past < 2 ^ 32 := by
    rw [wraps]
    decide
  exact ⟨past, w, clear, wraps, first, second, received_published tinySegment.small clear few⟩

/-! The condition is not met by the code: the publisher passes slot 0 over while
its subscriber stands before the store of its reset. -/

/-- The subscriber loads the write pointer (0, 48) and waits; the publisher wraps
and writes a record over offset 48 whose payload looks like a length. -/
def tearingMoves : List (Nat × Choice) :=
  (0, .call (.send (filledMsg 8 9 (by decide)))) :: goes 0 7 ++
  (0, .call (.send (filledMsg 8 9 (by decide)))) :: goes 0 7 ++
  (0, .call (.send (byteMsg 2))) :: goes 0 2 ++ (1, .call .initSubscriber) :: goes 1 8 ++ goes 0 6 ++
  (0, .call (.send (filledMsg 8 9 (by decide)))) :: goes 0 9 ++
  (0, .call (.send (filledMsg 7 1 (by decide)))) :: goes 0 8 ++ goes 1 1 ++ (1, .call .recv) :: goes 1 9

theorem torn_by_reset : ∃ past w,
    Interleaving countingUids 72 Supposed (publisherStart countingUids fun _ => false) past w ∧
      wrapsIn past = 1 ∧ (1, Note.received [0]) ∈ past ∧ ∀ p m, (p, Note.published m) ∈ past → m.data ≠ [0] := by
  obtain ⟨past, w, run, -, wraps, got, never⟩ := play_shows 72 Supposed (publisherStart countingUids fun _ => false)
    tearingMoves [0, 1] (by decide)
    (fun past _ => wrapsIn past = 1 ∧ (1, Note.received [0]) ∈ past ∧ [0] ∉ publishedIn past) (by decide +kernel)
  refine ⟨past, w, run.mono fun _ _ _ turn => turn.weaken fun _ _ may => may.1, wraps, got, ?_⟩
  intro p m mem same
  exact never (same ▸ published_mem mem)

end Msgq
