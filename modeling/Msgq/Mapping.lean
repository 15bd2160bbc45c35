import Msgq.Lapped
import Msgq.Layout
import Msgq.Mapped

/-! What the calls do to the bytes of the file is what the queue model does, call
by call and run by run, and none of it reaches behind the file. -/
namespace Msgq
open ByteMemory WordFields FramedRecords Traces

namespace Mapped

section states
variable {U : UidSource} {G : Segment} {size h : Nat} {s t : MappedState}

theorem state_initPublisher (word : U.draw s.drawn < 2 ^ 64) (h : Nat) :
    (initPublisher U s h).state = Msgq.initPublisher U s.state h := by
  unfold initPublisher MappedState.state
  dsimp only
  rw [queue_clearSlots, queue_store .numReaders trivial (by decide), queue_store .writeUid trivial word]
  rfl

theorem state_initSubscriber (word : U.draw s.drawn < 2 ^ 64) (h : Nat) :
    (initSubscriber U s h).state = Msgq.initSubscriber U s.state h := by
  have evicted : queue (if NUM_READERS < header.load s.mem .numReaders + 1 then evictAll s.mem else s.mem) =
      if full (queue s.mem) then clearReaders (queue s.mem) else queue s.mem := by
    rw [← queue_evictAll, full, load_numReaders]
    split_ifs with isFull isFull'
    · rfl
    · exact absurd (decide_eq_true isFull) isFull'
    · rename_i isFull'
      exact absurd (of_decide_eq_true isFull') isFull
    · rfl
  have below := newSlot_lt (queue s.mem)
  have slot : (if full (queue s.mem) then clearReaders (queue s.mem) else queue s.mem).numReaders =
      newSlot (queue s.mem) := by
    rw [newSlot]
    split_ifs <;> rfl
  unfold initSubscriber
  dsimp only [MappedState.state]
  generalize (if NUM_READERS < header.load s.mem .numReaders + 1 then evictAll s.mem else s.mem) = mem at evicted ⊢
  rw [load_numReaders, evicted, slot, queue_resetReader below, queue_store (.readUids _) below word,
    queue_store (.readPointers _) below (by decide), queue_store (.readValids _) below (by decide),
    queue_store .numReaders trivial (by unfold NUM_READERS at below; omega), evicted]
  unfold Msgq.initSubscriber
  dsimp only
  rw [slot]
  rfl

theorem state_setMem (s : MappedState) (mem : Memory) : (s.setMem mem).state = s.state.setQueue (queue mem) := rfl

theorem state_resetReader {id : Nat} (inside : id < NUM_READERS) (s : MappedState) :
    (s.setMem (resetReader s.mem id)).state = s.state.setQueue (Msgq.resetReader s.state.q id) := by
  rw [state_setMem, queue_resetReader inside]
  rfl

theorem state_setReadPointer {id v : Nat} (inside : id < NUM_READERS) (word : v < 2 ^ 64) (s : MappedState) :
    (s.setMem (header.store s.mem (.readPointers id) v)).state = s.state.setQueue (setReadPointer s.state.q id v) := by
  rw [state_setMem, queue_store (.readPointers id) inside word]
  rfl

/-- A uid that the next pass may draw is a word; an owner draws none. -/
def Drawable (U : UidSource) (h : Nat) (s : MappedState) : Prop :=
  U.draw s.drawn < 2 ^ 64 ∨ ∃ id, Owns s.state h id

theorem Drawable.word {id : Nat} (D : Drawable U h s) (registered : (s.handle h).readerId = some id)
    (evicted : (s.handle h).readUidLocal ≠ (queue s.mem).readUids id) : U.draw s.drawn < 2 ^ 64 := by
  rcases D with word | owned
  · exact word
  · obtain ⟨id', own⟩ := owned
    obtain rfl := Option.some.inj (registered.symm.trans own.1)
    exact absurd own.2 evicted

theorem Drawable.pass (D : Drawable U h s) (one : OnePass U h s.state t.state) : Drawable U h t := by
  generalize same : t.state = u at one
  cases one with
  | stay =>
      have drawn : t.drawn = s.drawn := congrArg State.drawn same
      rw [Drawable, drawn, same]
      exact D
  | register => exact Or.inr ⟨_, same ▸ initSubscriber_owns s.state h⟩
  | reset own => exact Or.inr ⟨_, same ▸ (sameRegistry_resetReader s.state _).owns.mpr own⟩
  | move c o own => exact Or.inr ⟨_, same ▸ (sameRegistry_setReadPointer s.state _ _).owns.mpr own⟩

theorem recvPass_state (D : Drawable U h s) (alloc : Bool) (R : Registry U s.state) :
    Msgq.recvPass U size alloc h s.state = ((recvPass U size alloc h s).1, (recvPass U size alloc h s).2.state) := by
  have handles : s.state.handle = s.handle := rfl
  have shown : s.state.q = queue s.mem := rfl
  unfold Msgq.recvPass recvPass
  rw [handles]
  cases registered : (s.handle h).readerId with
  | none => rfl
  | some id =>
      have inside : id < NUM_READERS := R.ids h id registered
      have readCycles : (unpack64 (header.load s.mem (.readPointers id))).1 = (queue s.mem).readCycles id := by
        rw [load_readPointers inside]
        rfl
      have readOffset : (unpack64 (header.load s.mem (.readPointers id))).2 = (queue s.mem).readOffset id := by
        rw [load_readPointers inside]
        rfl
      have writeOffset : (unpack64 (header.load s.mem .writePointer)).2 = (queue s.mem).writeOffset := rfl
      have moved : ∀ v < 2 ^ 64, valid (header.store s.mem (.readPointers id) v) id =
          (queue s.mem).readValids id := by
        intro v word
        rw [valid_queue inside, queue_store (.readPointers id) inside word]
        rfl
      have cycles : (queue s.mem).readCycles id < 2 ^ 32 := unpack64_fst_lt _
      dsimp only
      rw [shown, load_readUids inside, readCycles, readOffset, writeOffset, valid_queue inside,
        moved _ (pack64_lt _ cycles), data_queue]
      split_ifs
      · rename_i evicted
        rw [state_initSubscriber (D.word registered evicted)]
      · rw [state_resetReader inside, shown]
      · rfl
      · rw [state_setReadPointer inside (pack64_lt _ (nextCycle_lt _)), shown]
      · rfl
      · rw [state_setReadPointer inside (pack64_lt _ cycles), shown]
      · rfl
      · rename_i _ unset _ _ _ _ _ torn
        -- the read pointer is another word than the flag, which was set above
        exact absurd torn unset
      · rw [state_setReadPointer inside (pack64_lt _ cycles), shown]

theorem readyPass_state (D : Drawable U h s) (R : Registry U s.state) :
    Msgq.readyPass U h s.state = ((readyPass U h s).1, (readyPass U h s).2.state) := by
  have handles : s.state.handle = s.handle := rfl
  have shown : s.state.q = queue s.mem := rfl
  unfold Msgq.readyPass readyPass
  rw [handles]
  cases registered : (s.handle h).readerId with
  | none => rfl
  | some id =>
      have inside : id < NUM_READERS := R.ids h id registered
      dsimp only
      rw [shown, load_readUids inside, load_readPointers inside, load_writePointer, valid_queue inside]
      split_ifs
      · rename_i evicted
        rw [state_initSubscriber (D.word registered evicted)]
      · rw [state_resetReader inside, shown]
      · rfl

/-- What every pass of a call needs and keeps. -/
structure Ready (U : UidSource) (h : Nat) (s : MappedState) : Prop where
  registry : Registry U s.state
  drawable : Drawable U h s

theorem Ready.recvPass (K : Ready U h s) (alloc : Bool) : Ready U h (recvPass U size alloc h s).2 := by
  have one : OnePass U h s.state (Msgq.recvPass U size alloc h s.state).2 := recvPass_onePass s.state
  rw [recvPass_state K.drawable alloc K.registry] at one
  exact ⟨one.registry K.registry, K.drawable.pass one⟩

theorem Ready.readyPass (K : Ready U h s) : Ready U h (readyPass U h s).2 := by
  have one : OnePass U h s.state (Msgq.readyPass U h s.state).2 := readyPass_onePass s.state
  rw [readyPass_state K.drawable K.registry] at one
  exact ⟨one.registry K.registry, K.drawable.pass one⟩

theorem msgRecv_state (alloc : Bool) (fuel : Nat) (K : Ready U h s) :
    Msgq.msgRecv U size alloc h fuel s.state = (msgRecv U size alloc h fuel s).map fun r => (r.1, r.2.state) :=
  loop_map (fun _ K => recvPass_state K.drawable alloc K.registry) (fun _ K => K.recvPass alloc) fuel K

theorem msgReady_state (fuel : Nat) (K : Ready U h s) :
    Msgq.msgReady U h fuel s.state = (msgReady U h fuel s).map fun r => (r.1, r.2.state) :=
  loop_map (fun _ K => readyPass_state K.drawable K.registry) (fun _ K => K.readyPass) fuel K

/-- One call on the bytes is one call on the queue. -/
theorem Step.state (word : U.draw s.drawn < 2 ^ 64) {e : Event} (R : Registry U s.state) (step : Step U G s e t) :
    Msgq.Step U G s.state e t.state := by
  have send : ∀ (h : Nat) (m : Msg), Msgq.msgSend G.size s.state.q (s.state.handle h) m.data =
      (msgSend G.size s.mem (s.handle h) m.data).seen := fun h m => queue_msgSend G.size _ _ R.count
  cases step with
  | initPublisher h =>
      rw [state_initPublisher word]
      exact .initPublisher _ h
  | initSubscriber h =>
      rw [state_initSubscriber word]
      exact .initSubscriber _ h
  | sent accepted => exact .sent ((send _ _).trans (congrArg SendResult.seen accepted))
  | refused result => exact .refused ((send _ _).trans (congrArg SendResult.seen result))
  | aborted result => exact .aborted ((send _ _).trans (congrArg SendResult.seen result))
  | @recv h alloc fuel passes _ run =>
      have shown : Msgq.msgRecv U G.size alloc h fuel s.state = _ := msgRecv_state alloc fuel ⟨R, Or.inl word⟩
      rw [run] at shown
      exact .recv shown
  | @ready h fuel passes _ run =>
      have shown : Msgq.msgReady U h fuel s.state = _ := msgReady_state fuel ⟨R, Or.inl word⟩
      rw [run] at shown
      exact .ready shown

/-- Every call on the queue is made by the bytes. -/
theorem step_mapped (word : U.draw s.drawn < 2 ^ 64) {e : Event} {u : State} (R : Registry U s.state)
    (step : Msgq.Step U G s.state e u) : ∃ t, Step U G s e t ∧ t.state = u := by
  have send : ∀ (h : Nat) (m : Msg), Msgq.msgSend G.size s.state.q (s.state.handle h) m.data =
      (msgSend G.size s.mem (s.handle h) m.data).seen := fun h m => queue_msgSend G.size _ _ R.count
  cases step with
  | initPublisher h => exact ⟨_, .initPublisher s h, state_initPublisher word h⟩
  | initSubscriber h => exact ⟨_, .initSubscriber s h, state_initSubscriber word h⟩
  | @sent h m q ret signalled accepted =>
      have result := (send _ _).symm.trans accepted
      cases made : msgSend G.size s.mem (s.handle h) m.data with
      | sent mem ret' signalled' =>
          rw [made] at result
          cases result
          exact ⟨s.setMem mem, .sent made, rfl⟩
      | refused | aborted =>
          rw [made] at result
          cases result
  | @refused h m refused =>
      have result := (send _ _).symm.trans refused
      cases made : msgSend G.size s.mem (s.handle h) m.data with
      | refused => exact ⟨s, .refused made, rfl⟩
      | sent | aborted =>
          rw [made] at result
          cases result
  | @aborted h m aborted =>
      have result := (send _ _).symm.trans aborted
      cases made : msgSend G.size s.mem (s.handle h) m.data with
      | aborted => exact ⟨s, .aborted made, rfl⟩
      | sent | refused =>
          rw [made] at result
          cases result
  | recv run =>
      rw [msgRecv_state _ _ ⟨R, Or.inl word⟩] at run
      obtain ⟨r, made, same⟩ := Option.map_eq_some_iff.mp run
      cases same
      exact ⟨r.2, .recv made, rfl⟩
  | ready run =>
      rw [msgReady_state _ ⟨R, Or.inl word⟩] at run
      obtain ⟨r, made, same⟩ := Option.map_eq_some_iff.mp run
      cases same
      exact ⟨r.2, .ready made, rfl⟩

end states

/-! The bytes a call leaves alone. -/

section bounds
variable {U : UidSource} {G : Segment} {size h n : Nat} {s t : MappedState} {mem : Memory}

theorem beyond_resetReader {id : Nat} (inside : id < NUM_READERS) : Beyond size mem (resetReader mem id) :=
  (Beyond.store (f := .readValids id) inside).trans (Beyond.store (f := .readPointers id) inside)

theorem beyond_clear (slots : List Nat) (inside : ∀ i ∈ slots, i < NUM_READERS) : Beyond size mem
    (slots.foldl (fun mem i => header.store (header.store mem (.readValids i) 0) (.readUids i) 0) mem) := by
  induction slots generalizing mem with
  | nil => exact Beyond.rfl
  | cons i slots ih =>
      have here := inside i List.mem_cons_self
      have one : Beyond size mem (header.store (header.store mem (.readValids i) 0) (.readUids i) 0) :=
        (Beyond.store (f := .readValids i) here).trans (Beyond.store (f := .readUids i) here)
      exact one.trans (ih fun j mem => inside j (List.mem_cons_of_mem i mem))

theorem beyond_clearSlots : Beyond size mem (clearSlots mem) := beyond_clear _ fun _ mem => List.mem_range.mp mem

theorem beyond_initPublisher : Beyond size s.mem (initPublisher U s h).mem :=
  ((Beyond.store (f := .writeUid) trivial).trans (Beyond.store (f := .numReaders) trivial)).trans beyond_clearSlots

theorem beyond_initSubscriber (word : U.draw s.drawn < 2 ^ 64) :
    Beyond size s.mem (initSubscriber U s h).mem := by
  have slot := initSubscriber_readerId (U := U) s.state h
  rw [← state_initSubscriber word] at slot
  have registered : ((initSubscriber U s h).handle h).readerId = some (newSlot (queue s.mem)) := slot
  unfold initSubscriber at registered ⊢
  dsimp only at registered ⊢
  rw [Function.update_self] at registered
  have evicted : Beyond size s.mem
      (if NUM_READERS < header.load s.mem .numReaders + 1 then evictAll s.mem else s.mem) := by
    split_ifs
    · exact (Beyond.store (f := .numReaders) trivial).trans beyond_clearSlots
    · exact Beyond.rfl
  generalize (if NUM_READERS < header.load s.mem .numReaders + 1 then evictAll s.mem else s.mem) = mem
    at registered evicted ⊢
  rw [Option.some.inj registered]
  have inside := newSlot_lt (queue s.mem)
  apply evicted.trans
  apply (Beyond.store (f := .numReaders) trivial).trans
  apply (Beyond.store (f := .readValids _) inside).trans
  apply (Beyond.store (f := .readPointers _) inside).trans
  apply (Beyond.store (f := .readUids _) inside).trans
  exact beyond_resetReader inside

theorem beyond_invalidate (test : Nat → Nat → Bool) (slots : List Nat) (inside : ∀ i ∈ slots, i < NUM_READERS) :
    Beyond size mem (invalidate test mem slots) := by
  induction slots generalizing mem with
  | nil => exact Beyond.rfl
  | cons i slots ih =>
      refine Beyond.trans ?_ (ih fun j mem => inside j (List.mem_cons_of_mem i mem))
      dsimp only
      split_ifs
      · exact Beyond.store (f := .readValids i) (inside i List.mem_cons_self)
      · exact Beyond.rfl

theorem beyond_storeTag {p : Nat} {v : Int} (inside : p + 8 ≤ size) : Beyond size mem (storeTag mem p v) :=
  Beyond.writeTail (by rw [length_bytesOf]; exact inside)

theorem beyond_wrap (count : n ≤ NUM_READERS) (inside : (queue mem).writeOffset + 8 ≤ size) :
    Beyond size mem (wrap mem n) := by
  apply (beyond_storeTag inside).trans
  apply (beyond_invalidate _ _ fun i mem => (List.mem_range.mp mem).trans_le count).trans
  exact Beyond.store (f := .writePointer) trivial

theorem beyond_record {c w : Nat} {msg : Bytes} (count : n ≤ NUM_READERS) (inside : w + 8 + msg.length ≤ size) :
    Beyond size mem (record mem n c w msg) := by
  apply (beyond_invalidate _ _ fun i mem => (List.mem_range.mp mem).trans_le count).trans
  apply (beyond_storeTag (show w + 8 ≤ size by omega)).trans
  apply (Beyond.writeTail inside).trans
  exact Beyond.store (f := .writePointer) trivial

theorem beyond_send {msg : Bytes} {lap : List Bytes} {front : Nat} (hsize : size < 0xFFFFFFFF)
    (count : (queue mem).numReaders ≤ NUM_READERS) (ok : ((queue mem).view size lap front).Ok)
    (fits : Fits size msg) : Beyond size mem (send size mem msg) := by
  have room := record_room (q := queue mem) hsize fits
  have covers := le_span msg.length
  unfold recordOffset at room
  unfold send
  rw [load_numReaders, mustWrap_queue]
  dsimp only
  split_ifs at room ⊢ with full
  · have behind := mustWrap_offset hsize fits full
    have tag : (queue mem).writeOffset + 8 ≤ size := by
      rcases ok.room with zero | tag
      · exact absurd zero (Nat.ne_of_gt (Nat.zero_lt_of_lt behind))
      · exact tag.le
    exact (beyond_wrap count tag).trans (beyond_record count (by omega))
  · exact beyond_record count (show (queue mem).writeOffset + 8 + msg.length ≤ size by omega)

theorem beyond_recvPass (alloc : Bool) (K : Ready U h s) :
    Beyond size s.mem (recvPass U n alloc h s).2.mem := by
  unfold recvPass
  cases registered : (s.handle h).readerId with
  | none => exact Beyond.rfl
  | some id =>
      have inside : id < NUM_READERS := K.registry.ids h id registered
      have moved : ∀ v, Beyond size s.mem (header.store s.mem (.readPointers id) v) := fun v => Beyond.store inside
      dsimp only
      rw [load_readUids inside]
      split_ifs
      · rename_i evicted
        exact beyond_initSubscriber (K.drawable.word registered evicted)
      · exact beyond_resetReader inside
      · exact Beyond.rfl
      · exact moved _
      · exact Beyond.rfl
      · exact moved _
      · exact Beyond.rfl
      · exact (moved _).trans (beyond_resetReader inside)
      · exact moved _

theorem beyond_readyPass (K : Ready U h s) :
    Beyond size s.mem (readyPass U h s).2.mem := by
  unfold readyPass
  cases registered : (s.handle h).readerId with
  | none => exact Beyond.rfl
  | some id =>
      have inside : id < NUM_READERS := K.registry.ids h id registered
      dsimp only
      rw [load_readUids inside]
      split_ifs
      · rename_i evicted
        exact beyond_initSubscriber (K.drawable.word registered evicted)
      · exact beyond_resetReader inside
      · exact Beyond.rfl

/-- No call writes behind the file. -/
theorem Step.beyond (word : U.draw s.drawn < 2 ^ 64) {e : Event} {lap : List Bytes} {front : Nat}
    (R : Registry U s.state) (ok : (s.state.q.view G.size lap front).Ok) (step : Step U G s e t) :
    Beyond G.size s.mem t.mem := by
  cases step with
  | initPublisher => exact beyond_initPublisher
  | initSubscriber => exact beyond_initSubscriber word
  | @sent h m mem ret signalled accepted =>
      have shown := (queue_msgSend G.size (s.handle h) m.data R.count).trans (congrArg SendResult.seen accepted)
      have fits := (msgSend_sent shown).2.2
      unfold msgSend at accepted
      split_ifs at accepted
      cases accepted
      exact beyond_send G.small R.count ok fits
  | refused | aborted => exact Beyond.rfl
  | @recv h alloc fuel passes _ run =>
      refine (loop_invariant (I := fun _ u => Ready U h u ∧ Beyond G.size s.mem u.mem) ?_
        ⟨⟨R, Or.inl word⟩, Beyond.rfl⟩ run).2
      exact fun _ _ kept => ⟨kept.1.recvPass _, kept.2.trans (beyond_recvPass _ kept.1)⟩
  | @ready h fuel passes _ run =>
      refine (loop_invariant (I := fun _ u => Ready U h u ∧ Beyond G.size s.mem u.mem) ?_
        ⟨⟨R, Or.inl word⟩, Beyond.rfl⟩ run).2
      exact fun _ _ kept => ⟨kept.1.readyPass, kept.2.trans (beyond_readyPass kept.1)⟩

end bounds

/-! Whole runs. -/

section runs
variable {U : UidSource} {G : Segment} {conflate : Nat → Bool} {past : List Event} {r s t : MappedState} {e : Event}

theorem recvPass_drawn {size h : Nat} {alloc : Bool} : s.drawn ≤ (recvPass U size alloc h s).2.drawn := by
  unfold recvPass
  cases (s.handle h).readerId with
  | none => exact le_rfl
  | some id =>
      dsimp only
      split_ifs
      · exact Nat.le_succ _
      all_goals exact le_rfl

theorem readyPass_drawn {h : Nat} : s.drawn ≤ (readyPass U h s).2.drawn := by
  unfold readyPass
  cases (s.handle h).readerId with
  | none => exact le_rfl
  | some id =>
      dsimp only
      split_ifs
      · exact Nat.le_succ _
      all_goals exact le_rfl

theorem Step.drawn (step : Step U G s e t) : s.drawn ≤ t.drawn := by
  cases step with
  | initPublisher | initSubscriber => exact Nat.le_succ _
  | sent | refused | aborted => exact le_rfl
  | recv run =>
      exact loop_invariant (I := fun _ u => s.drawn ≤ u.drawn) (fun _ _ le => le.trans recvPass_drawn) le_rfl run
  | ready run =>
      exact loop_invariant (I := fun _ u => s.drawn ≤ u.drawn) (fun _ _ le => le.trans readyPass_drawn) le_rfl run

theorem fresh_state (conflate : Nat → Bool) : (MappedState.fresh conflate).state = State.fresh conflate := by
  have blank : queue (fun _ => 0) = Queue.zero := by
    ext i : 2
    case data => exact congrFun Layout.tail_zero i
    all_goals simp [queue, Layout.load_zero, Queue.zero]
  unfold MappedState.state MappedState.fresh State.fresh
  rw [blank]

/-- What the bytes do is a run of the queue, and stays inside the file. -/
theorem run_state (run : Run (Step U G) (.fresh conflate) past r) (words : ∀ n ≤ r.drawn, U.draw n < 2 ^ 64) :
    Run (Msgq.Step U G) (State.fresh conflate) past r.state ∧ Beyond G.size (fun _ => 0) r.mem := by
  induction run with
  | nil =>
      rw [fresh_state]
      exact ⟨.nil, Beyond.rfl⟩
  | @snoc past s e t run one ih =>
      obtain ⟨shown, inside⟩ := ih fun n le => words n (le.trans one.drawn)
      have F := (followed_none shown).tracked
      have word := words s.drawn one.drawn
      exact ⟨shown.snoc (one.state word F.registry), inside.trans (one.beyond word F.registry F.ok)⟩

end runs

end Mapped

section runs
variable {U : UidSource} {G : Segment} {conflate : Nat → Bool} {past : List Event} {s t : State} {e : Event}

theorem OnePass.drawn {h : Nat} (one : OnePass U h s t) : s.drawn ≤ t.drawn := by
  cases one with
  | register => exact Nat.le_succ _
  | stay | reset | move => exact le_rfl

theorem Step.drawn (step : Step U G s e t) : s.drawn ≤ t.drawn := by
  cases step with
  | initPublisher | initSubscriber => exact Nat.le_succ _
  | sent | refused | aborted => exact le_rfl
  | recv run => exact recv_keeps (I := fun u => s.drawn ≤ u.drawn) (fun one le => le.trans one.drawn) le_rfl run
  | ready run => exact ready_keeps (I := fun u => s.drawn ≤ u.drawn) (fun one le => le.trans one.drawn) le_rfl run

/-- The runs of the queue are exactly what the calls do to the bytes of a zeroed
file, as long as the uids drawn are 64-bit words; and no byte behind the file is written. -/
theorem mapped_runs_exact (words : ∀ n ≤ s.drawn, U.draw n < 2 ^ 64) :
    Run (Step U G) (State.fresh conflate) past s ↔
      ∃ r, Run (Mapped.Step U G) (MappedState.fresh conflate) past r ∧ r.state = s ∧
        ∀ a, sizeofHeader + G.size ≤ a → r.mem a = 0 := by
  constructor
  · intro run
    suffices made : ∃ r, Run (Mapped.Step U G) (MappedState.fresh conflate) past r ∧ r.state = s by
      obtain ⟨r, mapped, rfl⟩ := made
      exact ⟨r, mapped, rfl, (Mapped.run_state mapped words).2⟩
    induction run with
    | nil => exact ⟨_, .nil, Mapped.fresh_state conflate⟩
    | @snoc past s e t run one ih =>
        obtain ⟨r, mapped, rfl⟩ := ih fun n le => words n (le.trans one.drawn)
        have registry := (followed_none run).tracked.registry
        obtain ⟨u, step, same⟩ := Mapped.step_mapped (words _ one.drawn) registry one
        exact ⟨u, mapped.snoc step, same⟩
  · intro made
    obtain ⟨r, mapped, rfl, -⟩ := made
    exact (Mapped.run_state mapped words).1

end runs

theorem mapped_runs_exact_wrapped : ∃ past r, wrapCount past = 1 ∧
    Run (Mapped.Step countingUids tinySegment) (MappedState.fresh fun _ => false) past r ∧
    ∀ a, sizeofHeader + 48 ≤ a → r.mem a = 0 := by
  obtain ⟨past, s, -, run, wraps, drawn⟩ := script_shows (fun _ _ => True) blankState
    [.initPublisher 0, .initSubscriber 1, .send 0 (byteMsg 1), .send 0 (byteMsg 2), .recv 1 true, .send 0 (byteMsg 3)]
    (p := fun past s => wrapCount past = 1 ∧ s.drawn = 2) (by decide +kernel)
  have words : ∀ n ≤ s.drawn, countingUids.draw n < 2 ^ 64 := by
    intro n le
    change n + 1 < 2 ^ 64
    omega
  obtain ⟨r, mapped, -, inside⟩ := (mapped_runs_exact words).mp (run_of_where run)
  exact ⟨past, r, wraps, mapped, inside⟩

end Msgq
