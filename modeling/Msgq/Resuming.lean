import Msgq.Backlog
import Msgq.Draining
import Msgq.Fake

/-! A receive whose allocation fails. By then it may have registered again,
followed a wrap tag or skipped records; it stands before the record it could not
take, and the next receive takes that record. -/
namespace Msgq
open ByteMemory FramedRecords Traces

/-- What may happen before the subscriber `h` receives again: anything but a
send, a starting publisher, an eviction and a registration of `h` itself. -/
def Meanwhile (h : Nat) (s : State) : Event → Prop
  | .initPublisher _ | .sent _ _ _ => False
  | .initSubscriber h' _ => h' ≠ h ∧ full s.q = false
  | .recv h' passes => ¬ Evicts s h' ∧ (h' = h → ∃ p, passes.getLast? = some (.noMemory p))
  | .ready h' _ => ¬ Evicts s h'
  | .refused _ _ | .aborted _ _ => True

/-- A receive of the owner of slot `id` sees the same in both states. -/
structure SameSlot (h id : Nat) (s t : State) : Prop where
  handle : t.handle h = s.handle h
  uid : t.q.readUids id = s.q.readUids id
  valid : t.q.readValids id = s.q.readValids id
  pointer : t.q.readPointers id = s.q.readPointers id
  writePointer : t.q.writePointer = s.q.writePointer
  data : t.q.data = s.q.data

section passes
variable {U : UidSource} {size : Nat} {s t : State} {h h' id p : Nat} {alloc : Bool}

theorem SameSlot.rfl : SameSlot h id s s :=
  ⟨Eq.refl _, Eq.refl _, Eq.refl _, Eq.refl _, Eq.refl _, Eq.refl _⟩

theorem SameSlot.trans {u : State} (a : SameSlot h id s t) (b : SameSlot h id t u) : SameSlot h id s u :=
  ⟨b.handle.trans a.handle, b.uid.trans a.uid, b.valid.trans a.valid, b.pointer.trans a.pointer,
    b.writePointer.trans a.writePointer, b.data.trans a.data⟩

theorem SameSlot.owns (same : SameSlot h id s t) (own : Owns s h id) : Owns t h id := by
  unfold Owns
  rw [same.handle, same.uid]
  exact own

/-- A pass of a flagged owner depends on its slot, the data and the write pointer
alone, and moves nothing but the slot's read pointer. -/
theorem recvPass_sameSlot (same : SameSlot h id s t) (own : Owns s h id) (valid : s.q.readValids id = true) :
    recvPass U size alloc h t = ((recvPass U size alloc h s).1,
      t.setQueue (setReadPointer t.q id ((recvPass U size alloc h s).2.q.readPointers id))) := by
  have off : t.q.readOffset id = s.q.readOffset id := by rw [Queue.readOffset, same.pointer, Queue.readOffset]
  have cycles : t.q.readCycles id = s.q.readCycles id := by rw [Queue.readCycles, same.pointer, Queue.readCycles]
  have writer : t.q.writeOffset = s.q.writeOffset := by rw [Queue.writeOffset, same.writePointer, Queue.writeOffset]
  have stays : t.setQueue (setReadPointer t.q id (s.q.readPointers id)) = t := by
    rw [← same.pointer]
    simp [State.setQueue, setReadPointer]
  have flagged : ∀ v, (setReadPointer s.q id v).readValids id = true := fun _ => valid
  have flagged' : ∀ v, (setReadPointer t.q id v).readValids id = true := fun _ => same.valid.trans valid
  have moved : ∀ v, (s.setQueue (setReadPointer s.q id v)).q.readPointers id = v := fun _ => Function.update_self ..
  unfold recvPass
  rw [same.handle, own.1]
  dsimp only
  rw [own.2, same.uid, same.valid, valid, off, cycles, writer, same.data, flagged, flagged']
  simp only [ne_eq, not_true_eq_false, if_false, Bool.not_true, Bool.false_eq_true]
  split_ifs
  all_goals dsimp only
  all_goals first | rw [stays] | rw [moved]

/-- Allocations matter to a pass only where one fails, and that pass changes nothing. -/
theorem recvPass_alloc (U : UidSource) (size h : Nat) (s : State) :
    (recvPass U size true h s = recvPass U size false h s ∧ ∀ p, (recvPass U size false h s).1 ≠ .noMemory p) ∨
      ∃ id p m u, Owns s h id ∧ s.q.readValids id = true ∧ recvPass U size false h s = (.noMemory p, s) ∧
        recvPass U size true h s = (.message p m, u) := by
  cases registered : (s.handle h).readerId with
  | none => exact Or.inl (by simp [recvPass, registered])
  | some id =>
      by_cases huid : (s.handle h).readUidLocal = s.q.readUids id
      swap
      · exact Or.inl (by simp [recvPass, registered, huid])
      cases valid : s.q.readValids id with
      | false => exact Or.inl (by simp [recvPass, registered, huid, valid])
      | true =>
          by_cases hr : s.q.readOffset id = s.q.writeOffset
          · exact Or.inl (by simp [recvPass, registered, huid, valid, hr])
          by_cases hm : loadWord s.q.data (s.q.readOffset id) = -1
          · exact Or.inl (by simp [recvPass, registered, huid, valid, hr, hm])
          have flagged : ∀ v, (setReadPointer s.q id v).readValids id = true := fun _ => valid
          simp only [recvPass, registered, huid, valid, hr, hm, flagged, ne_eq, not_true_eq_false, if_false,
            Bool.not_true, Bool.false_eq_true, Bool.not_false, if_true]
          split_ifs
          · exact Or.inl ⟨rfl, fun p garbage => by cases garbage⟩
          · exact Or.inl ⟨rfl, fun p skipped => by cases skipped⟩
          · exact Or.inr ⟨id, _, _, _, ⟨registered, huid⟩, valid, rfl, rfl⟩

/-- Where a failed receive stands, the next pass takes a message; and a receive
that had succeeded had gone the same way up to there. -/
theorem failed_prefix {fuel : Nat} {passes : List Pass} (run : msgRecv U size false h fuel s = some (passes, t))
    (failed : passes.getLast? = some (.noMemory p)) : ∃ id m u, Owns t h id ∧ t.q.readValids id = true ∧
      recvPass U size false h t = (.noMemory p, t) ∧ recvPass U size true h t = (.message p m, u) ∧
      ∃ would, msgRecv U size true h fuel s = some (would, u) ∧ returned would = some m := by
  induction fuel generalizing s passes with
  | zero => cases run
  | succ fuel ih =>
      rw [msgRecv, loop] at run
      rcases recvPass_alloc U size h s with ⟨same, succeeds⟩ | ⟨id, r, m, u, own, valid, fails, takes⟩
      · split_ifs at run with more
        · obtain ⟨⟨rest, v⟩, inner, eq⟩ := Option.map_eq_some_iff.mp run
          cases eq
          obtain ⟨last, hl⟩ := loop_last inner
          have failed' : rest.getLast? = some (.noMemory p) := by
            rw [hl, ← (returned_cons _ hl).1, failed]
          obtain ⟨id, m, u, own, valid, fails, takes, would, returns, got⟩ := ih inner failed'
          obtain ⟨k, hk⟩ := loop_last returns
          refine ⟨id, m, u, own, valid, fails, takes, _, loop_again same more returns, ?_⟩
          rw [(returned_cons _ hk).2, got]
        · cases run
          exact absurd (Option.some.inj failed) (succeeds p)
      · rw [fails, if_neg (by simp [Pass.again])] at run
        cases run
        obtain rfl : r = p := Pass.noMemory.inj (Option.some.inj failed)
        exact ⟨id, m, u, own, valid, fails, takes, _, loop_done fuel takes rfl, rfl⟩

/-- Without memory a receive along a trail comes to its end or to the record it
cannot take. -/
theorem OnTrail.recv_fails {ms : List Bytes} {marks : Nat} (U : UidSource) (hsize : size < 0xFFFFFFFF)
    (walk : OnTrail size s h id ms marks) : ∃ fuel passes t, msgRecv U size false h fuel s = some (passes, t) ∧
      (passes.getLast? = some .empty ∨ ∃ p, passes.getLast? = some (.noMemory p)) := by
  refine OnTrail.induct (motive := fun s _ _ => ∃ fuel passes t, msgRecv U size false h fuel s = some (passes, t) ∧
    (passes.getLast? = some .empty ∨ ∃ p, passes.getLast? = some (.noMemory p))) hsize ?_ ?_ ?_ walk
  · intro s own valid at_end
    exact ⟨1, _, _, loop_done 0 (recvPass_empty own valid at_end) rfl, Or.inl rfl⟩
  · intro s m rest marks own valid away found nonempty dvd room _ ih
    have one := recvPass_record U false own valid away found nonempty dvd room.le hsize
    split_ifs at one
    · obtain ⟨fuel, passes, t, run, ends⟩ := ih
      obtain ⟨last, hl⟩ := loop_last run
      refine ⟨fuel + 1, _, t, loop_again one rfl run, ?_⟩
      rw [(returned_cons _ hl).1, ← hl]
      exact ends
    · exact ⟨1, _, _, loop_done 0 one rfl, Or.inr ⟨_, rfl⟩⟩
    · rename_i allocated
      exact absurd rfl allocated
  · intro s ms marks own valid away found _ ih
    obtain ⟨fuel, passes, t, run, ends⟩ := ih
    obtain ⟨last, hl⟩ := loop_last run
    refine ⟨fuel + 1, _, t, loop_again (recvPass_wrapped own valid away found) rfl run, ?_⟩
    rw [(returned_cons _ hl).1, ← hl]
    exact ends

end passes

/-! What goes on in between. -/

section between
variable {U : UidSource} {G : Segment} {s t u : State} {h h' id p : Nat} {m : Bytes} {e : Event}

theorem sameSlot_initSubscriber (ne : h' ≠ h) (R : Registry U s) (own : Owns s h id) (room : full s.q = false) :
    SameSlot h id s (initSubscriber U s h') := by
  have other : id ≠ newSlot s.q := by
    have below := R.below h id own
    simp only [newSlot, room, Bool.false_eq_true, if_false]
    exact below.ne
  obtain ⟨uids, valids, pointers⟩ := initSubscriber_room (U := U) s h' room other
  obtain ⟨writer, -, data⟩ := initSubscriber_same (U := U) s h'
  exact ⟨initSubscriber_handle_ne s ne.symm, uids, valids, pointers, writer, data⟩

/-- A pass of another handle that evicts nobody. -/
theorem OnePass.sameSlot (one : OnePass U h' s t) (ne : h' ≠ h) (R : Registry U s) (own : Owns s h id)
    (peace : ¬ Evicts s h') : SameSlot h id s t := by
  cases one with
  | stay => exact .rfl
  | @register id' registered differ =>
      have room : full s.q = false := by
        rw [← Bool.not_eq_true]
        exact fun isFull => peace ⟨isFull, id', registered, differ⟩
      exact sameSlot_initSubscriber ne R own room
  | reset own' =>
      have other : id ≠ _ := (R.roster.slot_ne own own' ne).symm
      exact ⟨rfl, rfl, Function.update_of_ne other _ _, Function.update_of_ne other _ _, rfl, rfl⟩
  | move c o own' =>
      have other : id ≠ _ := (R.roster.slot_ne own own' ne).symm
      exact ⟨rfl, rfl, rfl, Function.update_of_ne other _ _, rfl, rfl⟩

/-- With its flag set, `h` stands before the record of `m` and takes it as soon as
there is memory, which leaves its read pointer at `next`. -/
structure Waits (U : UidSource) (size h id p : Nat) (m : Bytes) (next : Nat) (s : State) : Prop where
  registry : Registry U s
  own : Owns s h id
  valid : s.q.readValids id = true
  fails : recvPass U size false h s = (.noMemory p, s)
  takes : ∃ u, recvPass U size true h s = (.message p m, u) ∧ u.q.readPointers id = next

variable {next : Nat}

theorem Waits.sameSlot (W : Waits U G.size h id p m next s) (same : SameSlot h id s t) (R : Registry U t) :
    Waits U G.size h id p m next t := by
  obtain ⟨u, takes, pointer⟩ := W.takes
  have fails' : recvPass U G.size false h t = (.noMemory p, t) := by
    have pass : recvPass U G.size false h t = _ := recvPass_sameSlot same W.own W.valid
    rw [W.fails, ← same.pointer] at pass
    simpa [State.setQueue, setReadPointer] using pass
  have pass : recvPass U G.size true h t = _ := recvPass_sameSlot same W.own W.valid
  rw [takes, pointer] at pass
  exact ⟨R, same.owns W.own, same.valid.trans W.valid, fails', _, pass, Function.update_self ..⟩

/-- What holds of the waiting reader while another handle makes the passes of a call. -/
def WaitsAside (U : UidSource) (s : State) (h id h' : Nat) (u : State) : Prop :=
  Registry U u ∧ SameSlot h id s u ∧ ¬ Evicts u h'

theorem WaitsAside.pass (W : Waits U G.size h id p m next s) (ne : h' ≠ h) (one : OnePass U h' t u)
    (A : WaitsAside U s h id h' t) : WaitsAside U s h id h' u := by
  obtain ⟨R, same, peace⟩ := A
  have own := same.owns W.own
  have registered : Registered t h := ⟨id, own, same.valid.trans W.valid⟩
  exact ⟨one.registry R, same.trans (one.sameSlot ne R own peace), (one.registered R registered peace).2⟩

/-- Whatever goes on in between, the reader stands before the same record. -/
theorem Waits.step (W : Waits U G.size h id p m next s) (step : Step U G s e t) (ok : Meanwhile h s e) :
    Waits U G.size h id p m next t := by
  have R := W.registry.step step
  cases step with
  | initPublisher | sent => exact ok.elim
  | initSubscriber h' => exact W.sameSlot (sameSlot_initSubscriber ok.1 W.registry W.own ok.2) R
  | refused | aborted => exact W
  | @recv h' alloc fuel passes t run =>
      by_cases ne : h' = h
      · subst ne
        obtain ⟨r, failed⟩ := ok.2 rfl
        obtain ⟨u, takes, -⟩ := W.takes
        cases alloc with
        | false =>
            cases loop_unique run (loop_done 0 W.fails rfl)
            exact W
        | true =>
            cases loop_unique run (loop_done 0 takes rfl)
            cases failed
      · have aside : WaitsAside U s h id h' s := ⟨W.registry, .rfl, ok.1⟩
        exact W.sameSlot (recv_keeps (WaitsAside.pass W ne) aside run).2.1 R
  | @ready h' fuel passes t run =>
      by_cases ne : h' = h
      · subst ne
        have answer : readyPass U h' s = (.answer (s.q.readOffset id != s.q.writeOffset), s) := by
          simp [readyPass, W.own.1, W.own.2, W.valid]
        cases loop_unique run (loop_done 0 answer rfl)
        exact W
      · have aside : WaitsAside U s h id h' s := ⟨W.registry, .rfl, ok⟩
        exact W.sameSlot (ready_keeps (WaitsAside.pass W ne) aside run).2.1 R

theorem Waits.run {between : List Event} (W : Waits U G.size h id p m next s)
    (run : Run (Where U G (Meanwhile h)) s between t) : Waits U G.size h id p m next t := by
  induction run with
  | nil => exact W
  | snoc _ one ih => exact ih.step one.1 one.2

end between

/-! Reachable states. -/

section runs
variable {U : UidSource} {G : Segment} {conflate : Nat → Bool} {past : List Event} {s : State} {h id : Nat}

theorem registry_reached (run : Run (Step U G) (State.fresh conflate) past s) : Registry U s := by
  induction run with
  | nil => exact registry_fresh U conflate
  | snoc _ one ih => exact ih.step one

/-- Without memory a receive either finds nothing to take, or returns -1 and loses
nothing: the next receive that has memory takes the message this one would have
taken and leaves the read pointer where this one would have left it. -/
theorem failed_receive_resumes (run : Run (Step U G) (State.fresh conflate) past s) (few : wrapCount past < 2 ^ 32)
    (registered : (s.handle h).readerId = some id) : ∃ fuel passes t,
    msgRecv U G.size false h fuel s = some (passes, t) ∧ (passes.getLast? = some .empty ∨
      recvCode passes = some (-1) ∧ ∃ id m would u, msgRecv U G.size true h fuel s = some (would, u) ∧
        returned would = some m ∧ ∀ between v, Run (Where U G (Meanwhile h)) t between v →
          ∃ fuel' takes w, msgRecv U G.size true h fuel' v = some (takes, w) ∧ returned takes = some m ∧
            (Owns u h id ∧ Owns w h id ∧ w.q.readPointers id = u.q.readPointers id)) := by
  rcases (intactRun run few).reads_or_restarts h with ⟨id, ms, marks, walk, -⟩ | restarts
  · obtain ⟨fuel, passes, t, fails, ends⟩ := walk.recv_fails U G.small
    refine ⟨fuel, passes, t, fails, ?_⟩
    rcases ends with nothing | ⟨p, failed⟩
    · exact Or.inl nothing
    · obtain ⟨id, m, u, own, valid, again, takes, would, returns, got⟩ := failed_prefix fails failed
      refine Or.inr ⟨by rw [recvCode, failed], id, m, would, u, returns, got, ?_⟩
      intro between v after
      have R : Registry U t := recv_keeps OnePass.registry (registry_reached run) fails
      have waits : Waits U G.size h id p m (u.q.readPointers id) t := ⟨R, own, valid, again, u, takes, rfl⟩
      have W := waits.run after
      obtain ⟨w, pass, pointer⟩ := W.takes
      have owned : Owns u h id ∧ u.q.readValids id = true := by
        have one : OnePass U h t (recvPass U G.size true h t).2 := recvPass_onePass t
        rw [takes] at one
        exact one.owner ⟨own, valid⟩
      have owned' : Owns w h id ∧ w.q.readValids id = true := by
        have one : OnePass U h v (recvPass U G.size true h v).2 := recvPass_onePass v
        rw [pass] at one
        exact one.owner ⟨W.own, W.valid⟩
      exact ⟨1, [.message p m], w, loop_done 0 pass rfl, rfl, owned.1, owned'.1, pointer⟩
  · obtain ⟨k, rk, u, id', first, one, -, own, valid, at_end⟩ := restarts_first U registered restarts
    have stop : msgRecv U G.size false h 1 u = some ([.empty], u) :=
      loop_done 0 (recvPass_empty own valid at_end) rfl
    refine ⟨2, [k, .empty], u, ?_, Or.inl rfl⟩
    rcases first with ⟨rfl, -⟩ | ⟨rfl, -⟩
    · exact loop_again (one G.size false) rfl stop
    · exact loop_again (one G.size false) rfl stop

/-- The calls up to a state in which one message is unread. -/
def unreadCalls : List Call := [.initPublisher 0, .initSubscriber 1, .send 0 (byteMsg 1)]

theorem failed_receive_resumes_unread : ∃ past s, Run (Step countingUids tinySegment) blankState past s ∧
    ∃ fuel passes t, msgRecv countingUids tinySegment.size false 1 fuel s = some (passes, t) ∧
      (passes.getLast? = some .empty ∨ recvCode passes = some (-1) ∧ ∃ id m would u,
        msgRecv countingUids tinySegment.size true 1 fuel s = some (would, u) ∧ returned would = some m ∧
          ∀ between v, Run (Where countingUids tinySegment (Meanwhile 1)) t between v →
            ∃ fuel' takes w, msgRecv countingUids tinySegment.size true 1 fuel' v = some (takes, w) ∧
              returned takes = some m ∧
              (Owns u 1 id ∧ Owns w 1 id ∧ w.q.readPointers id = u.q.readPointers id)) := by
  obtain ⟨past, s, -, run, few, registered⟩ := script_shows (fun _ _ => True) blankState unreadCalls
    (p := fun past s => wrapCount past < 2 ^ 32 ∧ (s.handle 1).readerId = some 0) (by decide +kernel)
  exact ⟨past, s, run_of_where run, failed_receive_resumes (run_of_where run) few registered⟩

end runs

/-- What takes the slot from under a waiting reader without a send: a starting
publisher, as many registrations as evict it, and one of its own. -/
def disturbances : List (List Call) :=
  [[.initPublisher 2], (List.range 25).map fun i => .initSubscriber (i + 2), [.initSubscriber 1]]

/-- Behind each of them the message that the failed receive could not take is lost. -/
theorem failed_receive_loses : ∃ past s, Run (Step countingUids tinySegment) blankState past s ∧
    ∃ t u, msgRecv countingUids tinySegment.size false 1 1 s = some ([.noMemory 0], t) ∧
      msgRecv countingUids tinySegment.size true 1 1 s = some ([.message 0 [1]], u) ∧
      ∀ cs ∈ disturbances, ∃ between v, Run (Where countingUids tinySegment fun _ e => e.sent? = none) t between v ∧
        ∃ passes w, msgRecv countingUids tinySegment.size true 1 2 v = some (passes, w) ∧
          recvCode passes = some 0 := by
  obtain ⟨past, s, -, run, fails, takes⟩ := script_shows (fun _ _ => True) blankState unreadCalls
    (p := fun _ s =>
      ((msgRecv countingUids tinySegment.size false 1 1 s).any fun r => r.1 = [.noMemory 0] ∧
        ∀ cs ∈ disturbances, (script (fun _ e => e.sent? = none) r.2 cs).any fun r' =>
          (msgRecv countingUids tinySegment.size true 1 2 r'.2).any fun r'' => recvCode r''.1 = some 0) = true ∧
      ((msgRecv countingUids tinySegment.size true 1 1 s).any fun r => r.1 = [.message 0 [1]]) = true)
    (by decide +kernel)
  obtain ⟨⟨passes, t⟩, first, shows⟩ := (Option.any_eq_true _ _).mp fails
  obtain ⟨⟨passes', u⟩, second, shows'⟩ := (Option.any_eq_true _ _).mp takes
  obtain ⟨rfl, loses⟩ := of_decide_eq_true shows
  obtain rfl := of_decide_eq_true shows'
  refine ⟨past, s, run_of_where run, t, u, first, second, ?_⟩
  intro cs mem
  obtain ⟨⟨between, v⟩, ends, last⟩ := (Option.any_eq_true _ _).mp (loses cs mem)
  obtain ⟨⟨passes'', w⟩, received, nothing⟩ := (Option.any_eq_true _ _).mp last
  exact ⟨between, v, performed ends fun _ _ _ _ => exec_step, passes'', w, received, of_decide_eq_true nothing⟩

end Msgq
