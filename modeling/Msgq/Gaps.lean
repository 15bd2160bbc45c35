import Msgq.Lapped

/-! Gaps in what one subscriber receives. Between a reset and the next, two
messages received one after the other were sent one after the other. -/
namespace Msgq
open ByteMemory FramedRecords Traces

/-- The valid flag was found cleared, or the slot had another owner. -/
def Pass.resets : Pass → Bool
  | .evicted | .invalid | .lapped _ | .torn _ _ => true
  | .unregistered | .empty | .wrapped _ | .garbage _ | .skipped _ _ | .noMemory _ | .message _ _ => false

def ReadyPass.resets : ReadyPass → Bool
  | .evicted | .invalid => true
  | .unregistered | .answer _ => false

def Event.resets (h : Nat) : Event → Bool
  | .initSubscriber h' _ => h' = h
  | .recv h' passes => h' = h && passes.any Pass.resets
  | .ready h' passes => h' = h && passes.any ReadyPass.resets
  | .initPublisher _ | .sent _ _ _ | .refused _ _ | .aborted _ _ => false

def Event.skips (h : Nat) : Event → Prop
  | .recv h' passes => h' = h ∧ ∃ p n, Pass.skipped p n ∈ passes
  | _ => False

section log
variable {b : Spec} {h : Nat}

/-- A pass that neither resets nor skips nor delivers leaves the log alone. -/
theorem Spec.pass_still {p : Pass} (resets : p.resets = false) (skips : ∀ x n, p ≠ .skipped x n)
    (delivers : p.message? = none) : Spec.pass h b p = b := by
  cases p with
  | evicted | invalid | lapped | torn => cases resets
  | skipped x n => exact absurd rfl (skips x n)
  | message => cases delivers
  | unregistered | empty | wrapped | garbage | noMemory => rfl

theorem Spec.passes_still {passes : List Pass} (resets : ∀ p ∈ passes, p.resets = false)
    (skips : ∀ x n, .skipped x n ∉ passes) (delivers : ∀ p ∈ passes, p.message? = none) :
    passes.foldl (Spec.pass h) b = b := by
  induction passes with
  | nil => rfl
  | cons p ps ih =>
      have first : Spec.pass h b p = b := by
        apply Spec.pass_still (resets p (by simp)) ?_ (delivers p (by simp))
        rintro x n rfl
        exact skips x n (by simp)
      rw [List.foldl_cons, first]
      apply ih
      · exact fun q hq => resets q (List.mem_cons_of_mem p hq)
      · exact fun x n hx => skips x n (List.mem_cons_of_mem p hx)
      · exact fun q hq => delivers q (List.mem_cons_of_mem p hq)

theorem Spec.readyPasses_still {passes : List ReadyPass} (resets : ∀ p ∈ passes, p.resets = false) :
    passes.foldl (Spec.readyPass h) b = b := by
  induction passes with
  | nil => rfl
  | cons p ps ih =>
      have first : Spec.readyPass h b p = b := by
        have keeps := resets p (by simp)
        cases p with
        | evicted | invalid => cases keeps
        | unregistered | answer => rfl
      rw [List.foldl_cons, first]
      exact ih fun q hq => resets q (List.mem_cons_of_mem p hq)

theorem receivedBy_nil {past : List Event} (nothing : receivedBy h past = []) {e : Event}
    (he : e ∈ past) : e.receivedBy h = [] := List.flatMap_eq_nil_iff.mp nothing e he

theorem messages_nil {passes : List Pass} (nothing : (Event.recv h passes).receivedBy h = []) :
    ∀ p ∈ passes, p.message? = none := by
  simpa [Event.receivedBy] using nothing

theorem Spec.event_cursor {e : Event} (resets : e.resets h = false) (skips : ¬ e.skips h)
    (delivers : e.receivedBy h = []) : (Spec.event b e).cursor h = b.cursor h := by
  cases e with
  | initPublisher | refused | aborted | sent => rfl
  | initSubscriber h' evicts =>
      have ne : h ≠ h' := by
        rintro rfl
        simp [Event.resets] at resets
      exact (Broadcast.seek_same b ne).cursor
  | recv h' passes =>
      by_cases same : h = h'
      · subst same
        rw [Spec.event, Spec.passes_still]
        · simpa [Event.resets] using resets
        · exact fun x n hx => skips ⟨rfl, x, n, hx⟩
        · exact messages_nil delivers
      · exact (Spec.passes_same same b passes).cursor
  | ready h' passes =>
      by_cases same : h = h'
      · subst same
        rw [Spec.event, Spec.readyPasses_still]
        simpa [Event.resets] using resets
      · exact (Spec.readyPasses_same same b passes).cursor

theorem spec_cursor_still (xs : List Event) {ys : List Event} (resets : ∀ e ∈ ys, e.resets h = false)
    (skips : ∀ e ∈ ys, ¬ e.skips h) (delivers : receivedBy h ys = []) :
    (spec (xs ++ ys)).cursor h = (spec xs).cursor h := by
  induction ys using List.reverseRecOn with
  | nil => rw [List.append_nil]
  | append_singleton ys e ih =>
      rw [← List.append_assoc, spec_append,
        Spec.event_cursor (resets e (by simp)) (skips e (by simp)) (receivedBy_nil delivers (by simp))]
      apply ih
      · exact fun x hx => resets x (by simp [hx])
      · exact fun x hx => skips x (by simp [hx])
      · rw [receivedBy_append] at delivers
        exact (List.append_eq_nil_iff.mp delivers).1

end log

section runs
variable {L : Laps} {P : Nat → Prop} {U : UidSource} {G : Segment} {conflate : Nat → Bool}
  {past before between : List Event} {first second : List Pass} {s t : State} {lap : List Bytes}
  {front : Nat} {b : Spec} {h : Nat} {x y : Bytes}

/-- A subscriber that does not conflate skips nothing. -/
theorem no_skips (run : Run (Step U G) (State.fresh conflate) past s) (hc : conflate h = false) :
    ∀ e ∈ past, ¬ e.skips h := by
  refine run.invariant (I := fun past _ => ∀ e ∈ past, ¬ e.skips h) (by simp) ?_
  intro past s e t before none step e' he'
  rcases List.mem_append.mp he' with he' | he'
  · exact none e' he'
  rw [List.mem_singleton.mp he']
  cases step with
  | recv run =>
      rintro ⟨rfl, p, n, mem⟩
      have plain : (s.handle _).readConflate = false := (run_conflate before _).trans hc
      refine (loop_invariant (I := fun ks u => Quiet s u ∧ ∀ p n, Pass.skipped p n ∉ ks)
        ?_ ⟨.rfl, by simp⟩ run).2 p n mem
      rintro ks u ⟨quiet, none⟩
      refine ⟨quiet.trans (recvPass_onePass u).quiet, ?_⟩
      intro p n mem
      rcases List.mem_append.mp mem with mem | mem
      · exact none p n mem
      · have conflating := (recvPass_skipped (Prod.ext (List.mem_singleton.mp mem).symm rfl)).1
        rw [quiet.readConflate, plain] at conflating
        cases conflating
  | _ => exact id

/-- A delivered message is the oldest unread one when its pass starts. -/
theorem Followed.recv_message {fuel : Nat} {alloc : Bool} {passes : List Pass}
    (F : Followed L P U G.size s lap front b) (hP : P h)
    (run : msgRecv U G.size alloc h fuel s = some (passes, t)) (got : returned passes = some x) :
    ∃ ws p rest, passes = ws ++ [.message p x] ∧ (∀ k ∈ ws, k.again = true) ∧
      Broadcast.unread (ws.foldl (Spec.pass h) b) h = x :: rest := by
  let I : List Pass → State → Prop := fun ks u =>
    (∀ k ∈ ks, k.again = true) ∧ Followed L P U G.size u lap front (ks.foldl (Spec.pass h) b)
  have keep : ∀ ks u, I ks u → (Msgq.recvPass U G.size alloc h u).1.again = true →
      I (ks ++ [(Msgq.recvPass U G.size alloc h u).1]) (Msgq.recvPass U G.size alloc h u).2 := by
    rintro ks u ⟨agains, F'⟩ more
    constructor
    · intro k hk
      rcases List.mem_append.mp hk with hk | hk
      · exact agains k hk
      · rwa [List.mem_singleton.mp hk]
    · rw [List.foldl_append]
      exact F'.recvPass alloc G.small h
  obtain ⟨ws, u, rfl, -, -, agains, F'⟩ := loop_ends keep ⟨by simp, F⟩ run
  rw [returned, List.getLast?_concat, Option.bind_some] at got
  obtain ⟨-, g, follows, -⟩ := recvPass_tracked alloc G.small (Nat.le_succ _) F'.tracked hP F'.unread_nonempty
  cases last : (Msgq.recvPass U G.size alloc h u).1 with
  | message p m =>
      rw [last] at got follows
      cases got
      obtain ⟨rest, ahead, -⟩ := follows
      exact ⟨ws, p, rest, rfl, agains, ahead⟩
  | _ =>
      rw [last] at got
      cases got

/-- No silent gap, for a subscriber that no send wraps over while it stands in an
older lap: a message received right after another, with no reset in between, is
the one sent right after it. -/
theorem successive_receives_adjacent (hc : conflate h = false)
    (run : Run (Where U G (NeverOvertaken G h)) (State.fresh conflate)
      (before ++ [.recv h first] ++ between ++ [.recv h second]) s)
    (gotFirst : returned first = some x) (gotSecond : returned second = some y)
    (nothing : receivedBy h between = []) (undisturbed : ∀ e ∈ between ++ [.recv h second], e.resets h = false) :
    ∃ i, (spec (before ++ [.recv h first])).cursor h = i + 1 ∧
      (sentOf (before ++ [.recv h first] ++ between))[i]? = some x ∧
      (sentOf (before ++ [.recv h first] ++ between))[i + 1]? = some y := by
  have skipless := no_skips (run_of_where run) hc
  obtain ⟨s₂, run₂, stepSecond, -⟩ := run.last
  obtain ⟨s₁, run₁, -⟩ := run₂.split
  obtain ⟨s₀, run₀, stepFirst, -⟩ := run₁.last
  have F₀ := followed_of_neverOvertaken run₀
  have F₂ := followed_of_neverOvertaken run₂
  cases stepFirst with
  | recv recvFirst =>
  cases stepSecond with
  | recv recvSecond =>
  obtain ⟨ws, p, rest, rfl, -, ahead⟩ := F₀.recv_message rfl recvFirst gotFirst
  obtain ⟨ws', p', rest', rfl, agains, ahead'⟩ := F₂.recv_message rfl recvSecond gotSecond
  -- the first receive leaves the cursor right behind its message
  have cursor : (spec (before ++ [.recv h (ws ++ [.message p x])])).cursor h =
      (ws.foldl (Spec.pass h) (spec before)).cursor h + 1 := by
    rw [spec_append, Spec.event, List.foldl_append]
    exact Function.update_self _ _ _
  -- and nothing moves it until the second one takes its message
  have still : (spec (before ++ [.recv h (ws ++ [.message p x])] ++ between)).cursor h =
      (spec (before ++ [.recv h (ws ++ [.message p x])])).cursor h := by
    apply spec_cursor_still _ _ _ nothing
    · exact fun e he => undisturbed e (List.mem_append_left _ he)
    · exact fun e he => skipless e (by simp [he])
  have arrives : ws'.foldl (Spec.pass h) (spec (before ++ [.recv h (ws ++ [.message p x])] ++ between)) =
      spec (before ++ [.recv h (ws ++ [.message p x])] ++ between) := by
    have resets := undisturbed (.recv h (ws' ++ [.message p' y])) (by simp)
    have none := skipless (.recv h (ws' ++ [.message p' y])) (by simp)
    apply Spec.passes_still
    · simp only [Event.resets, decide_true, Bool.true_and, List.any_append, Bool.or_eq_false_iff,
        List.any_eq_false, Bool.not_eq_true] at resets
      exact resets.1
    · exact fun q n hq => none ⟨rfl, q, n, List.mem_append_left _ hq⟩
    · intro k hk
      have more := agains k hk
      cases k with
      | message => cases more
      | _ => rfl
  rw [arrives] at ahead'
  have atFirst := Broadcast.sent_at_cursor ahead
  have atSecond := Broadcast.sent_at_cursor ahead'
  rw [Spec.passes_sent, spec_sent] at atFirst
  rw [spec_sent, still, cursor] at atSecond
  refine ⟨_, cursor, ?_, atSecond⟩
  have inside := (List.getElem?_eq_some_iff.mp atFirst).1
  rw [List.append_assoc, sentOf_append, List.getElem?_append_left inside]
  exact atFirst

end runs

theorem silent_gap : ∃ past s,
    script (fun _ _ => True) blankState overtakingCalls = some (past, s) ∧
    Run (Step countingUids tinySegment) blankState past s ∧
    (sentOf past = [[1], [2], [3], [4], [5]] ∧ receivedBy 1 past = [[1], [2], [5]] ∧
      ∀ e ∈ past.drop 2, e.resets 1 = false) := by
  obtain ⟨past, s, ends, run, shows⟩ := script_shows (fun _ _ => True)
    blankState overtakingCalls
    (p := fun past _ => sentOf past = [[1], [2], [3], [4], [5]] ∧ receivedBy 1 past = [[1], [2], [5]] ∧
      ∀ e ∈ past.drop 2, e.resets 1 = false) (by decide +kernel)
  exact ⟨past, s, ends, run_of_where run, shows⟩

/-- Two sends and two receives. -/
def pairPast : List Event :=
  [.initPublisher 0, .initSubscriber 1 false, .sent 0 (byteMsg 1) false] ++ [.recv 1 [.message 0 [1]]] ++
    [.sent 0 (byteMsg 2) false] ++ [.recv 1 [.message 16 [2]]]

theorem successive_receives_adjacent_pair : ∃ s,
    Run (Where countingUids tinySegment (NeverOvertaken tinySegment 1)) blankState pairPast s ∧
    ∃ i, (spec (pairPast.take 4)).cursor 1 = i + 1 ∧ (sentOf (pairPast.take 5))[i]? = some [1] ∧
      (sentOf (pairPast.take 5))[i + 1]? = some [2] := by
  obtain ⟨past, s, -, run, rfl⟩ := script_shows (NeverOvertaken tinySegment 1)
    blankState
    [.initPublisher 0, .initSubscriber 1, .send 0 (byteMsg 1), .recv 1 true, .send 0 (byteMsg 2),
      .recv 1 true]
    (p := fun past _ => past = pairPast) (by decide +kernel)
  exact ⟨s, run, successive_receives_adjacent rfl run rfl rfl rfl (by decide)⟩

end Msgq
