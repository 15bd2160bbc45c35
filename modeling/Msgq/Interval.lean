import Msgq.Polling

/-! A poll without a timeout sleeps 100 ms at a time. Its request and the time that
remains behind a signal are one variable. -/
namespace Msgq
open Traces

/-- Every sleep that comes next behind a finished one asks for the whole interval. -/
def KeepsInterval (past : List PollEvent) : Prop :=
  ∀ before request time between request' time' finished after,
    past = before ++ .slept request time true :: between ++ .slept request' time' finished :: after →
    (∀ e ∈ between, e.isSleep = false) → request' = 100 * 1000000

/-- No signal has cut a sleep that ran for some time, before a finished one behind
which the call sleeps again. -/
def Uncut (past : List PollEvent) : Prop :=
  ∀ before request time between request' time' finished after,
    past = before ++ .slept request time true :: between ++ .slept request' time' finished :: after →
    (∀ e ∈ between, e.isSleep = false) → timeCut before = 0

section interval
variable {U : UidSource} {G : Nat → Segment} {timeout : Int} {endpoint : Nat → State} {items : List PollItem}
  {past : List PollEvent} {p p' : Poll} {e : PollEvent} {w : PollWorld} {asks : PollItem → Bool → Prop}

theorem Poll.endPass_ts (timeout : Int) (p : Poll) : (p.endPass timeout).ts = p.ts := by
  unfold Poll.endPass
  split
  · rfl
  · split <;> rfl
  · rfl

/-- What signals have cut off is never asked for again. -/
theorem cut_move {whole : Nat} (cut : timeCut past + p.ts.total = whole) (move : PollMove asks timeout p e p') :
    timeCut (past ++ [e]) + p'.ts.total = whole := by
  rw [timeCut_snoc]
  cases move with
  | elsewhere => exact cut
  | check => rw [Poll.endPass_ts]; exact cut
  | pass => rw [Poll.endPass_ts]; exact cut
  | sleep => rw [Poll.endPass_ts]; exact cut
  | @wake remaining pc short =>
      rw [Poll.endPass_ts, PollEvent.cut]
      dsimp only
      omega

theorem cut_run (run : Run (PollStep U G timeout) ⟨endpoint, .start items timeout⟩ past w) :
    timeCut past + w.poll.ts.total = pollMs timeout * 1000000 := by
  induction run with
  | nil =>
      change 0 + ((Poll.start items timeout).ts).total = _
      rw [Poll.start, Poll.endPass_ts, Timespec.ofMs_total, Nat.zero_add]
  | snoc _ one ih => exact cut_move ih one.move

theorem PollMove.request_eq {request time : Nat} {finished : Bool}
    (move : PollMove asks timeout p (.slept request time finished) p') : request = p.ts.total := by
  cases move with
  | sleep => rfl
  | wake => rfl

/-- A sleep asks for what signals have left of the interval. -/
theorem cut_request {before after : List PollEvent} {request time : Nat} {finished : Bool}
    (run : Run (PollStep U G timeout) ⟨endpoint, .start items timeout⟩
      (before ++ .slept request time finished :: after) w) :
    timeCut before + request = pollMs timeout * 1000000 := by
  rw [List.append_cons] at run
  obtain ⟨w₁, upto, -⟩ := run.split
  obtain ⟨mid, first, one⟩ := upto.last
  rw [one.move.request_eq]
  exact cut_run first

theorem timeCut_awake (awake : ∀ e ∈ past, e.isSleep = false) : timeCut past = 0 := by
  refine List.sum_eq_zero ?_
  intro n mem
  obtain ⟨e, inside, rfl⟩ := List.mem_map.mp mem
  cases e with
  | slept => cases awake _ inside
  | elsewhere => rfl
  | checked => rfl
  | passed => rfl

/-- The interval is kept exactly where no signal has cut a sleep. -/
theorem poll_keeps_interval_iff (run : Run (PollStep U G (-1)) ⟨endpoint, .start items (-1)⟩ past w) :
    KeepsInterval past ↔ Uncut past := by
  have asks : ∀ before request time between request' time' finished after,
      past = before ++ .slept request time true :: between ++ .slept request' time' finished :: after →
      (∀ e ∈ between, e.isSleep = false) → timeCut before + request' = 100 * 1000000 := by
    rintro before request time between request' time' finished after rfl awake
    have cut := cut_request run
    have none : timeCut (.slept request time true :: between) = 0 + timeCut between := rfl
    rw [timeCut, List.map_append, List.sum_append, ← timeCut, ← timeCut, none, timeCut_awake awake] at cut
    exact cut
  constructor
  · intro keeps before request time between request' time' finished after split awake
    have whole := keeps before request time between request' time' finished after split awake
    have sum := asks before request time between request' time' finished after split awake
    omega
  · intro uncut before request time between request' time' finished after split awake
    have none := uncut before request time between request' time' finished after split awake
    have sum := asks before request time between request' time' finished after split awake
    omega

end interval

/-- One queue, polled without a timeout. -/
def oneItem : List PollItem := [⟨(0, 1), false⟩]

theorem poll_keeps_interval_iff_unread : ∃ past : List PollEvent, (past.filter PollEvent.isSleep).length = 3 ∧
    (KeepsInterval past ↔ Uncut past) := by
  obtain ⟨past, w, run, sleeps⟩ := pollScript_shows (-1) oneItem (List.replicate 6 (.poll .finished))
    (p := fun past _ => (past.filter PollEvent.isSleep).length = 3) (by decide +kernel)
  exact ⟨past, sleeps, poll_keeps_interval_iff run⟩

/-- A signal leaves 1 ms of the first sleep; the second one finishes, and the third
asks for 1 ms again. -/
theorem poll_interval_shrinks : ∃ (past : List PollEvent) (w : PollWorld),
    Run (PollStep countingUids (fun _ => tinySegment) (-1)) ⟨fun _ => attendedState, .start oneItem (-1)⟩ past w ∧
      past = [.checked 0 false, .slept 100000000 99000000 false, .checked 0 false, .slept 1000000 1000000 true,
        .checked 0 false, .slept 1000000 1000000 true] ∧ ¬ KeepsInterval past := by
  obtain ⟨past, w, run, rfl⟩ := pollScript_shows (-1) oneItem
    [.poll .finished, .poll (.interrupted (.ofMs 1)), .poll .finished, .poll .finished, .poll .finished,
      .poll .finished]
    (p := fun past _ => past = [.checked 0 false, .slept 100000000 99000000 false, .checked 0 false,
      .slept 1000000 1000000 true, .checked 0 false, .slept 1000000 1000000 true]) (by decide +kernel)
  refine ⟨_, w, run, rfl, ?_⟩
  intro keeps
  have asks := keeps [.checked 0 false, .slept 100000000 99000000 false, .checked 0 false] _ _
    [.checked 0 false] _ _ _ [] rfl (by simp [PollEvent.isSleep])
  exact absurd asks (by decide)

end Msgq
