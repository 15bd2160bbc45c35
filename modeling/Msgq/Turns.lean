import Mathlib.Logic.Function.Basic
import Msgq.Traces

/-! Processes with a private state each that take turns on one shared state. One
move of one process is indivisible, and the order of the moves is arbitrary. -/
namespace Turns
open Traces

structure World (σ ℓ : Type*) where
  shared : σ
  proc : Nat → ℓ

section turns
variable {σ ℓ κ ε : Type*}

def World.set (w : World σ ℓ) (p : Nat) (s : σ) (l : ℓ) : World σ ℓ := ⟨s, Function.update w.proc p l⟩

@[simp] theorem set_shared (w : World σ ℓ) (p : Nat) (s : σ) (l : ℓ) : (w.set p s l).shared = s := rfl

@[simp] theorem set_self (w : World σ ℓ) (p : Nat) (s : σ) (l : ℓ) : (w.set p s l).proc p = l := by
  simp [World.set]

theorem set_ne (w : World σ ℓ) {p p' : Nat} (ne : p' ≠ p) (s : σ) (l : ℓ) :
    (w.set p s l).proc p' = w.proc p' := by
  simp [World.set, ne]

/-- Process `p` makes a move that `next` allows, from a world in which it may. -/
inductive Turn (next : σ → ℓ → κ → Option (ε × σ × ℓ)) (ok : World σ ℓ → Nat → Prop) :
    World σ ℓ → Nat × ε → World σ ℓ → Prop
  | move {w p k e s l} : ok w p → next w.shared (w.proc p) k = some (e, s, l) →
      Turn next ok w (p, e) (w.set p s l)

theorem Turn.weaken {next : σ → ℓ → κ → Option (ε × σ × ℓ)} {ok ok' : World σ ℓ → Nat → Prop}
    (sub : ∀ w p, ok w p → ok' w p) {w w' : World σ ℓ} {pe : Nat × ε} (turn : Turn next ok w pe w') :
    Turn next ok' w pe w' := by
  cases turn with
  | move may makes => exact .move (sub _ _ may) makes

/-- Make the moves of a schedule as long as all of them are allowed. -/
def schedule (next : σ → ℓ → κ → Option (ε × σ × ℓ)) (ok : World σ ℓ → Nat → Prop)
    [∀ w p, Decidable (ok w p)] (w : World σ ℓ) : List (Nat × κ) → Option (List (Nat × ε) × World σ ℓ)
  | [] => some ([], w)
  | (p, k) :: rest =>
      if ok w p then
        match next w.shared (w.proc p) k with
        | none => none
        | some (e, s, l) => (schedule next ok (w.set p s l) rest).map fun r => ((p, e) :: r.1, r.2)
      else none

/-- No process but those of `ps` has moved since `base`. -/
def Untouched (base : World σ ℓ) (ps : List Nat) (w : World σ ℓ) : Prop :=
  ∀ p, p ∉ ps → w.proc p = base.proc p

theorem Untouched.set {base w : World σ ℓ} {ps : List Nat} (same : Untouched base ps w) {p : Nat}
    (mem : p ∈ ps) (s : σ) (l : ℓ) : Untouched base ps (w.set p s l) := by
  intro p' out
  have ne : p' ≠ p := by
    rintro rfl
    exact out mem
  rw [set_ne w ne, same p' out]

/-- A schedule is a run, in which only the processes it names ever move. -/
theorem schedule_run {next : σ → ℓ → κ → Option (ε × σ × ℓ)} {ok : World σ ℓ → Nat → Prop}
    [∀ w p, Decidable (ok w p)] (base : World σ ℓ) {w w' : World σ ℓ} {ps : List Nat} {moves : List (Nat × κ)}
    {past : List (Nat × ε)} (h : schedule next ok w moves = some (past, w'))
    (named : ∀ m ∈ moves, m.1 ∈ ps) (same : Untouched base ps w) :
    Run (Turn next fun w p => ok w p ∧ Untouched base ps w) w past w' ∧ Untouched base ps w' := by
  induction moves generalizing w past with
  | nil => cases h; exact ⟨.nil, same⟩
  | cons first rest ih =>
      obtain ⟨p, k⟩ := first
      rw [schedule] at h
      split at h
      · rename_i may
        split at h
        · cases h
        · rename_i e s l makes
          obtain ⟨⟨past', u⟩, more, done⟩ := Option.map_eq_some_iff.mp h
          cases done
          have mem : p ∈ ps := named _ List.mem_cons_self
          obtain ⟨tail, last⟩ := ih more (fun m hm => named m (List.mem_cons_of_mem _ hm)) (same.set mem s l)
          exact ⟨(Run.nil.snoc (.move ⟨may, same⟩ makes)).append tail, last⟩
      · cases h

end turns

end Turns
