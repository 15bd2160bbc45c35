import Mathlib.Data.List.Basic
import Mathlib.Data.List.Induction
import Mathlib.Data.List.ReduceOption

/-! Labelled transition systems and loops. A run carries the list of labels it
took, oldest first, so an invariant may speak about the whole past. -/
namespace Traces

section runs
variable {σ ε : Type*}

inductive Run (step : σ → ε → σ → Prop) (start : σ) : List ε → σ → Prop
  | nil : Run step start [] start
  | snoc {past s e t} : Run step start past s → step s e t → Run step start (past ++ [e]) t

/-- An invariant of states and their pasts. -/
theorem Run.invariant {step : σ → ε → σ → Prop} {start : σ} {I : List ε → σ → Prop}
    (init : I [] start)
    (keep : ∀ past s e t, Run step start past s → I past s → step s e t → I (past ++ [e]) t)
    {past : List ε} {s : σ} (run : Run step start past s) : I past s := by
  induction run with
  | nil => exact init
  | snoc run one ih => exact keep _ _ _ _ run ih one

theorem Run.mono {step step' : σ → ε → σ → Prop} {start : σ}
    (sub : ∀ s e t, step s e t → step' s e t) {past : List ε} {s : σ}
    (run : Run step start past s) : Run step' start past s := by
  induction run with
  | nil => exact .nil
  | snoc run one ih => exact ih.snoc (sub _ _ _ one)

theorem Run.append {step : σ → ε → σ → Prop} {a b c : σ} {xs ys : List ε}
    (first : Run step a xs b) (second : Run step b ys c) : Run step a (xs ++ ys) c := by
  induction second with
  | nil => simpa using first
  | snoc run one ih => rw [← List.append_assoc]; exact ih.snoc one

/-- A run splits at every point of its past. -/
theorem Run.split {step : σ → ε → σ → Prop} {a c : σ} {xs ys : List ε}
    (run : Run step a (xs ++ ys) c) : ∃ b, Run step a xs b ∧ Run step b ys c := by
  induction ys using List.reverseRecOn generalizing c with
  | nil => exact ⟨c, by simpa using run, .nil⟩
  | append_singleton ys y ih =>
      rw [← List.append_assoc] at run
      generalize h : xs ++ ys ++ [y] = past at run
      cases run with
      | nil => simp at h
      | snoc run one =>
          obtain ⟨rfl, rfl⟩ := List.append_singleton_inj.mp h
          obtain ⟨b, first, rest⟩ := ih run
          exact ⟨b, first, rest.snoc one⟩

theorem Run.last {step : σ → ε → σ → Prop} {a c : σ} {xs : List ε} {e : ε}
    (run : Run step a (xs ++ [e]) c) : ∃ b, Run step a xs b ∧ step b e c := by
  generalize h : xs ++ [e] = past at run
  cases run with
  | nil => simp at h
  | snoc run one =>
      obtain ⟨rfl, rfl⟩ := List.append_singleton_inj.mp h
      exact ⟨_, run, one⟩

/-- Where every step is silent or a step of the images, a run is a run of the images. -/
theorem Run.image {σ' : Type*} {f : σ → σ'} {step : σ → Option ε → σ → Prop} {step' : σ' → ε → σ' → Prop}
    {start : σ} {I : σ → Prop} (init : I start)
    (simulates : ∀ past s e t, Run step' (f start) past (f s) → I s → step s e t →
      I t ∧ (e = none → f t = f s) ∧ ∀ x, e = some x → step' (f s) x (f t))
    {past : List (Option ε)} {s : σ} (run : Run step start past s) :
    I s ∧ Run step' (f start) past.reduceOption (f s) := by
  induction run with
  | nil => exact ⟨init, .nil⟩
  | snoc run one ih =>
      obtain ⟨inv, before⟩ := ih
      obtain ⟨keeps, silent, steps⟩ := simulates _ _ _ _ before inv one
      refine ⟨keeps, ?_⟩
      rw [List.reduceOption_append]
      rename_i past s e t
      cases e with
      | none =>
          rw [silent rfl]
          simpa [List.reduceOption] using before
      | some x => exact before.snoc (steps x rfl)

/-- An event of a longer past is the last one, or was there before. -/
theorem split_snoc {past before after : List ε} {e x : ε} (same : past ++ [e] = before ++ x :: after) :
    before = past ∧ x = e ∨ ∃ more, past = before ++ x :: more ∧ after = more ++ [e] := by
  induction after using List.reverseRecOn with
  | nil =>
      obtain ⟨rfl, rfl⟩ := List.append_singleton_inj.mp same
      exact Or.inl ⟨rfl, rfl⟩
  | append_singleton after y ih =>
      rw [← List.cons_append, ← List.append_assoc] at same
      obtain ⟨rfl, rfl⟩ := List.append_singleton_inj.mp same
      exact Or.inr ⟨after, rfl, rfl⟩

end runs

section performing
variable {σ ε κ : Type*}

/-- Carry out a list of actions as long as every one of them is allowed. -/
def perform (act : σ → κ → Option (ε × σ)) (ok : σ → ε → Prop) [∀ s e, Decidable (ok s e)] (s : σ) :
    List κ → Option (List ε × σ)
  | [] => some ([], s)
  | k :: ks => do
      let (e, t) ← act s k
      if ok s e then
        let (es, u) ← perform act ok t ks
        return (e :: es, u)
      else none

/-- What is carried out is a run. -/
theorem performed {act : σ → κ → Option (ε × σ)} {ok : σ → ε → Prop} [∀ s e, Decidable (ok s e)]
    {step : σ → ε → σ → Prop} {s u : σ} {ks : List κ} {es : List ε} (h : perform act ok s ks = some (es, u))
    (one : ∀ k s e t, act s k = some (e, t) → step s e t) : Run (fun s e t => step s e t ∧ ok s e) s es u := by
  induction ks generalizing s es with
  | nil =>
      cases h
      exact .nil
  | cons k ks ih =>
      simp only [perform, Option.bind_eq_bind, Option.bind_eq_some_iff] at h
      obtain ⟨⟨e, t⟩, first, more⟩ := h
      split_ifs at more with allowed
      obtain ⟨⟨es', u'⟩, rest, same⟩ := Option.bind_eq_some_iff.mp more
      cases same
      exact (Run.nil.snoc ⟨one k s e t first, allowed⟩).append (ih rest)

end performing

section loops
variable {σ π : Type*}

/-- Repeat `pass` while it asks to go on; `none` only when the fuel is used up. -/
def loop (pass : σ → π × σ) (again : π → Bool) : Nat → σ → Option (List π × σ)
  | 0, _ => none
  | n+1, s =>
      if again (pass s).1 then (loop pass again n (pass s).2).map fun r => ((pass s).1 :: r.1, r.2)
      else some ([(pass s).1], (pass s).2)

theorem loop_done {pass : σ → π × σ} {again : π → Bool} {s t : σ} {k : π} (n : Nat)
    (one : pass s = (k, t)) (stop : again k = false) : loop pass again (n + 1) s = some ([k], t) := by
  simp [loop, one, stop]

theorem loop_again {pass : σ → π × σ} {again : π → Bool} {s t u : σ} {n : Nat} {k : π} {ks : List π}
    (one : pass s = (k, t)) (more : again k = true) (rest : loop pass again n t = some (ks, u)) :
    loop pass again (n + 1) s = some (k :: ks, u) := by
  simp [loop, one, more, rest]

/-- A loop that ends makes at least one pass. -/
theorem loop_last {pass : σ → π × σ} {again : π → Bool} {n : Nat} {s t : σ} {ks : List π}
    (run : loop pass again n s = some (ks, t)) : ∃ k, ks.getLast? = some k := by
  have some_of_ne : ks ≠ [] := by
    cases n with
    | zero => cases run
    | succ n =>
        rw [loop] at run
        split at run
        · obtain ⟨r, -, same⟩ := Option.map_eq_some_iff.mp run
          cases same
          exact List.cons_ne_nil _ _
        · cases run
          exact List.cons_ne_nil _ _
  exact ⟨ks.getLast some_of_ne, List.getLast?_eq_some_getLast some_of_ne⟩

/-- The first pass of a loop, which is all of it where it does not go on. -/
theorem loop_first {pass : σ → π × σ} {again : π → Bool} {n : Nat} {s t : σ} {ks : List π}
    (run : loop pass again n s = some (ks, t)) :
    (pass s).1 ∈ ks ∧ (again (pass s).1 = false → t = (pass s).2) := by
  cases n with
  | zero => cases run
  | succ n =>
      rw [loop] at run
      split at run
      · rename_i more
        obtain ⟨r, -, same⟩ := Option.map_eq_some_iff.mp run
        cases same
        refine ⟨List.mem_cons_self, ?_⟩
        rw [more]
        rintro ⟨⟩
      · cases run
        exact ⟨List.mem_singleton_self _, fun _ => rfl⟩

theorem loop_invariant_from {pass : σ → π × σ} {again : π → Bool} {I : List π → σ → Prop}
    (keep : ∀ ks s, I ks s → I (ks ++ [(pass s).1]) (pass s).2) {n : Nat} {s t : σ}
    {ks ts : List π} (init : I ks s) (run : loop pass again n s = some (ts, t)) :
    I (ks ++ ts) t := by
  induction n generalizing ks ts s with
  | zero => cases run
  | succ n ih =>
      rw [loop] at run
      split at run
      · obtain ⟨⟨rs, u⟩, inner, same⟩ := Option.map_eq_some_iff.mp run
        obtain ⟨rfl, rfl⟩ := Prod.mk.inj same
        have := ih (keep ks s init) inner
        simpa using this
      · obtain ⟨rfl, rfl⟩ := Prod.mk.inj (Option.some.inj run)
        exact keep ks s init

/-- What every pass preserves holds at the end, together with the passes made. -/
theorem loop_invariant {pass : σ → π × σ} {again : π → Bool} {I : List π → σ → Prop}
    (keep : ∀ ks s, I ks s → I (ks ++ [(pass s).1]) (pass s).2) {n : Nat} {s t : σ} {ts : List π}
    (init : I [] s) (run : loop pass again n s = some (ts, t)) : I ts t :=
  loop_invariant_from keep init run

theorem loop_ends_from {pass : σ → π × σ} {again : π → Bool} {I : List π → σ → Prop}
    (keep : ∀ ks s, I ks s → again (pass s).1 = true → I (ks ++ [(pass s).1]) (pass s).2) {n : Nat}
    {s t : σ} {ks ts : List π} (init : I ks s) (run : loop pass again n s = some (ts, t)) :
    ∃ ws u, ts = ws ++ [(pass u).1] ∧ t = (pass u).2 ∧ again (pass u).1 = false ∧ I (ks ++ ws) u := by
  induction n generalizing ks ts s with
  | zero => cases run
  | succ n ih =>
      rw [loop] at run
      split at run
      · rename_i more
        obtain ⟨⟨rs, v⟩, inner, same⟩ := Option.map_eq_some_iff.mp run
        obtain ⟨rfl, rfl⟩ := Prod.mk.inj same
        obtain ⟨ws, u, rfl, ht, stop, inv⟩ := ih (keep ks s init more) inner
        refine ⟨(pass s).1 :: ws, u, rfl, ht, stop, ?_⟩
        rw [List.append_cons]
        exact inv
      · rename_i stop
        obtain ⟨rfl, rfl⟩ := Prod.mk.inj (Option.some.inj run)
        refine ⟨[], s, rfl, rfl, by simpa using stop, ?_⟩
        rwa [List.append_nil]

/-- The last pass of a loop starts where the passes before it left off. -/
theorem loop_ends {pass : σ → π × σ} {again : π → Bool} {I : List π → σ → Prop}
    (keep : ∀ ks s, I ks s → again (pass s).1 = true → I (ks ++ [(pass s).1]) (pass s).2) {n : Nat}
    {s t : σ} {ts : List π} (init : I [] s) (run : loop pass again n s = some (ts, t)) :
    ∃ ws u, ts = ws ++ [(pass u).1] ∧ t = (pass u).2 ∧ again (pass u).1 = false ∧ I ws u :=
  loop_ends_from keep init run

/-- How many passes of a loop meet a condition on the state before them. -/
def loopCount (pass : σ → π × σ) (again : π → Bool) (p : σ → π → Bool) : Nat → σ → Nat
  | 0, _ => 0
  | n+1, s => (if p s (pass s).1 then 1 else 0) + if again (pass s).1 then loopCount pass again p n (pass s).2 else 0

/-- Two runs of one loop that both finish agree. -/
theorem loop_unique {pass : σ → π × σ} {again : π → Bool} {m n : Nat} {s : σ}
    {r r' : List π × σ} (h : loop pass again m s = some r) (h' : loop pass again n s = some r') :
    r = r' := by
  induction m generalizing n s r r' with
  | zero => cases h
  | succ m ih =>
      cases n with
      | zero => cases h'
      | succ n =>
          rw [loop] at h h'
          split at h
          · rename_i go
            rw [if_pos go] at h'
            obtain ⟨a, ha, rfl⟩ := Option.map_eq_some_iff.mp h
            obtain ⟨b, hb, rfl⟩ := Option.map_eq_some_iff.mp h'
            rw [ih ha hb]
          · rename_i stop
            rw [if_neg stop] at h'
            exact Option.some.inj (h.symm.trans h')

/-- A loop over states that stand for others runs as the loop over those. -/
theorem loop_map {σ' : Type*} {f : σ' → σ} {pass : σ → π × σ} {pass' : σ' → π × σ'} {again : π → Bool}
    {I : σ' → Prop} (same : ∀ s, I s → pass (f s) = ((pass' s).1, f (pass' s).2)) (keep : ∀ s, I s → I (pass' s).2)
    (n : Nat) {s : σ'} (init : I s) :
    loop pass again n (f s) = (loop pass' again n s).map fun r => (r.1, f r.2) := by
  induction n generalizing s with
  | zero => rfl
  | succ n ih =>
      rw [loop, loop, same s init]
      dsimp only
      split_ifs with more
      · rw [ih (keep s init), Option.map_map, Option.map_map]
        rfl
      · rfl

end loops

end Traces
