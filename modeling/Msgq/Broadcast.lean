import Mathlib.Data.List.Basic
import Mathlib.Logic.Function.Basic

/-! An unbounded broadcast log with one cursor per reader: what a queue with one
writer and any number of independent readers is for. A reader that only wants
the newest entry skips the others; `heard` stays behind the last one it took. -/
namespace Broadcast

structure Log (ι α : Type*) where
  sent : List α
  cursor : ι → Nat
  heard : ι → Nat

section log
variable {ι α : Type*} {b : Log ι α} {i : ι} {a : α}

def empty : Log ι α := ⟨[], fun _ => 0, fun _ => 0⟩

def push (b : Log ι α) (a : α) : Log ι α := { b with sent := b.sent ++ [a] }

def unread (b : Log ι α) (i : ι) : List α := b.sent.drop (b.cursor i)

def unheard (b : Log ι α) (i : ι) : List α := b.sent.drop (b.heard i)

/-- The reader is not ahead of the writer. -/
def Valid (b : Log ι α) (i : ι) : Prop := b.cursor i ≤ b.sent.length

/-- The reader never skips the newest entry. -/
def Fresh (b : Log ι α) (i : ι) : Prop := unread b i = [] → unheard b i = []

@[simp] theorem push_sent (b : Log ι α) (a : α) : (push b a).sent = b.sent ++ [a] := rfl

theorem empty_fresh (i : ι) : Fresh (empty : Log ι α) i := id

theorem unread_push (h : Valid b i) (a : α) : unread (push b a) i = unread b i ++ [a] :=
  List.drop_append_of_le_length h

theorem push_valid (h : Valid b i) (a : α) : Valid (push b a) i := by
  apply Nat.le_trans h
  rw [push_sent, List.length_append]
  exact Nat.le_add_right _ _

theorem push_fresh (h : Valid b i) (a : α) : Fresh (push b a) i := by
  intro none
  rw [unread_push h] at none
  exact absurd none (by simp)

/-- The head of the unread entries is the entry at the cursor. -/
theorem sent_at_cursor {rest : List α} (h : unread b i = a :: rest) :
    b.sent[b.cursor i]? = some a := by
  have := congrArg List.head? h
  rwa [unread, List.head?_drop] at this

theorem mem_sent_of_unread (h : a ∈ unread b i) : a ∈ b.sent := List.mem_of_mem_drop h

/-- A reader with something unread may move over it. -/
theorem next_le (h : unread b i ≠ []) : b.cursor i + 1 ≤ b.sent.length := by
  by_contra past
  apply h
  apply List.drop_eq_nil_of_le
  omega

/-- Nothing changed for one reader. -/
structure SameFor (b b' : Log ι α) (i : ι) : Prop where
  sent : b'.sent = b.sent
  cursor : b'.cursor i = b.cursor i
  heard : b'.heard i = b.heard i

theorem SameFor.rfl : SameFor b b i := ⟨Eq.refl _, Eq.refl _, Eq.refl _⟩

theorem SameFor.trans {b' b'' : Log ι α} (k : SameFor b b' i) (l : SameFor b' b'' i) : SameFor b b'' i :=
  ⟨l.sent.trans k.sent, l.cursor.trans k.cursor, l.heard.trans k.heard⟩

theorem SameFor.unread {b' : Log ι α} (k : SameFor b b' i) : unread b' i = unread b i := by
  rw [Broadcast.unread, Broadcast.unread, k.sent, k.cursor]

theorem SameFor.unheard {b' : Log ι α} (k : SameFor b b' i) : unheard b' i = unheard b i := by
  rw [Broadcast.unheard, Broadcast.unheard, k.sent, k.heard]

theorem SameFor.valid {b' : Log ι α} (k : SameFor b b' i) (h : Valid b i) : Valid b' i := by
  rw [Valid, k.sent, k.cursor]
  exact h

theorem SameFor.fresh {b' : Log ι α} (k : SameFor b b' i) (h : Fresh b i) : Fresh b' i := by
  rw [Fresh, k.unread, k.unheard]
  exact h

end log

section readers
variable {ι α : Type*} [DecidableEq ι] {b : Log ι α} {i j : ι}

/-- The reader gives up everything sent so far. -/
def seek (b : Log ι α) (i : ι) : Log ι α where
  sent := b.sent
  cursor := Function.update b.cursor i b.sent.length
  heard := Function.update b.heard i b.sent.length

/-- The reader takes one entry. -/
def advance (b : Log ι α) (i : ι) : Log ι α where
  sent := b.sent
  cursor := Function.update b.cursor i (b.cursor i + 1)
  heard := Function.update b.heard i (b.cursor i + 1)

/-- The reader passes over one entry. -/
def skip (b : Log ι α) (i : ι) : Log ι α where
  sent := b.sent
  cursor := Function.update b.cursor i (b.cursor i + 1)
  heard := b.heard

@[simp] theorem seek_sent (b : Log ι α) (i : ι) : (seek b i).sent = b.sent := rfl
@[simp] theorem advance_sent (b : Log ι α) (i : ι) : (advance b i).sent = b.sent := rfl
@[simp] theorem skip_sent (b : Log ι α) (i : ι) : (skip b i).sent = b.sent := rfl

theorem unread_seek (b : Log ι α) (i : ι) : unread (seek b i) = Function.update (unread b) i [] := by
  funext j
  by_cases same : j = i
  · subst same
    simp [unread, seek]
  · simp [unread, seek, same]

theorem unread_skip (b : Log ι α) (i : ι) :
    unread (skip b i) = Function.update (unread b) i (unread b i).tail := by
  funext j
  by_cases same : j = i
  · subst same
    simp [unread, skip]
  · simp [unread, skip, same]

theorem unread_advance (b : Log ι α) (i : ι) :
    unread (advance b i) = Function.update (unread b) i (unread b i).tail := unread_skip b i

theorem unheard_seek_self (b : Log ι α) (i : ι) : unheard (seek b i) i = [] := by
  simp [unheard, seek]

theorem unheard_advance_self (b : Log ι α) (i : ι) :
    unheard (advance b i) i = unread (advance b i) i := by simp [unheard, unread, advance]

theorem seek_same (b : Log ι α) (ne : j ≠ i) : SameFor b (seek b i) j :=
  ⟨rfl, Function.update_of_ne ne _ _, Function.update_of_ne ne _ _⟩

theorem skip_same (b : Log ι α) (ne : j ≠ i) : SameFor b (skip b i) j :=
  ⟨rfl, Function.update_of_ne ne _ _, rfl⟩

theorem advance_same (b : Log ι α) (ne : j ≠ i) : SameFor b (advance b i) j :=
  ⟨rfl, Function.update_of_ne ne _ _, Function.update_of_ne ne _ _⟩

theorem seek_valid (h : Valid b j) (i : ι) : Valid (seek b i) j := by
  by_cases same : j = i
  · subst same
    simp [Valid, seek]
  · simpa [Valid, seek, same] using h

theorem seek_valid_self (b : Log ι α) (i : ι) : Valid (seek b i) i := by
  simp [Valid, seek]

theorem skip_valid (h : Valid b j) (hu : unread b i ≠ []) : Valid (skip b i) j := by
  by_cases same : j = i
  · subst same
    simpa [Valid, skip] using next_le hu
  · simpa [Valid, skip, same] using h

theorem advance_valid (h : Valid b j) (hu : unread b i ≠ []) : Valid (advance b i) j := skip_valid h hu

theorem seek_fresh (b : Log ι α) (i : ι) : Fresh (seek b i) i := fun _ => unheard_seek_self b i

theorem advance_fresh (b : Log ι α) (i : ι) : Fresh (advance b i) i := by
  intro none
  rw [unheard_advance_self, none]

end readers

end Broadcast
