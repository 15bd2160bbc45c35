import Mathlib.Algebra.Order.BigOperators.Group.List
import Mathlib.Algebra.Order.Group.Nat
import Mathlib.Data.List.Count
import Mathlib.Data.List.Nodup
import Mathlib.Logic.Function.Basic

/-! The open descriptors of a process. A number is used again once its descriptor
is closed, so what was opened is named by its place among all that was opened. -/
namespace Descriptors
open scoped List

variable {κ : Type*}

/-- What is open behind each number, the kinds of all that was opened, and what each
close hit; what others hold in the process is not listed. -/
structure Table (κ : Type*) where
  slot : Nat → Option Nat
  opened : List κ
  closes : List (Option Nat)

def Table.empty : Table κ := ⟨fun _ => none, [], []⟩

/-- Open `fd`, which has to be free. -/
def Table.openAt (kind : κ) (t : Table κ) (fd : Nat) : Option (Table κ) :=
  if t.slot fd = none then
    some { t with slot := Function.update t.slot fd (some t.opened.length), opened := t.opened ++ [kind] }
  else none

def Table.close (t : Table κ) (fd : Nat) : Table κ :=
  { t with slot := Function.update t.slot fd none, closes := t.closes ++ [t.slot fd] }

def Table.openAll (kind : κ) (t : Table κ) (fds : List Nat) : Option (Table κ) :=
  fds.foldlM (Table.openAt kind) t

def Table.closeAll (t : Table κ) (fds : List Nat) : Table κ := fds.foldl Table.close t

/-- The numbers that are held are exactly those open, each of its kind, and all else
that was opened was closed once. -/
structure Accounts (held : List (Nat × κ)) (t : Table κ) : Prop where
  listed : ∀ fd, t.slot fd ≠ none → fd ∈ held.map Prod.fst
  kinds : ∀ h ∈ held, ∃ d, t.slot h.1 = some d ∧ t.opened[d]? = some h.2
  balance : t.closes ++ (held.map fun h => t.slot h.1) ~ (List.range t.opened.length).map some

section accounts
variable {held held' : List (Nat × κ)} {t t' : Table κ} {kind : κ} {fd d : Nat} {fds : List Nat}

theorem accounts_empty : Accounts [] (Table.empty : Table κ) where
  listed _ used := absurd rfl used
  kinds _ mem := by cases mem
  balance := List.Perm.refl []

theorem Accounts.perm (A : Accounts held t) (same : held.Perm held') : Accounts held' t where
  listed fd used := (same.map Prod.fst).mem_iff.mp (A.listed fd used)
  kinds h mem := A.kinds h (same.mem_iff.mpr mem)
  balance := ((same.map fun h => t.slot h.1).append_left t.closes).symm.trans A.balance

theorem Accounts.names_nodup (A : Accounts held t) : (t.closes ++ held.map fun h => t.slot h.1).Nodup :=
  A.balance.nodup_iff.mpr (List.nodup_range.map fun _ _ => Option.some.inj)

theorem Accounts.nodup (A : Accounts held t) : (held.map Prod.fst).Nodup := by
  have names : ((held.map Prod.fst).map t.slot).Nodup := by
    rw [List.map_map]
    exact A.names_nodup.of_append_right
  exact List.Nodup.of_map t.slot names

theorem Accounts.openAt (A : Accounts held t) (opens : t.openAt kind fd = some t') :
    Accounts ((fd, kind) :: held) t' := by
  rw [Table.openAt] at opens
  split_ifs at opens with free
  cases opens
  have other : ∀ h ∈ held, h.1 ≠ fd := by
    rintro h mem rfl
    obtain ⟨d, used, -⟩ := A.kinds h mem
    rw [free] at used
    cases used
  refine ⟨?_, ?_, ?_⟩
  · intro fd' used
    rw [List.map_cons, List.mem_cons]
    by_cases same : fd' = fd
    · exact Or.inl same
    · dsimp only at used
      rw [Function.update_of_ne same] at used
      exact Or.inr (A.listed fd' used)
  · intro h mem
    rcases List.mem_cons.mp mem with rfl | old
    · exact ⟨t.opened.length, Function.update_self .., List.getElem?_concat_length⟩
    · obtain ⟨d, used, kind⟩ := A.kinds h old
      refine ⟨d, (Function.update_of_ne (other h old) _ _).trans used, ?_⟩
      rw [List.getElem?_append_left (List.getElem?_eq_some_iff.mp kind).1]
      exact kind
  · have kept : (held.map fun h => Function.update t.slot fd (some t.opened.length) h.1) =
        held.map fun h => t.slot h.1 :=
      List.map_congr_left fun h mem => Function.update_of_ne (other h mem) _ _
    rw [List.map_cons, kept]
    dsimp only
    rw [Function.update_self, List.length_append, List.length_singleton, List.range_succ, List.map_append]
    calc
      t.closes ++ some t.opened.length :: (held.map fun h => t.slot h.1)
        ~ some t.opened.length :: (t.closes ++ held.map fun h => t.slot h.1) := List.perm_middle
      _ ~ some t.opened.length :: (List.range t.opened.length).map some := A.balance.cons _
      _ ~ (List.range t.opened.length).map some ++ [some t.opened.length] := (List.perm_append_singleton _ _).symm

theorem Table.close_slot_of_ne {fd' : Nat} (ne : fd' ≠ fd) : (t.close fd).slot fd' = t.slot fd' :=
  Function.update_of_ne ne _ _

theorem Accounts.close (A : Accounts ((fd, kind) :: held) t) : Accounts held (t.close fd) := by
  have other : ∀ h ∈ held, h.1 ≠ fd := by
    intro h mem same
    have inside : h.1 ∈ held.map Prod.fst := List.mem_map_of_mem mem
    rw [same] at inside
    exact (List.nodup_cons.mp A.nodup).1 inside
  refine ⟨?_, ?_, ?_⟩
  · intro fd' used
    have ne : fd' ≠ fd := by
      rintro rfl
      exact used (Function.update_self ..)
    rw [Table.close_slot_of_ne ne] at used
    exact (List.mem_cons.mp (A.listed fd' used)).resolve_left ne
  · intro h mem
    obtain ⟨d, used, kind⟩ := A.kinds h (List.mem_cons_of_mem _ mem)
    exact ⟨d, (Table.close_slot_of_ne (other h mem)).trans used, kind⟩
  · have kept : (held.map fun h => (t.close fd).slot h.1) = held.map fun h => t.slot h.1 :=
      List.map_congr_left fun h mem => Table.close_slot_of_ne (other h mem)
    rw [kept, Table.close, List.append_assoc]
    exact A.balance

theorem Accounts.openAll (A : Accounts held t) (opens : t.openAll kind fds = some t') :
    Accounts (fds.map (·, kind) ++ held) t' := by
  induction fds generalizing t held with
  | nil =>
      cases opens
      exact A
  | cons fd fds ih =>
      obtain ⟨u, one, rest⟩ := Option.bind_eq_some_iff.mp opens
      exact (ih (A.openAt one) rest).perm List.perm_middle

theorem Accounts.closeAll (A : Accounts (fds.map (·, kind) ++ held) t) : Accounts held (t.closeAll fds) := by
  induction fds generalizing t with
  | nil => exact A
  | cons fd fds ih => exact ih A.close

/-- No close missed. -/
theorem Accounts.hits (A : Accounts held t) : none ∉ t.closes := by
  intro missed
  have mem := A.balance.mem_iff.mp (List.mem_append_left _ missed)
  simp at mem

/-- Everything was closed once, and nothing is open. -/
structure Table.Shut (t : Table κ) : Prop where
  once : ∀ d < t.opened.length, t.closes.count (some d) = 1
  free : ∀ fd, t.slot fd = none
  hits : none ∉ t.closes

/-- Some number is free. -/
theorem Accounts.opens (A : Accounts held t) (kind : κ) : ∃ fd t', t.openAt kind fd = some t' := by
  refine ⟨(held.map Prod.fst).sum + 1, _, if_pos ?_⟩
  by_contra used
  have below := List.le_sum_of_mem (A.listed _ used)
  omega

/-- What was opened is held at one number, or was closed, and never both. -/
theorem Accounts.once (A : Accounts held t) (opened : t.opened[d]? = some kind) :
    (t.closes.count (some d) = 0 ∧ ∃ fd, (fd, kind) ∈ held ∧ t.slot fd = some d) ∨
      (t.closes.count (some d) = 1 ∧ ∀ fd, t.slot fd ≠ some d) := by
  have named : some d ∈ t.closes ++ held.map fun h => t.slot h.1 := by
    refine A.balance.mem_iff.mpr (List.mem_map_of_mem (List.mem_range.mpr ?_))
    exact (List.getElem?_eq_some_iff.mp opened).1
  obtain ⟨closed_once, -, apart⟩ := List.nodup_append.mp A.names_nodup
  rcases List.mem_append.mp named with closed | still
  · refine Or.inr ⟨List.count_eq_one_of_mem closed_once closed, ?_⟩
    intro fd used
    obtain ⟨h, mem, rfl⟩ := List.mem_map.mp (A.listed fd (by simp [used]))
    exact apart _ closed _ (List.mem_map_of_mem mem) used.symm
  · obtain ⟨h, mem, used⟩ := List.mem_map.mp still
    refine Or.inl ⟨List.count_eq_zero.mpr fun closed => apart _ closed _ still rfl, h.1, ?_, used⟩
    obtain ⟨d', used', kind'⟩ := A.kinds h mem
    rw [used] at used'
    cases used'
    rw [opened] at kind'
    cases kind'
    exact mem

theorem Accounts.shut (A : Accounts [] t) : t.Shut := by
  refine ⟨?_, ?_, A.hits⟩
  · intro d opened
    rcases A.once (List.getElem?_eq_getElem opened) with ⟨-, fd, mem, -⟩ | closed
    · cases mem
    · exact closed.1
  · intro fd
    by_contra used
    cases A.listed fd used

end accounts

end Descriptors
