import Mathlib.Logic.Function.Basic
import Msgq.Memory

/-! A structure of unsigned 64-bit words at the start of a memory. Fields whose
bytes lie apart are independent variables, and what lies behind the structure is
a memory of its own. -/
namespace WordFields
open ByteMemory

def loadU64 (mem : Memory) (p : Nat) : Nat := wordOf (readBytes mem p 8)

def storeU64 (mem : Memory) (p v : Nat) : Memory := writeBytes mem p (bytesOf 8 v)

/-- Which names are fields, where they lie, and how long the structure is. -/
structure Layout (ι : Type*) where
  field : ι → Prop
  offset : ι → Nat
  size : Nat
  inside : ∀ i, field i → offset i + 8 ≤ size
  apart : ∀ i j, field i → field j → i ≠ j → offset i + 8 ≤ offset j ∨ offset j + 8 ≤ offset i

section layouts
variable {ι : Type*} (L : Layout ι)

def Layout.load (mem : Memory) (i : ι) : Nat := loadU64 mem (L.offset i)

def Layout.store (mem : Memory) (i : ι) (v : Nat) : Memory := storeU64 mem (L.offset i) v

/-- The memory behind the structure. -/
def Layout.tail (mem : Memory) : Memory := fun a => mem (L.size + a)

/-- Bytes written behind the structure. -/
def Layout.writeTail (mem : Memory) (p : Nat) (bs : Bytes) : Memory := writeBytes mem (L.size + p) bs

theorem loadU64_congr {mem mem' : Memory} {p : Nat} (same : AgreeOn mem mem' p (p + 8)) :
    loadU64 mem p = loadU64 mem' p := by
  rw [loadU64, loadU64, readBytes_congr same]

theorem loadU64_lt (mem : Memory) (p : Nat) : loadU64 mem p < 2 ^ 64 := by
  have eight := wordOf_lt (readBytes mem p 8)
  rw [length_readBytes] at eight
  exact eight

theorem loadU64_storeU64 (mem : Memory) (p : Nat) {v : Nat} (word : v < 2 ^ 64) :
    loadU64 (storeU64 mem p v) p = v := by
  have back := readBytes_writeBytes mem p (bytesOf 8 v)
  rw [length_bytesOf] at back
  rw [loadU64, storeU64, back, wordOf_bytesOf]
  exact Nat.mod_eq_of_lt word

theorem loadU64_zero (p : Nat) : loadU64 (fun _ => 0) p = 0 := by
  have zeroes : ∀ n, wordOf (List.replicate n 0) = 0 := by
    intro n
    induction n with
    | zero => rfl
    | succ n ih => rw [List.replicate_succ, wordOf, ih]; rfl
  rw [loadU64, readBytes, List.map_const', zeroes]

theorem storeU64_agree (mem : Memory) (p v : Nat) {lo hi : Nat} (apart : hi ≤ p ∨ p + 8 ≤ lo) :
    AgreeOn (storeU64 mem p v) mem lo hi := writeBytes_agree mem p _ (by simpa using apart)

variable {L} {mem : Memory} {i j : ι} {v : Nat}

theorem Layout.load_zero (i : ι) : L.load (fun _ => 0) i = 0 := loadU64_zero _

theorem Layout.tail_zero : L.tail (fun _ => 0) = fun _ => 0 := rfl

theorem Layout.load_lt (mem : Memory) (i : ι) : L.load mem i < 2 ^ 64 := loadU64_lt mem _

theorem Layout.load_store_self (word : v < 2 ^ 64) : L.load (L.store mem i v) i = v :=
  loadU64_storeU64 mem _ word

theorem Layout.load_store_ne (hi : L.field i) (hj : L.field j) (ne : j ≠ i) :
    L.load (L.store mem i v) j = L.load mem j :=
  loadU64_congr (storeU64_agree mem _ v (L.apart j i hj hi ne))

/-- A store is an update of one variable. -/
theorem Layout.load_store [DecidableEq ι] (hi : L.field i) (hj : L.field j) (word : v < 2 ^ 64) :
    L.load (L.store mem i v) j = Function.update (L.load mem) i v j := by
  by_cases same : j = i
  · subst same
    rw [Function.update_self, Layout.load_store_self word]
  · rw [Function.update_of_ne same, Layout.load_store_ne hi hj same]

@[simp] theorem Layout.load_writeTail (hj : L.field j) (mem : Memory) (p : Nat) (bs : Bytes) :
    L.load (L.writeTail mem p bs) j = L.load mem j := by
  have behind := L.inside j hj
  exact loadU64_congr (writeBytes_agree mem _ bs (Or.inl (by omega)))

theorem Layout.tail_store (hi : L.field i) (mem : Memory) (v : Nat) : L.tail (L.store mem i v) = L.tail mem := by
  have before := L.inside i hi
  funext a
  have same : AgreeOn (storeU64 mem (L.offset i) v) mem L.size (L.size + a + 1) := storeU64_agree mem _ v (Or.inr before)
  exact same _ (by omega) (by omega)

@[simp] theorem Layout.tail_writeTail (mem : Memory) (p : Nat) (bs : Bytes) :
    L.tail (L.writeTail mem p bs) = writeBytes (L.tail mem) p bs := by
  funext a
  have shift : L.size + a - (L.size + p) = a - p := by omega
  have here : (L.size + p ≤ L.size + a ∧ L.size + a < L.size + p + bs.length) ↔ (p ≤ a ∧ a < p + bs.length) := by
    omega
  simp only [Layout.tail, Layout.writeTail, writeBytes, shift, here]

/-- Nothing at or behind `stop` is written. -/
theorem Layout.store_beyond {stop a : Nat} (hi : L.field i) (size : L.size ≤ stop) (beyond : stop ≤ a) :
    L.store mem i v a = mem a := by
  have before := L.inside i hi
  have same : AgreeOn (storeU64 mem (L.offset i) v) mem stop (a + 1) := storeU64_agree mem _ v (Or.inr (by omega))
  exact same a beyond (by omega)

theorem Layout.writeTail_beyond {p a : Nat} {bs : Bytes} (beyond : L.size + p + bs.length ≤ a) :
    L.writeTail mem p bs a = mem a := by
  have same : AgreeOn (writeBytes mem (L.size + p) bs) mem a (a + 1) := writeBytes_agree mem _ bs (Or.inr beyond)
  exact same a le_rfl (by omega)

end layouts

attribute [irreducible] Layout.load Layout.store Layout.writeTail Layout.tail

end WordFields
