import Mathlib.Data.List.Basic
import Mathlib.Data.List.GetD
import Mathlib.Tactic.Linarith

/-! Byte-addressed memory with little-endian 64-bit words. Every write is an
explicit byte string at an explicit address, so each frame fact is about two
address intervals. -/
namespace ByteMemory

abbrev Bytes := List UInt8

/-- The address space from a base address on. -/
abbrev Memory := Nat → UInt8

def readBytes (mem : Memory) (p n : Nat) : Bytes := (List.range n).map fun j => mem (p + j)

def writeBytes (mem : Memory) (p : Nat) (bs : Bytes) : Memory :=
  fun a => if p ≤ a ∧ a < p + bs.length then bs.getD (a - p) 0 else mem a

/-- The two memories hold the same bytes at every address of `[lo, hi)`. -/
def AgreeOn (mem mem' : Memory) (lo hi : Nat) : Prop := ∀ a, lo ≤ a → a < hi → mem a = mem' a

@[simp] theorem length_readBytes (mem : Memory) (p n : Nat) : (readBytes mem p n).length = n := by
  simp [readBytes]

@[simp] theorem readBytes_zero (mem : Memory) (p : Nat) : readBytes mem p 0 = [] := rfl

theorem readBytes_succ (mem : Memory) (p n : Nat) : readBytes mem p (n + 1) = mem p :: readBytes mem (p + 1) n := by
  simp [readBytes, List.range_succ_eq_map, Nat.add_assoc, Nat.add_comm 1]

theorem readBytes_add (mem : Memory) (p m n : Nat) :
    readBytes mem p (m + n) = readBytes mem p m ++ readBytes mem (p + m) n := by
  simp [readBytes, List.range_add, Nat.add_assoc]

theorem take_readBytes (mem : Memory) (p : Nat) {m n : Nat} (h : m ≤ n) :
    (readBytes mem p n).take m = readBytes mem p m := by
  obtain ⟨k, rfl⟩ := Nat.exists_eq_add_of_le h
  rw [readBytes_add, List.take_left' (length_readBytes mem p m)]

theorem drop_readBytes (mem : Memory) (p m n : Nat) :
    (readBytes mem p n).drop m = readBytes mem (p + m) (n - m) := by
  by_cases h : m ≤ n
  · obtain ⟨k, rfl⟩ := Nat.exists_eq_add_of_le h
    rw [readBytes_add, List.drop_left' (length_readBytes mem p m), Nat.add_sub_cancel_left]
  · rw [List.drop_eq_nil_of_le (by simp; omega), Nat.sub_eq_zero_of_le (by omega), readBytes_zero]

theorem AgreeOn.symm {mem mem' : Memory} {lo hi : Nat} (h : AgreeOn mem mem' lo hi) :
    AgreeOn mem' mem lo hi := fun a hl hh => (h a hl hh).symm

theorem AgreeOn.mono {mem mem' : Memory} {lo hi lo' hi' : Nat} (h : AgreeOn mem mem' lo hi)
    (hl : lo ≤ lo') (hh : hi' ≤ hi) : AgreeOn mem mem' lo' hi' :=
  fun a ha hb => h a (hl.trans ha) (hb.trans_le hh)

theorem AgreeOn.trans {a b c : Memory} {lo hi : Nat} (h : AgreeOn a b lo hi)
    (k : AgreeOn b c lo hi) : AgreeOn a c lo hi :=
  fun x hl hh => (h x hl hh).trans (k x hl hh)

theorem readBytes_congr {mem mem' : Memory} {p n : Nat} (h : AgreeOn mem mem' p (p + n)) :
    readBytes mem p n = readBytes mem' p n := by
  apply List.map_congr_left
  intro j hj
  have hjn : j < n := List.mem_range.mp hj
  exact h (p + j) (by omega) (by omega)

/-- Bulk writes leave every byte outside the written interval alone. -/
theorem writeBytes_agree (mem : Memory) (p : Nat) (bs : Bytes) {lo hi : Nat}
    (h : hi ≤ p ∨ p + bs.length ≤ lo) : AgreeOn (writeBytes mem p bs) mem lo hi := by
  intro a hl hh
  rw [writeBytes, if_neg (by omega)]

theorem readBytes_writeBytes (mem : Memory) (p : Nat) (bs : Bytes) :
    readBytes (writeBytes mem p bs) p bs.length = bs := by
  apply List.ext_getElem (by simp)
  intro j hj hb
  simp only [readBytes, List.getElem_map, List.getElem_range, writeBytes]
  rw [if_pos (by omega), Nat.add_sub_cancel_left, List.getD_eq_getElem _ _ hb]

@[simp] theorem writeBytes_nil (mem : Memory) (p : Nat) : writeBytes mem p [] = mem := by
  funext a
  rw [writeBytes, if_neg (by simp only [List.length_nil]; omega)]

theorem writeBytes_append (mem : Memory) (p : Nat) (bs cs : Bytes) :
    writeBytes (writeBytes mem p bs) (p + bs.length) cs = writeBytes mem p (bs ++ cs) := by
  funext a
  simp only [writeBytes, List.length_append]
  by_cases hc : p + bs.length ≤ a ∧ a < p + bs.length + cs.length
  · rw [if_pos hc, if_pos (by omega), List.getD_append_right _ _ _ _ (by omega)]
    congr 1
    omega
  · rw [if_neg hc]
    by_cases hb : p ≤ a ∧ a < p + bs.length
    · rw [if_pos hb, if_pos (by omega), List.getD_append _ _ _ _ (by omega)]
    · rw [if_neg hb, if_neg (by omega)]

/-! Little-endian words. -/

/-- The `k` low bytes of `n`, least significant first. -/
def bytesOf : Nat → Nat → Bytes
  | 0, _ => []
  | k+1, n => UInt8.ofNat (n % 256) :: bytesOf k (n / 256)

def wordOf : Bytes → Nat
  | [] => 0
  | b :: bs => b.toNat + 256 * wordOf bs

@[simp] theorem length_bytesOf (k n : Nat) : (bytesOf k n).length = k := by
  induction k generalizing n with
  | zero => rfl
  | succ k ih => simp [bytesOf, ih]

theorem wordOf_lt (bs : Bytes) : wordOf bs < 256 ^ bs.length := by
  induction bs with
  | nil => exact Nat.one_pos
  | cons b bs ih =>
      have byte : b.toNat < 256 := b.toNat_lt
      rw [wordOf, List.length_cons, pow_succ]
      omega

/-- Smaller bytes make a smaller word. -/
theorem wordOf_readBytes_le {mem mem' : Memory} (low : ∀ a, (mem' a).toNat ≤ (mem a).toNat) (p n : Nat) :
    wordOf (readBytes mem' p n) ≤ wordOf (readBytes mem p n) := by
  induction n generalizing p with
  | zero => exact le_refl _
  | succ n ih =>
      have head := low p
      have tail := ih (p + 1)
      rw [readBytes_succ, readBytes_succ, wordOf, wordOf]
      omega

theorem wordOf_bytesOf (k n : Nat) : wordOf (bytesOf k n) = n % 256 ^ k := by
  induction k generalizing n with
  | zero => simp [bytesOf, wordOf, Nat.mod_one]
  | succ k ih =>
      have hb : (UInt8.ofNat (n % 256)).toNat = n % 256 := by simp
      rw [bytesOf, wordOf, ih, hb, pow_succ', Nat.mod_mul]

theorem wordOf_bytesOf_lt {k n : Nat} (h : n < 256 ^ k) : wordOf (bytesOf k n) = n :=
  (wordOf_bytesOf k n).trans (Nat.mod_eq_of_lt h)

/-- The little-endian field of `n` bytes at `p`. -/
def field (bs : Bytes) (p n : Nat) : Nat := wordOf ((bs.drop p).take n)

theorem field_skip (xs ys : Bytes) {p k n : Nat} (h : xs.length = k) :
    field (xs ++ ys) (k + p) n = field ys p n := by
  rw [field, field, List.drop_append, List.drop_eq_nil_of_le (by omega), h, Nat.add_sub_cancel_left, List.nil_append]

theorem field_here (xs ys : Bytes) {n : Nat} (h : xs.length = n) : field (xs ++ ys) 0 n = wordOf xs := by
  rw [field, List.drop_zero, List.take_left' h]

/-- The 64-bit pattern of an integer. -/
def toU64 (v : Int) : Nat := (v % 2 ^ 64).toNat

/-- The signed reading of a 64-bit pattern. -/
def toI64 (n : Nat) : Int := if n < 2 ^ 63 then n else n - 2 ^ 64

def loadWord (mem : Memory) (p : Nat) : Int := toI64 (wordOf (readBytes mem p 8))

def storeWord (mem : Memory) (p : Nat) (v : Int) : Memory := writeBytes mem p (bytesOf 8 (toU64 v))

theorem toU64_lt (v : Int) : toU64 v < 2 ^ 64 := by
  unfold toU64
  omega

theorem toI64_toU64 {v : Int} (hl : -2 ^ 63 ≤ v) (hh : v < 2 ^ 63) : toI64 (toU64 v) = v := by
  unfold toI64 toU64
  split_ifs <;> omega

theorem loadWord_congr {mem mem' : Memory} {p : Nat} (h : AgreeOn mem mem' p (p + 8)) :
    loadWord mem p = loadWord mem' p := by
  rw [loadWord, loadWord, readBytes_congr h]

theorem loadWord_le {mem mem' : Memory} (low : ∀ a, (mem' a).toNat ≤ (mem a).toNat) {p n : Nat}
    (word : loadWord mem p = n) : ∃ n' ≤ n, loadWord mem' p = (n' : Int) := by
  have bound := wordOf_lt (readBytes mem p 8)
  have less := wordOf_readBytes_le low p 8
  rw [length_readBytes] at bound
  refine ⟨wordOf (readBytes mem' p 8), ?_, ?_⟩
  all_goals
    simp only [loadWord, toI64] at word ⊢
    split_ifs at word ⊢ <;> omega

theorem storeWord_agree (mem : Memory) (p : Nat) (v : Int) {lo hi : Nat}
    (h : hi ≤ p ∨ p + 8 ≤ lo) : AgreeOn (storeWord mem p v) mem lo hi :=
  writeBytes_agree mem p _ (by simpa using h)

theorem loadWord_storeWord (mem : Memory) (p : Nat) {v : Int} (hl : -2 ^ 63 ≤ v) (hh : v < 2 ^ 63) :
    loadWord (storeWord mem p v) p = v := by
  have hr := readBytes_writeBytes mem p (bytesOf 8 (toU64 v))
  rw [length_bytesOf] at hr
  have hw : toU64 v % 256 ^ 8 = toU64 v := Nat.mod_eq_of_lt (toU64_lt v)
  rw [loadWord, storeWord, hr, wordOf_bytesOf, hw, toI64_toU64 hl hh]

/-! A bulk copy as a sequence of pieces of at most eight bytes. -/

/-- Piece `j` of a copy of `bs` to address `p`. -/
def piece (p : Nat) (bs : Bytes) (j : Nat) : Nat × Bytes := (p + 8 * j, (bs.drop (8 * j)).take 8)

def pieceCount (n : Nat) : Nat := (n + 7) / 8

theorem writeBytes_piece (mem : Memory) (p : Nat) (bs : Bytes) (j : Nat)
    (h : j < pieceCount bs.length) :
    writeBytes (writeBytes mem p (bs.take (8 * j))) (piece p bs j).1 (piece p bs j).2 =
      writeBytes mem p (bs.take (8 * (j + 1))) := by
  have hlen : (bs.take (8 * j)).length = 8 * j := by
    simp only [List.length_take, pieceCount] at h ⊢
    omega
  have hadd : bs.take (8 * (j + 1)) = bs.take (8 * j) ++ (bs.drop (8 * j)).take 8 := by
    rw [Nat.mul_add, Nat.mul_one, List.take_add]
  have happ := writeBytes_append mem p (bs.take (8 * j)) ((bs.drop (8 * j)).take 8)
  rw [hlen] at happ
  rw [piece, happ, hadd]

theorem take_pieceCount (bs : Bytes) : bs.take (8 * pieceCount bs.length) = bs :=
  List.take_of_length_le (by simp only [pieceCount]; omega)

end ByteMemory
