import Msgq.Records

/-! The machine arithmetic of `msgq.h`: alignment and packed pointers. -/
namespace Msgq
open ByteMemory FramedRecords

/-- `(n + 7) & -8` in 64-bit arithmetic. -/
def align (n : Nat) : Nat := (n + 7) % 2 ^ 64 / 8 * 8

def unpack64 (input : Nat) : Nat × Nat := (input / 2 ^ 32 % 2 ^ 32, input % 2 ^ 32)

/-- `higher` is always a `uint32_t` here; `lower` is masked. -/
def pack64 (higher lower : Nat) : Nat := higher * 2 ^ 32 + lower % 2 ^ 32

/-- One step of a `uint32_t` cycle counter. -/
def nextCycle (c : Nat) : Nat := (c + 1) % 2 ^ 32

/-- A size converted to `int`. -/
def toInt (n : Nat) : Int :=
  if n % 2 ^ 32 < 2 ^ 31 then ((n % 2 ^ 32 : Nat) : Int) else ((n % 2 ^ 32 : Nat) : Int) - 2 ^ 32

def totalMsgSize (n : Nat) : Nat := align (n + 8)

/-- `3 * total_msg_size <= q->size`, multiplied in 64 bits. -/
def admits (size n : Nat) : Bool := 3 * totalMsgSize n % 2 ^ 64 ≤ size

/-- An unsigned difference read back as `int64_t`. -/
def remainingSpace (size writePointer total : Nat) : Int :=
  toI64 (toU64 ((size : Int) - writePointer - total - 8))

/-- A buffer that exists: the 64-bit size arithmetic of send does not overflow on it. -/
def Real (n : Nat) : Prop := 3 * (n + 15) < 2 ^ 64

theorem unpack64_fst_lt (v : Nat) : (unpack64 v).1 < 2 ^ 32 := Nat.mod_lt _ (by omega)

theorem unpack64_snd_lt (v : Nat) : (unpack64 v).2 < 2 ^ 32 := Nat.mod_lt _ (by omega)

@[simp] theorem unpack64_pack64_fst {c o : Nat} (hc : c < 2 ^ 32) : (unpack64 (pack64 c o)).1 = c := by
  simp only [unpack64, pack64]
  omega

@[simp] theorem unpack64_pack64_snd {c o : Nat} (ho : o < 2 ^ 32) : (unpack64 (pack64 c o)).2 = o := by
  simp only [unpack64, pack64]
  omega

theorem nextCycle_lt (c : Nat) : nextCycle c < 2 ^ 32 := Nat.mod_lt _ (by omega)

theorem nextCycle_ne (c : Nat) : c ≠ nextCycle c := by
  unfold nextCycle
  omega

theorem nextCycle_eq {c : Nat} (h : c + 1 < 2 ^ 32) : nextCycle c = c + 1 := Nat.mod_eq_of_lt h

theorem totalMsgSize_real {n : Nat} (h : Real n) : totalMsgSize n = span n := by
  unfold Real at h
  unfold totalMsgSize align span
  omega

/-- On real buffers the admission check is the exact three-record bound. -/
theorem admits_real {size n : Nat} (h : Real n) : admits size n = true ↔ 3 * span n ≤ size := by
  have hs := span_lt n
  rw [admits, decide_eq_true_iff, totalMsgSize_real h, Nat.mod_eq_of_lt]
  unfold Real at h
  unfold span at hs ⊢
  omega

theorem align_record {w n : Nat} (hw : 8 ∣ w) (hlt : w < 2 ^ 32) (h : Real n) :
    align (w + 8 + n) = w + span n := by
  obtain ⟨k, rfl⟩ := hw
  unfold Real at h
  unfold align span
  omega

/-- With both offsets below the segment size the difference is exact. -/
theorem remainingSpace_exact {size w total : Nat} (hs : size < 2 ^ 32) (hw : w < 2 ^ 32)
    (ht : total ≤ size) : remainingSpace size w total = (size : Int) - w - total - 8 :=
  toI64_toU64 (by omega) (by omega)

end Msgq
