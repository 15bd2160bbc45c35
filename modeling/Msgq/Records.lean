import Msgq.Memory

/-! Back-to-back length-prefixed records. A record is a signed 64-bit length
followed by its payload and padding up to the next multiple of eight; the
padding is never specified. A length of `-1` marks the end of a stretch. -/
namespace FramedRecords
open ByteMemory

/-- The bytes a record with a payload of length `n` takes up. -/
def span (n : Nat) : Nat := (n + 15) / 8 * 8

def spans : List Bytes → Nat
  | [] => 0
  | m :: ms => span m.length + spans ms

theorem span_dvd (n : Nat) : 8 ∣ span n := Nat.dvd_mul_left 8 _

theorem le_span (n : Nat) : n + 8 ≤ span n := by
  unfold span
  omega

theorem span_lt (n : Nat) : span n < n + 16 := by
  unfold span
  omega

theorem span_mono {m n : Nat} (h : m ≤ n) : span m ≤ span n := by
  unfold span
  omega

theorem span_of_pos {n : Nat} (h : 0 < n) : 16 ≤ span n := by
  unfold span
  omega

@[simp] theorem spans_nil : spans [] = 0 := rfl

@[simp] theorem spans_append (ms ns : List Bytes) : spans (ms ++ ns) = spans ms + spans ns := by
  induction ms with
  | nil => simp
  | cons m ms ih => simp only [List.cons_append, spans, ih, Nat.add_assoc]

theorem spans_singleton (m : Bytes) : spans [m] = span m.length := by simp [spans]

theorem spans_dvd (ms : List Bytes) : 8 ∣ spans ms := by
  induction ms with
  | nil => exact Nat.dvd_zero 8
  | cons m ms ih => exact Nat.dvd_add (span_dvd _) ih

theorem spans_eq_zero {ms : List Bytes} (h : spans ms = 0) : ms = [] := by
  cases ms with
  | nil => rfl
  | cons m ms =>
      have := le_span m.length
      rw [spans] at h
      omega

/-- A complete record of payload `m` starts at `p`. -/
def RecordAt (mem : Memory) (p : Nat) (m : Bytes) : Prop :=
  loadWord mem p = m.length ∧ readBytes mem (p + 8) m.length = m

/-- The end mark is stored at `p`. -/
def MarkAt (mem : Memory) (p : Nat) : Prop := loadWord mem p = -1

/-- The records `ms` lie back to back from `p` and end at `e`. -/
def Chain (mem : Memory) : Nat → List Bytes → Nat → Prop
  | p, [], e => p = e
  | p, m :: ms, e => RecordAt mem p m ∧ Chain mem (p + span m.length) ms e

theorem RecordAt.congr {mem mem' : Memory} {p : Nat} {m : Bytes} (h : RecordAt mem p m)
    (k : AgreeOn mem mem' p (p + span m.length)) : RecordAt mem' p m := by
  have hs := le_span m.length
  constructor
  · rw [← loadWord_congr (k.mono (le_refl p) (by omega))]
    exact h.1
  · rw [← readBytes_congr (k.mono (by omega) (by omega))]
    exact h.2

theorem MarkAt.congr {mem mem' : Memory} {p : Nat} (h : MarkAt mem p)
    (k : AgreeOn mem mem' p (p + 8)) : MarkAt mem' p := by
  rw [MarkAt, ← loadWord_congr k]
  exact h

theorem markAt_storeWord (mem : Memory) (p : Nat) : MarkAt (storeWord mem p (-1)) p :=
  loadWord_storeWord mem p (by omega) (by omega)

theorem Chain.end_eq {mem : Memory} {p e : Nat} {ms : List Bytes} (h : Chain mem p ms e) :
    e = p + spans ms := by
  induction ms generalizing p with
  | nil => exact h.symm
  | cons m ms ih =>
      have := ih h.2
      rw [spans]
      omega

theorem Chain.le {mem : Memory} {p e : Nat} {ms : List Bytes} (h : Chain mem p ms e) : p ≤ e := by
  have := h.end_eq
  omega

theorem Chain.congr {mem mem' : Memory} {p e : Nat} {ms : List Bytes} (h : Chain mem p ms e)
    (k : AgreeOn mem mem' p e) : Chain mem' p ms e := by
  induction ms generalizing p with
  | nil => exact h
  | cons m ms ih =>
      have hle := h.2.le
      exact ⟨h.1.congr (k.mono (le_refl p) hle), ih h.2 (k.mono (Nat.le_add_right _ _) (le_refl e))⟩

theorem Chain.append {mem : Memory} {p q e : Nat} {ms ns : List Bytes} (h : Chain mem p ms q)
    (k : Chain mem q ns e) : Chain mem p (ms ++ ns) e := by
  induction ms generalizing p with
  | nil => exact (show p = q from h) ▸ k
  | cons m ms ih => exact ⟨h.1, ih h.2⟩

theorem Chain.split {mem : Memory} {p e : Nat} {ms ns : List Bytes}
    (h : Chain mem p (ms ++ ns) e) :
    Chain mem p ms (p + spans ms) ∧ Chain mem (p + spans ms) ns e := by
  induction ms generalizing p with
  | nil => exact ⟨rfl, h⟩
  | cons m ms ih =>
      obtain ⟨first, rest⟩ := ih h.2
      rw [Nat.add_assoc] at first rest
      exact ⟨⟨h.1, first⟩, rest⟩

theorem chain_singleton {mem : Memory} {p : Nat} {m : Bytes} (h : RecordAt mem p m) :
    Chain mem p [m] (p + span m.length) := ⟨h, rfl⟩

/-! A chain in a memory that was cut off. -/

/-- What lies below `cut` is kept, the rest is zero. -/
structure CutOff (mem mem' : Memory) (cut : Nat) : Prop where
  kept : ∀ a, a < cut → mem' a = mem a
  zero : ∀ a, cut ≤ a → mem' a = 0

/-- Zeros are empty records. -/
theorem chain_zeros {mem : Memory} {p : Nat} (zero : ∀ a, p ≤ a → mem a = 0) (k : Nat) :
    Chain mem p (List.replicate k []) (p + 8 * k) := by
  induction k generalizing p with
  | zero => rfl
  | succ k ih =>
      have word : loadWord mem p = 0 := by
        have same : readBytes mem p 8 = List.replicate 8 0 := by
          refine List.eq_replicate_iff.mpr ⟨length_readBytes mem p 8, fun b mem => ?_⟩
          obtain ⟨j, -, rfl⟩ := List.mem_map.mp mem
          exact zero (p + j) (Nat.le_add_right _ _)
        rw [loadWord, same]
        rfl
      have rest := ih (p := p + 8) fun a ha => zero a (by omega)
      rw [show p + 8 * (k + 1) = p + 8 + 8 * k by omega]
      exact ⟨⟨word, rfl⟩, rest⟩

/-- What is left of a chain is a chain. The length across the cut may get smaller;
behind its record come empty ones. -/
theorem Chain.cutOff {mem mem' : Memory} {p e cut : Nat} {ms : List Bytes} (C : CutOff mem mem' cut)
    (h : Chain mem p ms e) : ∃ ns, Chain mem' p ns e := by
  have low : ∀ a, (mem' a).toNat ≤ (mem a).toNat := by
    intro a
    by_cases below : a < cut
    · rw [C.kept a below]
    · rw [C.zero a (not_lt.mp below)]
      exact Nat.zero_le _
  induction ms generalizing p with
  | nil => exact ⟨[], h⟩
  | cons m ms ih =>
      obtain ⟨record, rest⟩ := h
      obtain ⟨n, le, word⟩ := loadWord_le low record.1
      have first : RecordAt mem' p (readBytes mem' (p + 8) n) := by
        rw [RecordAt, length_readBytes]
        exact ⟨word, rfl⟩
      by_cases whole : p + 8 ≤ cut
      · have same : loadWord mem' p = loadWord mem p := loadWord_congr fun a _ ha => C.kept a (ha.trans_le whole)
        obtain rfl : n = m.length := by
          rw [word, record.1] at same
          exact_mod_cast same
        obtain ⟨ns, tail⟩ := ih rest
        refine ⟨_ :: ns, first, ?_⟩
        rw [length_readBytes]
        exact tail
      · have shorter := span_mono le
        have header := le_span n
        have ends := rest.end_eq
        have distance : e - (p + span n) = span m.length - span n + spans ms := by omega
        obtain ⟨k, gap⟩ : 8 ∣ e - (p + span n) :=
          distance ▸ Nat.dvd_add (Nat.dvd_sub (span_dvd _) (span_dvd _)) (spans_dvd ms)
        have zeros : Chain mem' (p + span n) (List.replicate k []) (p + span n + 8 * k) :=
          chain_zeros (fun a ha => C.zero a (by omega)) k
        refine ⟨_ :: List.replicate k [], first, ?_⟩
        rw [length_readBytes, show e = p + span n + 8 * k by omega]
        exact zeros

/-- Store a record: the length, then the payload; the padding keeps what it held. -/
def writeRecord (mem : Memory) (p : Nat) (msg : Bytes) : Memory :=
  writeBytes (storeWord mem p msg.length) (p + 8) msg

theorem writeRecord_agree (mem : Memory) (p : Nat) (msg : Bytes) {lo hi : Nat}
    (h : hi ≤ p ∨ p + span msg.length ≤ lo) : AgreeOn (writeRecord mem p msg) mem lo hi := by
  have hs := le_span msg.length
  exact (writeBytes_agree _ _ _ (by omega)).trans (storeWord_agree _ _ _ (by omega))

theorem writeRecord_recordAt (mem : Memory) (p : Nat) {msg : Bytes} (h : msg.length < 2 ^ 63) :
    RecordAt (writeRecord mem p msg) p msg := by
  refine ⟨?_, readBytes_writeBytes _ _ _⟩
  rw [writeRecord, loadWord_congr (writeBytes_agree _ _ _ (Or.inl (le_refl _)))]
  exact loadWord_storeWord _ _ (by omega) (by omega)

end FramedRecords
