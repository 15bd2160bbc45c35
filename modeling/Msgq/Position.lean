import Msgq.Words

/-! Where a reader stands in the ring. The writer fills a lap with back-to-back
records from offset 0, closes it with a wrap tag and starts the next one over
the old records. A reader stands either on a record boundary of the running lap
or on one of an older lap that the writer has not come back to; the bytes from
there to the old wrap tag are still intact. -/
namespace Msgq
open ByteMemory FramedRecords

/-- What a reader cycle counter may be against the writer's, for a reader in the
running lap (`here`) and in an older one (`back`), where an older lap may end
(`closed`), and the writer cycles from which the writer may wrap (`turn`). -/
structure Laps where
  here : Nat → Nat → Prop
  back : Nat → Nat → Prop
  closed : Nat → Prop
  turn : Nat → Prop
  here_self : ∀ c, here c c
  back_ne : ∀ {r c}, back r c → r ≠ c
  wrap : ∀ {r c}, here r c → turn c → back r (nextCycle c)
  hop : ∀ {r c}, back r c → here (nextCycle r) c

/-- Readers exactly in step: the older lap is the one just before, and the
counters may overflow any number of times. -/
def exactLaps (closed : Nat → Prop) : Laps where
  here r c := r = c
  back r c := c = nextCycle r
  closed := closed
  turn _ := True
  here_self _ := rfl
  back_ne := by
    rintro r c rfl
    exact nextCycle_ne r
  wrap := by
    rintro r c rfl _
    rfl
  hop h := h.symm

/-- Readers that may have fallen any number of cycles behind, below overflow. -/
def looseLaps : Laps where
  here r c := r ≤ c
  back r c := r < c
  closed _ := True
  turn c := c + 1 < 2 ^ 32
  here_self c := le_refl c
  back_ne h := h.ne
  wrap := by
    intro r c h ht
    rw [nextCycle_eq ht]
    omega
  hop := by
    intro r c h
    exact (Nat.mod_le _ _).trans h

theorem looseLaps_stay {r c : Nat} (h : looseLaps.back r c) (ht : c + 1 < 2 ^ 32) :
    looseLaps.back r (nextCycle c) := by
  rw [nextCycle_eq ht]
  exact Nat.lt_succ_of_lt h

/-- The writer's side of the ring at one moment. `lap` are the messages of the
running lap; from offset `front` on the bytes of older laps are untouched. -/
structure View where
  data : Memory
  size : Nat
  cycles : Nat
  off : Nat
  lap : List Bytes
  front : Nat

structure View.Ok (v : View) : Prop where
  chain : Chain v.data 0 v.lap v.off
  room : v.off = 0 ∨ v.off + 8 < v.size

def Here (L : Laps) (v : View) (rc r : Nat) (U : List Bytes) : Prop :=
  L.here rc v.cycles ∧ ∃ pre, v.lap = pre ++ U ∧ r = spans pre

def Back (L : Laps) (v : View) (rc r : Nat) (U : List Bytes) : Prop :=
  L.back rc v.cycles ∧ v.front ≤ r ∧ 8 ∣ r ∧
    ∃ old e, U = old ++ v.lap ∧ Chain v.data r old e ∧ MarkAt v.data e ∧ L.closed e ∧ e + 8 < v.size

/-- A reader at cycle `rc`, offset `r` has the messages `U` ahead of it. -/
def At (L : Laps) (v : View) (rc r : Nat) (U : List Bytes) : Prop :=
  Here L v rc r U ∨ Back L v rc r U

section positions
variable {L : Laps} {v : View} {rc r : Nat} {U : List Bytes} {m : Bytes}

theorem View.Ok.off_eq (ok : v.Ok) : v.off = spans v.lap := by
  rw [ok.chain.end_eq, Nat.zero_add]

theorem View.Ok.dvd (ok : v.Ok) : 8 ∣ v.off := ok.off_eq ▸ spans_dvd v.lap

theorem Here.le (h : Here L v rc r U) (ok : v.Ok) : r ≤ v.off := by
  obtain ⟨-, pre, hl, rfl⟩ := h
  rw [ok.off_eq, hl, spans_append]
  omega

theorem Here.dvd (h : Here L v rc r U) : 8 ∣ r := by
  obtain ⟨-, pre, -, rfl⟩ := h
  exact spans_dvd pre

theorem At.dvd (h : At L v rc r U) : 8 ∣ r := h.elim Here.dvd fun b => b.2.2.1

/-- In the running lap, nothing ahead means standing at the write pointer. -/
theorem Here.nil_iff (h : Here L v rc r U) (ok : v.Ok) : U = [] ↔ r = v.off := by
  obtain ⟨-, pre, hl, rfl⟩ := h
  rw [ok.off_eq, hl, spans_append]
  constructor
  · rintro rfl
    simp
  · intro h
    exact spans_eq_zero (by omega)

theorem here_at_off (ok : v.Ok) (h : L.here rc v.cycles) : Here L v rc v.off [] :=
  ⟨h, v.lap, by simp, ok.off_eq⟩

theorem here_zero (h : L.here rc v.cycles) : Here L v rc 0 v.lap := ⟨h, [], by simp, rfl⟩

/-- The chain a reader of the running lap has before it. -/
theorem Here.chain (h : Here L v rc r U) (ok : v.Ok) : Chain v.data r U v.off := by
  obtain ⟨-, pre, hl, rfl⟩ := h
  have hc := ok.chain
  rw [hl] at hc
  simpa using hc.split.2

/-! What a reader finds at its position. -/

/-- A complete record inside the segment, with room for a tag behind it. -/
structure ReadsRecord (v : View) (r : Nat) (m : Bytes) : Prop where
  record : RecordAt v.data r m
  room : r + span m.length + 8 < v.size

/-- The wrap tag that leads to the start of the running lap. -/
structure ReadsMark (L : Laps) (v : View) (rc r : Nat) : Prop where
  mark : MarkAt v.data r
  next : Here L v (nextCycle rc) 0 v.lap
  room : r + 8 < v.size

theorem Here.read (h : Here L v rc r U) (ok : v.Ok) (hr : r ≠ v.off) :
    ∃ m rest, U = m :: rest ∧ ReadsRecord v r m ∧ Here L v rc (r + span m.length) rest := by
  have hc := h.chain ok
  obtain ⟨hh, pre, hl, rfl⟩ := h
  cases U with
  | nil => exact absurd hc hr
  | cons m rest =>
      have hle := hc.2.le
      have hroom := ok.room
      have hpos := le_span m.length
      refine ⟨m, rest, rfl, ⟨hc.1, by omega⟩, hh, pre ++ [m], by simpa using hl, ?_⟩
      rw [spans_append, spans_singleton]

theorem Back.read (h : Back L v rc r U) :
    (∃ m rest, U = m :: rest ∧ ReadsRecord v r m ∧ Back L v rc (r + span m.length) rest) ∨
      U = v.lap ∧ ReadsMark L v rc r := by
  obtain ⟨hb, hf, hd, old, e, rfl, hc, hm, hcl, he⟩ := h
  cases old with
  | nil =>
      obtain rfl : r = e := hc
      exact Or.inr ⟨rfl, hm, here_zero (L.hop hb), he⟩
  | cons m old =>
      have hle := hc.2.le
      refine Or.inl ⟨m, old ++ v.lap, rfl, ⟨hc.1, by omega⟩, hb, by omega, ?_⟩
      exact ⟨Nat.dvd_add hd (span_dvd _), old, e, rfl, hc.2, hm, hcl, he⟩

theorem At.read (h : At L v rc r U) (ok : v.Ok) (hr : r ≠ v.off) :
    (∃ m rest, U = m :: rest ∧ ReadsRecord v r m ∧ At L v rc (r + span m.length) rest) ∨
      U = v.lap ∧ ReadsMark L v rc r := by
  rcases h with h | h
  · obtain ⟨m, rest, hU, reads, next⟩ := h.read ok hr
    exact Or.inl ⟨m, rest, hU, reads, Or.inl next⟩
  · rcases h.read with ⟨m, rest, hU, reads, next⟩ | mark
    · exact Or.inl ⟨m, rest, hU, reads, Or.inr next⟩
    · exact Or.inr mark

/-! The writer's moves. -/

/-- A wrap tag at the write offset. -/
def View.tag (v : View) : View := { v with data := storeWord v.data v.off (-1) }

/-- The next lap starts at offset 0 with nothing in it. -/
def View.turn (v : View) : View :=
  { v with cycles := nextCycle v.cycles, off := 0, lap := [], front := 0 }

/-- The bytes up to `stop` are going to be overwritten. -/
def View.claim (v : View) (stop : Nat) : View := { v with front := stop }

def View.write (v : View) (data : Memory) : View := { v with data }

/-- The record at the write offset becomes part of the running lap. -/
def View.publish (v : View) (m : Bytes) : View :=
  { v with off := v.off + span m.length, lap := v.lap ++ [m] }

theorem View.Ok.tag (ok : v.Ok) : v.tag.Ok where
  chain := ok.chain.congr (storeWord_agree _ _ _ (Or.inl (le_refl _))).symm
  room := ok.room

theorem View.tag_mark (v : View) : MarkAt v.tag.data v.tag.off := markAt_storeWord v.data v.off

theorem View.Ok.turn (v : View) : v.turn.Ok := ⟨rfl, Or.inl rfl⟩

theorem View.Ok.claim (ok : v.Ok) (stop : Nat) : (v.claim stop).Ok := ⟨ok.chain, ok.room⟩

theorem View.Ok.write (ok : v.Ok) {data : Memory} (ha : AgreeOn v.data data 0 v.off) :
    (v.write data).Ok := ⟨ok.chain.congr ha, ok.room⟩

theorem View.Ok.publish (ok : v.Ok) {m : Bytes} (hm : RecordAt v.data v.off m)
    (hroom : v.off + span m.length + 8 < v.size) : (v.publish m).Ok :=
  ⟨ok.chain.append (chain_singleton hm), Or.inr hroom⟩

theorem Here.tag (h : Here L v rc r U) : Here L v.tag rc r U := h

/-- Behind the write offset an older lap is not touched by the tag. -/
theorem Back.tag (h : Back L v rc r U) (ok : v.Ok) (hr : v.off < r) : Back L v.tag rc r U := by
  obtain ⟨hb, hf, hd, old, e, rfl, hc, hm, hcl, he⟩ := h
  have hstep : v.off + 8 ≤ r := by
    obtain ⟨j, hj⟩ := hd
    obtain ⟨k, hk⟩ := ok.dvd
    omega
  have hle := hc.le
  have agree : ∀ hi, AgreeOn v.data v.tag.data r hi :=
    fun hi => (storeWord_agree _ _ _ (Or.inr hstep)).symm
  exact ⟨hb, hf, hd, old, e, rfl, hc.congr (agree e),
    hm.congr ((agree (e + 8)).mono hle (le_refl _)), hcl, he⟩

/-- A reader of an older lap exactly at the write offset finds the new tag there. -/
theorem Back.tag_at (h : Back L v rc r U) (hr : r = v.off) (hcl : L.closed v.off) :
    Back L v.tag rc r v.lap := by
  obtain ⟨hb, hf, hd, old, e, rfl, hc, -, -, he⟩ := h
  subst hr
  have hle := hc.le
  exact ⟨hb, hf, hd, [], v.off, rfl, rfl, v.tag_mark, hcl, by simp only [View.tag]; omega⟩

/-- At a wrap the running lap becomes the one before. -/
theorem Here.turn (h : Here L v rc r U) (ok : v.Ok) (hm : MarkAt v.data v.off) (ht : L.turn v.cycles)
    (hcl : L.closed v.off) (hroom : v.off + 8 < v.size) : Back L v.turn rc r U :=
  ⟨L.wrap h.1 ht, Nat.zero_le r, h.dvd, U, v.off, by simp [View.turn], h.chain ok, hm, hcl, hroom⟩

theorem Here.claim (h : Here L v rc r U) (stop : Nat) : Here L (v.claim stop) rc r U := h

theorem Back.claim (h : Back L v rc r U) {stop : Nat} (hr : stop ≤ r) : Back L (v.claim stop) rc r U := by
  obtain ⟨hb, -, hd, rest⟩ := h
  exact ⟨hb, hr, hd, rest⟩

theorem Here.write (h : Here L v rc r U) (data : Memory) : Here L (v.write data) rc r U := h

theorem Back.write (h : Back L v rc r U) {data : Memory}
    (ha : ∀ hi, AgreeOn v.data data v.front hi) : Back L (v.write data) rc r U := by
  obtain ⟨hb, hf, hd, old, e, rfl, hc, hm, hcl, he⟩ := h
  have hle := hc.le
  exact ⟨hb, hf, hd, old, e, rfl, hc.congr ((ha e).mono hf (le_refl e)),
    hm.congr ((ha (e + 8)).mono (hf.trans hle) (le_refl _)), hcl, he⟩

theorem At.write (h : At L v rc r U) {data : Memory} (ha : ∀ hi, AgreeOn v.data data v.front hi) :
    At L (v.write data) rc r U :=
  h.imp (fun h => h.write data) fun h => h.write ha

/-- All that a reader may come to lies below the bound of the ring. -/
theorem At.agree (h : At L v rc r U) {data : Memory} {stop : Nat} (ha : AgreeOn v.data data 0 stop)
    (inside : v.size ≤ stop + 1) : At L (v.write data) rc r U := by
  rcases h with here | ⟨hb, hf, hd, old, e, rfl, hc, hm, hcl, he⟩
  · exact Or.inl (here.write data)
  · exact Or.inr ⟨hb, hf, hd, old, e, rfl, hc.congr (ha.mono (Nat.zero_le r) (by omega)),
      hm.congr (ha.mono (Nat.zero_le e) (by omega)), hcl, he⟩

theorem Here.publish (h : Here L v rc r U) (m : Bytes) : Here L (v.publish m) rc r (U ++ [m]) := by
  obtain ⟨hh, pre, hl, hr⟩ := h
  exact ⟨hh, pre, by simp [View.publish, hl], hr⟩

theorem Back.publish (h : Back L v rc r U) (m : Bytes) : Back L (v.publish m) rc r (U ++ [m]) := by
  obtain ⟨hb, hf, hd, old, e, rfl, hc, hm, hcl, he⟩ := h
  exact ⟨hb, hf, hd, old, e, by simp [View.publish], hc, hm, hcl, he⟩

theorem At.publish (h : At L v rc r U) (m : Bytes) : At L (v.publish m) rc r (U ++ [m]) :=
  h.imp (fun h => h.publish m) fun h => h.publish m

/-! A whole send. -/

/-- The view the record of a send is written under. -/
def View.base (v : View) (wrap : Bool) : View := if wrap then v.tag.turn else v

def View.send (v : View) (wrap : Bool) (m : Bytes) : View :=
  (((v.base wrap).claim ((v.base wrap).off + span m.length)).write
    (writeRecord (v.base wrap).data (v.base wrap).off m)).publish m

theorem View.Ok.base (ok : v.Ok) (wrap : Bool) : (v.base wrap).Ok := by
  cases wrap with
  | true => exact View.Ok.turn v.tag
  | false => exact ok

theorem View.Ok.send (ok : v.Ok) {wrap : Bool} {m : Bytes} (hm : m.length < 2 ^ 63)
    (hroom : (v.base wrap).off + span m.length + 8 < v.size) : (v.send wrap m).Ok := by
  have hsize : (v.base wrap).size = v.size := by cases wrap <;> rfl
  apply View.Ok.publish
  · exact ((ok.base wrap).claim _).write (writeRecord_agree _ _ _ (Or.inl (le_refl _))).symm
  · exact writeRecord_recordAt _ _ hm
  · simpa only [View.write, View.claim, hsize] using hroom

/-- A position clear of the area survives the record and gains the new message. -/
theorem At.record {b : View} (h : Here L b rc r U ∨ Back L b rc r U ∧ b.off + span m.length ≤ r) :
    At L (((b.claim (b.off + span m.length)).write (writeRecord b.data b.off m)).publish m)
      rc r (U ++ [m]) := by
  apply At.publish
  apply At.write
  · rcases h with h | ⟨h, hr⟩
    · exact Or.inl (h.claim _)
    · exact Or.inr (h.claim hr)
  · intro hi
    exact (writeRecord_agree _ _ _ (Or.inr (le_refl _))).symm

/-- Without a wrap, a reader whose flag survives keeps everything it had ahead. -/
theorem At.send_flat (h : At L v rc r U) (hf : v.front = v.off)
    (kept : ¬ (v.off ≤ r ∧ r < v.off + span m.length ∧ rc ≠ v.cycles)) :
    At L (v.send false m) rc r (U ++ [m]) := by
  apply At.record (b := v)
  rcases h with h | h
  · exact Or.inl h
  · have hlo := h.2.1
    have hne := L.back_ne h.1
    exact Or.inr ⟨h, by omega⟩

/-- With a wrap, so does a reader of the running lap. -/
theorem Here.send_wrap (h : Here L v rc r U) (ok : v.Ok) (ht : L.turn v.cycles)
    (hcl : L.closed v.off) (hroom : v.off + 8 < v.size)
    (kept : ¬ (r < span m.length ∧ rc ≠ nextCycle v.cycles)) :
    At L (v.send true m) rc r (U ++ [m]) := by
  have back := h.tag.turn ok.tag v.tag_mark ht hcl hroom
  have hne := L.back_ne back.1
  apply At.record (b := v.tag.turn)
  refine Or.inr ⟨back, ?_⟩
  simp only [View.turn, View.tag] at hne ⊢
  omega

/-- A reader of an older lap that stands exactly at the write offset of a wrap
finds the wrap tag there: it jumps over all the messages it had ahead. -/
theorem Back.tag_turn_at (h : Back L v rc r U) (hr : r = v.off) (hb : L.back rc (nextCycle v.cycles))
    (hcl : L.closed v.off) : Back L v.tag.turn rc r [] := by
  obtain ⟨-, -, hd, old, e, -, hc, -, -, he⟩ := h
  have hle := hc.le
  subst hr
  exact ⟨hb, Nat.zero_le _, hd, [], v.off, rfl, rfl, v.tag_mark, hcl, show v.off + 8 < v.size by omega⟩

theorem Back.send_wrap_at (h : Back L v rc r U) (hr : r = v.off) (hb : L.back rc (nextCycle v.cycles))
    (hcl : L.closed v.off) (hspan : span m.length ≤ v.off) : At L (v.send true m) rc r [m] := by
  refine At.record (b := v.tag.turn) (U := []) (Or.inr ⟨h.tag_turn_at hr hb hcl, ?_⟩)
  simp only [View.turn]
  omega

end positions

end Msgq
