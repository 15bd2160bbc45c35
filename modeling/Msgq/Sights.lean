import Msgq.Position

/-! What a reader in the middle of a receive knows of its position, and how that
lasts while the writer goes on. In the running lap the knowledge is about the
messages ahead, which the writer only adds to; in an older lap it is about the
bytes from the position on, which the writer leaves alone up to the next claim. -/
namespace Msgq
open ByteMemory FramedRecords

/-- The bytes from `r` on are records of sent messages up to a wrap tag. -/
def Leads (sent : List Bytes) (size : Nat) (mem : Memory) (r : Nat) : Prop :=
  ∃ ms e, ms ⊆ sent ∧ Chain mem r ms e ∧ MarkAt mem e ∧ e + 8 < size

structure Sight where
  ahead : List Bytes → Prop
  old : List Bytes → Nat → Memory → Nat → Prop
  grows : ∀ {U} m, ahead U → ahead (U ++ [m])
  more : ∀ {sent size mem r} m, old sent size mem r → old (sent ++ [m]) size mem r
  lasts : ∀ {sent size mem mem' r}, old sent size mem r → (∀ hi, AgreeOn mem mem' r hi) → old sent size mem' r
  tagged : ∀ {sent size mem r}, old sent size mem r → old sent size (storeWord mem r (-1)) r
  closes : ∀ {sent size mem r U e}, ahead U → U ⊆ sent → Chain mem r U e → MarkAt mem e → e + 8 < size →
    old sent size mem r

section leads
variable {sent : List Bytes} {size r : Nat} {mem mem' : Memory}

theorem Leads.more (h : Leads sent size mem r) (m : Bytes) : Leads (sent ++ [m]) size mem r := by
  obtain ⟨ms, e, known, rest⟩ := h
  exact ⟨ms, e, List.subset_append_of_subset_left _ known, rest⟩

theorem Leads.lasts (h : Leads sent size mem r) (ha : ∀ hi, AgreeOn mem mem' r hi) : Leads sent size mem' r := by
  obtain ⟨ms, e, known, hc, hm, he⟩ := h
  exact ⟨ms, e, known, hc.congr (ha e), hm.congr ((ha (e + 8)).mono hc.le (le_refl _)), he⟩

/-- A tag at the position itself ends the lap there. -/
theorem Leads.tagged (h : Leads sent size mem r) : Leads sent size (storeWord mem r (-1)) r := by
  obtain ⟨ms, e, -, hc, -, he⟩ := h
  have hle := hc.le
  exact ⟨[], r, List.nil_subset _, rfl, markAt_storeWord mem r, by omega⟩

theorem Leads.room (h : Leads sent size mem r) : r + 8 < size := by
  obtain ⟨ms, e, -, hc, -, he⟩ := h
  have hle := hc.le
  omega

end leads

namespace Sight

/-- The position is one to read on from. -/
def spot : Sight where
  ahead _ := True
  old := Leads
  grows _ _ := trivial
  more m h := h.more m
  lasts h ha := h.lasts ha
  tagged h := h.tagged
  closes _ known hc hm he := ⟨_, _, known, hc, hm, he⟩

/-- And there is something to read. -/
def unread : Sight where
  ahead U := U ≠ []
  old := Leads
  grows _ _ := by simp
  more m h := h.more m
  lasts h ha := h.lasts ha
  tagged h := h.tagged
  closes _ known hc hm he := ⟨_, _, known, hc, hm, he⟩

/-- A wrap tag was seen at the position. -/
def marked : Sight where
  ahead _ := False
  old _ size _ r := r < size
  grows _ h := h
  more _ h := h
  lasts h _ := h
  tagged h := h
  closes h _ _ _ _ := h.elim

/-- The length `n` was seen at the position, and `buf` is what was copied of the
payload. A tag stored there afterwards changes neither. -/
def record (n : Nat) (buf : Bytes) : Sight where
  ahead U := ∃ m rest, U = m :: rest ∧ m.length = n ∧ buf <+: m
  old sent size mem r := Leads sent size mem r ∧
    ∃ m ∈ sent, m.length = n ∧ buf <+: m ∧ readBytes mem (r + 8) n = m ∧ Leads sent size mem (r + span n)
  grows := by
    rintro U m ⟨m', rest, rfl, same, copied⟩
    exact ⟨m', rest ++ [m], rfl, same, copied⟩
  more := by
    rintro sent size mem r m' ⟨here, m, mem, same, copied, bytes, leads⟩
    exact ⟨here.more m', m, List.mem_append_left _ mem, same, copied, bytes, leads.more m'⟩
  lasts := by
    rintro sent size mem mem' r ⟨here, m, known, same, copied, bytes, leads⟩ ha
    have hs := le_span n
    refine ⟨here.lasts ha, m, known, same, copied, ?_, leads.lasts fun hi => (ha hi).mono (by omega) (le_refl hi)⟩
    rw [← bytes]
    exact (readBytes_congr ((ha (r + 8 + n)).mono (by omega) (le_refl _))).symm
  tagged := by
    rintro sent size mem r ⟨here, m, known, same, copied, bytes, leads⟩
    have hs := le_span n
    have behind : ∀ {lo} hi, r + 8 ≤ lo → AgreeOn mem (storeWord mem r (-1)) lo hi :=
      fun hi hlo => (storeWord_agree mem r (-1) (Or.inr hlo)).symm
    refine ⟨here.tagged, m, known, same, copied, ?_, leads.lasts fun hi => behind hi (by omega)⟩
    rw [← bytes]
    exact (readBytes_congr (behind _ (le_refl _))).symm
  closes := by
    rintro sent size mem r U e ⟨m, rest, rfl, same, copied⟩ known hc hm he
    subst same
    have parts := List.cons_subset.mp known
    exact ⟨⟨m :: rest, e, known, hc, hm, he⟩, m, parts.1, rfl, copied, hc.1.2, rest, e, parts.2, hc.2, hm, he⟩

end Sight

/-- A reader at cycle `rc`, offset `r` that knows `S` of its position; in the
running lap it is not before `low`. -/
def Stands (S : Sight) (v : View) (sent : List Bytes) (low rc r : Nat) : Prop :=
  (low ≤ r ∧ ∃ U, S.ahead U ∧ Here looseLaps v rc r U) ∨
    (rc < v.cycles ∧ v.front ≤ r ∧ 8 ∣ r ∧ S.old sent v.size v.data r)

section moves
variable {S : Sight} {v : View} {sent : List Bytes} {low rc r : Nat}

theorem stands_at_off (ok : v.Ok) (h : rc ≤ v.cycles) (hl : low ≤ v.off) : Stands Sight.spot v sent low rc v.off :=
  Or.inl ⟨hl, [], trivial, here_at_off ok h⟩

/-- Less may be claimed than was. -/
theorem Stands.relax (h : Stands S v sent low rc r) {front low' : Nat} (hf : front ≤ v.front) (hl : low' ≤ low) :
    Stands S (v.claim front) sent low' rc r := by
  rcases h with ⟨at_least, U, seen, here⟩ | ⟨behind, clear, aligned, seen⟩
  · exact Or.inl ⟨hl.trans at_least, U, seen, here.claim front⟩
  · exact Or.inr ⟨behind, hf.trans clear, aligned, seen⟩

/-- The wrap tag: a reader of an older lap stands behind it, or right on it. -/
theorem Stands.tag (h : Stands S v sent low rc r) (ok : v.Ok) (hf : v.off ≤ v.front) :
    Stands S v.tag sent low rc r := by
  rcases h with ⟨at_least, U, seen, here⟩ | ⟨behind, clear, aligned, seen⟩
  · exact Or.inl ⟨at_least, U, seen, here.tag⟩
  · refine Or.inr ⟨behind, clear, aligned, ?_⟩
    by_cases same : r = v.off
    · subst same
      exact S.tagged seen
    · have step : v.off + 8 ≤ r := by
        obtain ⟨j, hj⟩ := aligned
        obtain ⟨k, hk⟩ := ok.dvd
        omega
      exact S.lasts seen fun hi => (storeWord_agree _ _ _ (Or.inr step)).symm

/-- The turn makes the running lap an older one, up to the tag. -/
theorem Stands.turn (h : Stands S v sent low rc r) (ok : v.Ok) (hm : MarkAt v.data v.off)
    (ht : v.cycles + 1 < 2 ^ 32) (known : v.lap ⊆ sent) (hroom : v.off + 8 < v.size) {stop : Nat}
    (hl : stop ≤ low) (hf : stop ≤ v.front) : Stands S (v.turn.claim stop) sent 0 rc r := by
  have next : (v.turn.claim stop).cycles = v.cycles + 1 := nextCycle_eq ht
  rcases h with ⟨at_least, U, seen, here⟩ | ⟨behind, clear, aligned, seen⟩
  · obtain ⟨cycle, pre, lap, -⟩ := id here
    have cycle : rc ≤ v.cycles := cycle
    have ahead : U ⊆ sent := by
      rw [lap] at known
      exact fun m mem => known (List.mem_append_right pre mem)
    exact Or.inr ⟨by omega, hl.trans at_least, here.dvd, S.closes seen ahead (here.chain ok) hm hroom⟩
  · exact Or.inr ⟨by omega, hf.trans clear, aligned, seen⟩

/-- The test that clears no flag keeps the reader clear of the area. -/
theorem Stands.claim (h : Stands S v sent low rc r) (hf : v.off ≤ v.front) {stop : Nat}
    (kept : ¬ (v.off ≤ r ∧ r < stop ∧ rc ≠ v.cycles)) : Stands S (v.claim stop) sent 0 rc r := by
  rcases h with ⟨-, U, seen, here⟩ | ⟨behind, clear, aligned, seen⟩
  · exact Or.inl ⟨Nat.zero_le r, U, seen, here.claim stop⟩
  · have clear' : stop ≤ r := by
      by_contra inside
      exact kept ⟨hf.trans clear, Nat.lt_of_not_le inside, behind.ne⟩
    exact Or.inr ⟨behind, clear', aligned, seen⟩

/-- A position right at the start of the area is one of the running lap. -/
theorem Stands.claim_from (h : Stands Sight.spot v sent low rc r) (ok : v.Ok) (hf : v.off ≤ v.front) {stop : Nat}
    (kept : ¬ (v.off < r ∧ r < stop)) : Stands Sight.spot (v.claim stop) sent 0 rc r := by
  rcases h with ⟨-, U, seen, here⟩ | ⟨behind, clear, aligned, seen⟩
  · exact Or.inl ⟨Nat.zero_le r, U, seen, here.claim stop⟩
  · by_cases same : r = v.off
    · subst same
      exact stands_at_off (ok.claim stop) behind.le (Nat.zero_le _)
    · have after : v.off ≤ r := hf.trans clear
      exact Or.inr ⟨behind, show stop ≤ r by omega, aligned, seen⟩

theorem Stands.write (h : Stands S v sent low rc r) {data : Memory}
    (ha : ∀ hi, AgreeOn v.data data v.front hi) : Stands S (v.write data) sent low rc r := by
  rcases h with ⟨at_least, U, seen, here⟩ | ⟨behind, clear, aligned, seen⟩
  · exact Or.inl ⟨at_least, U, seen, here.write data⟩
  · exact Or.inr ⟨behind, clear, aligned, S.lasts seen fun hi => (ha hi).mono clear (le_refl hi)⟩

theorem Stands.publish (h : Stands S v sent low rc r) (m : Bytes) : Stands S (v.publish m) (sent ++ [m]) low rc r := by
  rcases h with ⟨at_least, U, seen, here⟩ | ⟨behind, clear, aligned, seen⟩
  · exact Or.inl ⟨at_least, U ++ [m], S.grows m seen, here.publish m⟩
  · exact Or.inr ⟨behind, clear, aligned, S.more m seen⟩

/-! The reader's own steps. -/

/-- The reader does not stand at the write offset it has just loaded. -/
theorem Stands.unread (h : Stands Sight.spot v sent low rc r) (ok : v.Ok) (hr : r ≠ v.off) :
    Stands Sight.unread v sent low rc r := by
  rcases h with ⟨at_least, U, -, here⟩ | old
  · exact Or.inl ⟨at_least, U, fun empty => hr ((here.nil_iff ok).mp empty), here⟩
  · exact Or.inr old

/-- The tag the reader loads is a wrap tag or the length of a record. -/
theorem Stands.load (h : Stands Sight.unread v sent low rc r) (ok : v.Ok) :
    loadWord v.data r = -1 ∧ Stands Sight.marked v sent low rc r ∨
      ∃ n : Nat, loadWord v.data r = n ∧ Stands (Sight.record n []) v sent low rc r := by
  rcases h with ⟨at_least, U, unread, here⟩ | ⟨behind, clear, aligned, ms, e, known, hc, hm, he⟩
  · cases U with
    | nil => exact absurd rfl unread
    | cons m rest =>
        have record := (here.chain ok).1
        exact Or.inr ⟨m.length, record.1, Or.inl ⟨at_least, _, ⟨m, rest, rfl, rfl, List.nil_prefix⟩, here⟩⟩
  · cases ms with
    | nil =>
        obtain rfl : r = e := hc
        exact Or.inl ⟨hm, Or.inr ⟨behind, clear, aligned, show r < v.size by omega⟩⟩
    | cons m rest =>
        have parts := List.cons_subset.mp known
        have here : Leads sent v.size v.data r := ⟨m :: rest, e, known, hc, hm, he⟩
        have leads : Leads sent v.size v.data (r + span m.length) := ⟨rest, e, parts.2, hc.2, hm, he⟩
        refine Or.inr ⟨m.length, hc.1.1, Or.inr ⟨behind, clear, aligned, here, m, parts.1, rfl, ?_, hc.1.2, leads⟩⟩
        exact List.nil_prefix

/-- What a reader that has seen a length knows of the whole record. -/
theorem Stands.known {n : Nat} {buf : Bytes} (h : Stands (Sight.record n buf) v sent low rc r) (ok : v.Ok)
    (known : v.lap ⊆ sent) : 8 ∣ r ∧ r + span n + 8 < v.size ∧
      ∃ m ∈ sent, m.length = n ∧ buf <+: m ∧ readBytes v.data (r + 8) n = m := by
  rcases h with ⟨at_least, U, ⟨m, rest, rfl, rfl, copied⟩, here⟩ | ⟨-, -, aligned, -, m, mem, same, copied, bytes, leads⟩
  · have hc := here.chain ok
    have hroom := ok.room
    have hle := hc.2.le
    have hpos := le_span m.length
    obtain ⟨-, pre, lap, -⟩ := id here
    have mem : m ∈ v.lap := by
      rw [lap]
      simp
    exact ⟨here.dvd, by omega, m, known mem, rfl, copied, hc.1.2⟩
  · exact ⟨aligned, leads.room, m, mem, same, copied, bytes⟩

theorem Stands.copy {n : Nat} {buf : Bytes} (h : Stands (Sight.record n buf) v sent low rc r) (ok : v.Ok) (k : Nat)
    (hk : buf.length + k ≤ n) :
    Stands (Sight.record n (buf ++ readBytes v.data (r + 8 + buf.length) k)) v sent low rc r := by
  have extends_prefix : ∀ m : Bytes, m.length = n → buf <+: m → readBytes v.data (r + 8) n = m →
      buf ++ readBytes v.data (r + 8 + buf.length) k <+: m := by
    intro m same copied bytes
    obtain ⟨l, rfl⟩ := Nat.exists_eq_add_of_le hk
    rw [readBytes_add, readBytes_add] at bytes
    have front : readBytes v.data (r + 8) buf.length = buf := by
      obtain ⟨tail, rfl⟩ := copied
      have parts := List.append_assoc _ _ _ ▸ bytes
      exact (List.append_inj parts (length_readBytes _ _ _)).1
    rw [front] at bytes
    exact ⟨_, bytes⟩
  rcases h with ⟨at_least, U, ⟨m, rest, rfl, same, copied⟩, here⟩ |
    ⟨behind, clear, aligned, here, m, mem, same, copied, bytes, leads⟩
  · have record := (here.chain ok).1
    refine Or.inl ⟨at_least, _, ⟨m, rest, rfl, same, ?_⟩, here⟩
    exact extends_prefix m same copied (same ▸ record.2)
  · exact Or.inr ⟨behind, clear, aligned, here, m, mem, same, extends_prefix m same copied bytes, bytes, leads⟩

/-- A reader that gives up a record still stands there. -/
theorem Stands.stay {n : Nat} {buf : Bytes} (h : Stands (Sight.record n buf) v sent low rc r) :
    Stands Sight.spot v sent low rc r := by
  rcases h with ⟨at_least, U, -, here⟩ | ⟨behind, clear, aligned, leads, -⟩
  · exact Or.inl ⟨at_least, U, trivial, here⟩
  · exact Or.inr ⟨behind, clear, aligned, leads⟩

/-- Behind the record the reader stands at the next one. -/
theorem Stands.past {n : Nat} {buf : Bytes} (h : Stands (Sight.record n buf) v sent low rc r) :
    Stands Sight.spot v sent low rc (r + span n) := by
  rcases h with ⟨at_least, U, ⟨m, rest, rfl, rfl, -⟩, here⟩ | ⟨behind, clear, aligned, -, m, -, -, -, -, leads⟩
  · obtain ⟨cycle, pre, lap, rfl⟩ := here
    refine Or.inl ⟨at_least.trans (Nat.le_add_right _ _), rest, trivial, cycle, pre ++ [m], by simpa using lap, ?_⟩
    rw [spans_append, spans_singleton]
  · exact Or.inr ⟨behind, clear.trans (Nat.le_add_right _ _), Nat.dvd_add aligned (span_dvd n), leads⟩

/-- Behind the wrap tag the reader stands at the start of the running lap. -/
theorem Stands.hop (h : Stands Sight.marked v sent low rc r) (hg : low = 0 ∨ v.size ≤ v.front) :
    Stands Sight.spot v sent low (nextCycle rc) 0 := by
  rcases h with ⟨-, U, never, -⟩ | ⟨behind, clear, -, seen⟩
  · exact never.elim
  · have seen : r < v.size := seen
    obtain rfl : low = 0 := by omega
    exact Or.inl ⟨le_refl 0, v.lap, trivial, here_zero (looseLaps.hop behind)⟩

/-- All of it at once: a reader that is not at the write offset finds a record of
a sent message there, or a wrap tag. -/
theorem Stands.read (h : Stands Sight.spot v sent low rc r) (ok : v.Ok) (known : v.lap ⊆ sent)
    (hg : low = 0 ∨ v.size ≤ v.front) (hr : r ≠ v.off) :
    (∃ m ∈ sent, ReadsRecord v r m ∧ 8 ∣ r ∧ Stands Sight.spot v sent low rc (r + span m.length)) ∨
      MarkAt v.data r ∧ Stands Sight.spot v sent low (nextCycle rc) 0 := by
  rcases (h.unread ok hr).load ok with ⟨mark, marked⟩ | ⟨n, tag, record⟩
  · exact Or.inr ⟨mark, marked.hop hg⟩
  · obtain ⟨aligned, room, m, mem, rfl, -, bytes⟩ := record.known ok known
    exact Or.inl ⟨m, mem, ⟨⟨tag, bytes⟩, room⟩, aligned, record.past⟩

end moves

end Msgq
