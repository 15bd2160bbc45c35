import Msgq.Sights
import Msgq.Accesses
import Msgq.Tracking

/-! A send access by access, on the writer's view of the ring. For every slot the
writer's next access decides which bytes of older laps the slot may still count
on and how far back in the running lap it may stand. -/
namespace Msgq
open ByteMemory FramedRecords Traces Turns

/-- For slot `i`, the offset from which the bytes of older laps stay, and the
least offset in the running lap. A slot that was not counted when the send
loaded num_readers is registered later and stands at the write offset. -/
def SendPc.guard (size off n i : Nat) : SendPc → Nat × Nat
  | .writeUid | .numReaders | .signal _ _ => (off, 0)
  | .writePointer k => if i < k then (off, 0) else (size, off)
  | .tag x | .beyond x _ | .dropBeyond x _ | .turn x => if i < x.numReaders then (off, 0) else (size, off)
  | .area x k | .dropArea x k => if k ≤ i ∧ i < x.numReaders then (off, 0) else (off + span n, 0)
  | .size _ | .copy _ _ | .publish _ => (off + span n, 0)

def Pc.guard (size off i : Nat) : Pc → Nat × Nat
  | .send m k => k.guard size off m.data.length i
  | .idle | .failed | .publisherUid | .initPublisher _ _ | .subscriberUid _ | .initSubscriber _ _ _
  | .resetReader _ _ _ _ | .get _ _ _ | .recv _ _ _ => (off, 0)

/-- Behind the uid check of a send. -/
def Pc.sending : Pc → Bool
  | .send _ .writeUid => false
  | .send _ .numReaders | .send _ (.writePointer _) | .send _ (.tag _) | .send _ (.beyond _ _)
  | .send _ (.dropBeyond _ _) | .send _ (.turn _) | .send _ (.area _ _) | .send _ (.dropArea _ _)
  | .send _ (.size _) | .send _ (.copy _ _) | .send _ (.publish _) | .send _ (.signal _ _) => true
  | .idle | .failed | .publisherUid | .initPublisher _ _ | .subscriberUid _ | .initSubscriber _ _ _
  | .resetReader _ _ _ _ | .get _ _ _ | .recv _ _ _ => false

/-- The locals of a send are the segment's own. -/
structure Locals.Current (x : Locals) (q : Queue) : Prop where
  cycles : x.writeCycles = q.writeCycles
  pointer : x.writePointer = q.writeOffset

/-- What a send that has passed its checks knows of the segment. -/
def Writes (size : Nat) (q : Queue) (m : Msg) : SendPc → Prop
  | .writeUid | .signal _ _ => True
  | .numReaders | .writePointer _ => Fits size m.data
  | .tag x => Fits size m.data ∧ x.Current q ∧ mustWrap size q m.data.length = true
  | .beyond x _ | .dropBeyond x _ | .turn x =>
      Fits size m.data ∧ x.Current q ∧ mustWrap size q m.data.length = true ∧ MarkAt q.data q.writeOffset
  | .area x _ | .dropArea x _ | .size x =>
      x.Current q ∧ q.writeOffset + span m.data.length + 8 < size
  | .copy x j =>
      x.Current q ∧ q.writeOffset + span m.data.length + 8 < size ∧ j < pieceCount m.data.length ∧
        ∃ d, q.data = writeBytes (storeWord d q.writeOffset m.data.length) (q.writeOffset + 8) (m.data.take (8 * j))
  | .publish x =>
      x.Current q ∧ q.writeOffset + span m.data.length + 8 < size ∧ RecordAt q.data q.writeOffset m.data

def Pc.Writes (size : Nat) (q : Queue) : Pc → Prop
  | .send m k => Msgq.Writes size q m k
  | .idle | .failed | .publisherUid | .initPublisher _ _ | .subscriberUid _ | .initSubscriber _ _ _
  | .resetReader _ _ _ _ | .get _ _ _ | .recv _ _ _ => True

/-- The ring at one moment: the running lap, everything published so far and
where the writer stands. -/
structure Moment where
  q : Queue
  lap : List Bytes
  sent : List Bytes
  writer : Pc

/-- A packed position of which `S` is known, between the two bounds of a slot. -/
def Placed (S : Sight) (size : Nat) (q : Queue) (lap sent : List Bytes) (g : Nat × Nat) (word : Nat) : Prop :=
  Stands S (q.view size lap g.1) sent g.2 (unpack64 word).1 (unpack64 word).2

/-- The owner of slot `i` knows `S` of the position `word`. -/
def Moment.Stands (S : Sight) (size : Nat) (M : Moment) (i word : Nat) : Prop :=
  Placed S size M.q M.lap M.sent (M.writer.guard size M.q.writeOffset i) word

structure Moment.Ok (size : Nat) (M : Moment) : Prop where
  ring : (M.q.view size M.lap M.q.writeOffset).Ok
  lap : M.lap ⊆ M.sent
  nonempty : ∀ m ∈ M.sent, m ≠ []
  writes : M.writer.Writes size M.q

def Note.lap (lap : List Bytes) : Note → List Bytes
  | .wrapped => []
  | .published m => lap ++ [m.data]
  | .quiet | .received _ | .garbage => lap

def Note.sent (sent : List Bytes) : Note → List Bytes
  | .published m => sent ++ [m.data]
  | .quiet | .wrapped | .received _ | .garbage => sent

/-- The messages a past has published, oldest first. -/
def publishedIn (past : List (Nat × Note)) : List Bytes := past.foldl (fun sent e => e.2.sent sent) []

def lapIn (past : List (Nat × Note)) : List Bytes := past.foldl (fun lap e => e.2.lap lap) []

def wrapsIn (past : List (Nat × Note)) : Nat := past.countP fun e => e.2 = .wrapped

/-- The moment behind an access of the writer. -/
def Moment.after (M : Moment) (r : Queue × Pc × Note) : Moment where
  q := r.1
  lap := r.2.2.lap M.lap
  sent := r.2.2.sent M.sent
  writer := r.2.1

section pasts

theorem Note.subset_sent (sent : List Bytes) (e : Note) : sent ⊆ e.sent sent := by
  cases e with
  | published m => exact List.subset_append_left _ _
  | quiet | wrapped | received | garbage => exact fun _ mem => mem

theorem publishedIn_snoc (past : List (Nat × Note)) (pe : Nat × Note) :
    publishedIn (past ++ [pe]) = pe.2.sent (publishedIn past) := List.foldl_append

theorem lapIn_snoc (past : List (Nat × Note)) (pe : Nat × Note) :
    lapIn (past ++ [pe]) = pe.2.lap (lapIn past) := List.foldl_append

theorem wrapsIn_snoc (past : List (Nat × Note)) (pe : Nat × Note) :
    wrapsIn (past ++ [pe]) = wrapsIn past + if pe.2 = .wrapped then 1 else 0 := by
  rw [wrapsIn, List.countP_append, List.countP_singleton]
  simp [wrapsIn]

theorem mem_publishedIn {past : List (Nat × Note)} {b : Bytes} (h : b ∈ publishedIn past) :
    ∃ p m, (p, Note.published m) ∈ past ∧ m.data = b := by
  induction past using List.reverseRecOn with
  | nil => cases h
  | append_singleton past e ih =>
      obtain ⟨p, e⟩ := e
      rw [publishedIn_snoc] at h
      cases e with
      | published m =>
          rcases List.mem_append.mp h with old | new
          · obtain ⟨p', m', mem, same⟩ := ih old
            exact ⟨p', m', List.mem_append_left _ mem, same⟩
          · exact ⟨p, m, by simp, (List.mem_singleton.mp new).symm⟩
      | quiet | wrapped | received | garbage =>
          obtain ⟨p', m', mem, same⟩ := ih h
          exact ⟨p', m', List.mem_append_left _ mem, same⟩

theorem published_mem {past : List (Nat × Note)} {p : Nat} {m : Msg} (h : (p, Note.published m) ∈ past) :
    m.data ∈ publishedIn past := by
  induction past using List.reverseRecOn with
  | nil => cases h
  | append_singleton past e ih =>
      rw [publishedIn_snoc]
      rcases List.mem_append.mp h with old | new
      · exact e.2.subset_sent _ (ih old)
      · rw [← List.mem_singleton.mp new]
        exact List.mem_append_right _ (List.mem_singleton_self _)

end pasts

section guards
variable {size off i : Nat}

theorem calm_guard {pc : Pc} (calm : pc.sending = false) : pc.guard size off i = (off, 0) := by
  cases pc with
  | send m k =>
      cases k with
      | writeUid => rfl
      | numReaders | writePointer | tag | beyond | dropBeyond | turn | area | dropArea | size | copy | publish
      | signal => cases calm
  | _ => rfl

theorem guard_cases (pc : Pc) : (pc.guard size off i).2 = 0 ∨ pc.guard size off i = (size, off) := by
  cases pc with
  | send m k =>
      cases k with
      | writeUid | numReaders | signal | size | copy | publish => exact Or.inl rfl
      | writePointer | tag | beyond | dropBeyond | turn =>
          simp only [Pc.guard, SendPc.guard]
          split_ifs
          · exact Or.inl rfl
          · exact Or.inr rfl
      | area | dropArea =>
          simp only [Pc.guard, SendPc.guard]
          split_ifs <;> exact Or.inl rfl
  | _ => exact Or.inl rfl

theorem guard_low (pc : Pc) : (pc.guard size off i).2 ≤ off := by
  rcases guard_cases pc with none | later
  · rw [none]
    exact Nat.zero_le off
  · rw [later]

theorem guard_front (pc : Pc) (room : off ≤ size) : off ≤ (pc.guard size off i).1 := by
  cases pc with
  | send m k =>
      cases k with
      | writeUid | numReaders | signal => exact le_refl off
      | size | copy | publish => exact Nat.le_add_right _ _
      | writePointer | tag | beyond | dropBeyond | turn =>
          simp only [Pc.guard, SendPc.guard]
          split_ifs
          · exact le_refl off
          · exact room
      | area | dropArea =>
          simp only [Pc.guard, SendPc.guard]
          split_ifs
          · exact le_refl off
          · exact Nat.le_add_right _ _
  | _ => exact le_refl off

theorem guard_either (pc : Pc) : (pc.guard size off i).2 = 0 ∨ size ≤ (pc.guard size off i).1 := by
  rcases guard_cases pc with none | later
  · exact Or.inl none
  · rw [later]
    exact Or.inr (le_refl size)

theorem calm_writes {pc : Pc} (calm : pc.sending = false) (q : Queue) : pc.Writes size q := by
  cases pc with
  | send m k =>
      cases k with
      | writeUid => trivial
      | numReaders | writePointer | tag | beyond | dropBeyond | turn | area | dropArea | size | copy | publish
      | signal => cases calm
  | _ => trivial

/-- What a send knows is about the bytes and the write pointer only. -/
theorem Pc.Writes.congr {pc : Pc} {q q' : Queue} (h : pc.Writes size q) (hd : q'.data = q.data)
    (hw : q'.writePointer = q.writePointer) : pc.Writes size q' := by
  obtain ⟨n, wp, uid, ps, vs, us, data⟩ := q
  obtain ⟨n', wp', uid', ps', vs', us', data'⟩ := q'
  cases hd
  cases hw
  cases pc with
  | send m k =>
      cases k with
      | writeUid | signal => trivial
      | numReaders | writePointer => exact h
      | tag x => exact ⟨h.1, ⟨h.2.1.cycles, h.2.1.pointer⟩, h.2.2⟩
      | beyond x _ | dropBeyond x _ | turn x => exact ⟨h.1, ⟨h.2.1.cycles, h.2.1.pointer⟩, h.2.2⟩
      | area x _ | dropArea x _ | size x => exact ⟨⟨h.1.cycles, h.1.pointer⟩, h.2⟩
      | copy x _ | publish x => exact ⟨⟨h.1.cycles, h.1.pointer⟩, h.2⟩
  | _ => trivial

@[simp] theorem beyondFrom_guard (m : Msg) (x : Locals) (k : Nat) : (beyondFrom m x k).guard size off i =
    if i < x.numReaders then (off, 0) else (size, off) := by
  unfold beyondFrom
  by_cases more : k < x.numReaders
  · rw [if_pos more]
    rfl
  · rw [if_neg more]
    rfl

@[simp] theorem areaFrom_guard (m : Msg) (x : Locals) (k : Nat) : (areaFrom m x k).guard size off i =
    if k ≤ i ∧ i < x.numReaders then (off, 0) else (off + span m.data.length, 0) := by
  unfold areaFrom
  split_ifs with more inside inside
  · exact if_pos inside
  · exact if_neg inside
  · omega
  · rfl

@[simp] theorem piecesFrom_guard (m : Msg) (x : Locals) (j : Nat) :
    (piecesFrom m x j).guard size off i = (off + span m.data.length, 0) := by
  unfold piecesFrom
  split_ifs <;> rfl

@[simp] theorem signalFrom_guard (m : Msg) (n j : Nat) : (signalFrom m n j).guard size off i = (off, 0) := by
  unfold signalFrom
  split_ifs <;> rfl

variable {q : Queue} {m : Msg} {x : Locals}

theorem beyondFrom_writes (k : Nat) (fits : Fits size m.data) (current : x.Current q)
    (wrap : mustWrap size q m.data.length = true) (mark : MarkAt q.data q.writeOffset) :
    (beyondFrom m x k).Writes size q := by
  unfold beyondFrom
  split_ifs <;> exact ⟨fits, current, wrap, mark⟩

theorem areaFrom_writes (k : Nat) (current : x.Current q) (room : q.writeOffset + span m.data.length + 8 < size) :
    (areaFrom m x k).Writes size q := by
  unfold areaFrom
  split_ifs <;> exact ⟨current, room⟩

theorem piecesFrom_writes {d : Memory} (j : Nat) (current : x.Current q)
    (room : q.writeOffset + span m.data.length + 8 < size) (small : m.data.length < 2 ^ 63)
    (hj : j ≤ pieceCount m.data.length)
    (written : q.data = writeBytes (storeWord d q.writeOffset m.data.length) (q.writeOffset + 8)
      (m.data.take (8 * j))) : (piecesFrom m x j).Writes size q := by
  unfold piecesFrom
  split_ifs with more
  · exact ⟨current, room, more, d, written⟩
  · have all : j = pieceCount m.data.length := by omega
    rw [all, take_pieceCount] at written
    refine ⟨current, room, ?_⟩
    rw [written]
    exact writeRecord_recordAt d q.writeOffset small

theorem signalFrom_writes (n j : Nat) : (signalFrom m n j).Writes size q := by
  unfold signalFrom
  split_ifs <;> trivial

end guards

theorem access_send {U : UidSource} {size : Nat} {s s' : Shared} {P' : Process} {alloc : Bool} {e : Note} {m : Msg} {k : SendPc}
    {H : Handle}
    (one : access U size alloc s ⟨H, .send m k⟩ = some (e, s', P')) : e = (sendStep size m s.q H k).2.2 ∧
      s' = ⟨(sendStep size m s.q H k).1, s.drawn⟩ ∧ P' = ⟨H, (sendStep size m s.q H k).2.1⟩ := by
  cases one
  exact ⟨rfl, rfl, rfl⟩

section moments
variable {size : Nat} {S : Sight} {M M' : Moment} {i word : Nat}

/-- What is known of a position is about the ring and the writer's bounds. -/
theorem Moment.Stands.congr (h : M.Stands S size i word) (hd : M'.q.data = M.q.data)
    (hw : M'.q.writePointer = M.q.writePointer) (lap : M'.lap = M.lap) (sent : M'.sent = M.sent)
    (guard : ∀ off, M'.writer.guard size off i = M.writer.guard size off i) : M'.Stands S size i word := by
  have off : M'.q.writeOffset = M.q.writeOffset := by rw [Queue.writeOffset, Queue.writeOffset, hw]
  rw [Moment.Stands, Placed, view_congr hd hw, lap, sent, off, guard]
  exact h

theorem Moment.Ok.congr {q q' : Queue} {lap sent : List Bytes} {writer writer' : Pc}
    (ok : (Moment.mk q lap sent writer).Ok size) (hd : q'.data = q.data) (hw : q'.writePointer = q.writePointer)
    (writes : writer'.Writes size q') : (Moment.mk q' lap sent writer').Ok size where
  ring := by
    have off : q'.writeOffset = q.writeOffset := by rw [Queue.writeOffset, Queue.writeOffset, hw]
    change (q'.view size lap q'.writeOffset).Ok
    rw [view_congr hd hw, off]
    exact ok.ring
  lap := ok.lap
  nonempty := ok.nonempty
  writes := writes

theorem Moment.Ok.view (ok : M.Ok size) (front : Nat) : (M.q.view size M.lap front).Ok := ok.ring.claim front

/-- A reset loads a position of the running lap. -/
theorem Moment.Ok.loaded (ok : M.Ok size) (i : Nat) : M.Stands .spot size i M.q.writePointer :=
  stands_at_off (ok.view _) (le_refl _) (guard_low M.writer)

end moments

section writer
variable {size i word : Nat} {M : Moment} {m : Msg} {k : SendPc} {H : Handle} {S : Sight}

/-- The final write pointer is the end of the record. -/
theorem publish_pointer {q : Queue} {lap : List Bytes} {front : Nat} {x : Locals} (hsize : size < 0xFFFFFFFF)
    (ok : (q.view size lap front).Ok) (current : x.Current q) (room : q.writeOffset + span m.data.length + 8 < size) :
    unpack64 (pack64 x.writeCycles (align (x.writePointer + m.data.length + 8) % 2 ^ 32)) =
      (q.writeCycles, q.writeOffset + span m.data.length) := by
  have aligned : 8 ∣ q.writeOffset := ok.dvd
  have small : q.writeOffset + span m.data.length < 2 ^ 32 := by omega
  have stop : align (q.writeOffset + m.data.length + 8) = q.writeOffset + span m.data.length := by
    rw [Nat.add_right_comm]
    exact align_record aligned (writeOffset_lt q) m.real
  rw [current.cycles, current.pointer, stop, Nat.mod_eq_of_lt small]
  exact Prod.ext (unpack64_pack64_fst (writeCycles_lt q)) (unpack64_pack64_snd small)

/-- Where the area of a send that has the segment's own locals ends. -/
theorem Locals.Current.stop {q : Queue} {lap : List Bytes} {front : Nat} {x : Locals} (current : x.Current q)
    (ok : (q.view size lap front).Ok) (m : Msg) :
    align (x.writePointer + 8 + m.data.length) = q.writeOffset + span m.data.length := by
  have aligned : 8 ∣ q.writeOffset := ok.dvd
  rw [current.pointer]
  exact align_record aligned (writeOffset_lt q) m.real

theorem view_writePointer {q : Queue} {v c o : Nat} (words : unpack64 v = (c, o)) (lap : List Bytes) (front : Nat) :
    (Store.apply q (.writePointer v)).view size lap front = ⟨q.data, size, c, o, lap, front⟩ := by
  simp only [Queue.view, Store.apply, Queue.writeCycles, Queue.writeOffset, words]

theorem turn_pointer (c : Nat) : unpack64 (pack64 (nextCycle c) 0) = (nextCycle c, 0) :=
  Prod.ext (unpack64_pack64_fst (nextCycle_lt c)) (unpack64_pack64_snd (by omega))

/-- Bytes at or behind the write offset are no part of the running lap. -/
theorem Moment.Ok.store {q : Queue} {lap sent : List Bytes} {writer writer' : Pc} {d : Memory}
    (ok : (Moment.mk q lap sent writer).Ok size) (before : AgreeOn q.data d 0 q.writeOffset)
    (writes : writer'.Writes size { q with data := d }) : (Moment.mk { q with data := d } lap sent writer').Ok size :=
  ⟨View.Ok.write ok.ring before, ok.lap, ok.nonempty, writes⟩

/-- The record joins the running lap and all that is published. -/
theorem Moment.Ok.published {q : Queue} {lap sent : List Bytes} {writer writer' : Pc} {x : Locals}
    (ok : (Moment.mk q lap sent writer).Ok size) (hsize : size < 0xFFFFFFFF) (current : x.Current q)
    (room : q.writeOffset + span m.data.length + 8 < size) (record : RecordAt q.data q.writeOffset m.data) {v : Nat}
    (final : v = pack64 x.writeCycles (align (x.writePointer + m.data.length + 8) % 2 ^ 32))
    (writes : writer'.Writes size (Store.apply q (.writePointer v))) :
    (Moment.mk (Store.apply q (.writePointer v)) (lap ++ [m.data]) (sent ++ [m.data]) writer').Ok size := by
  have ring : (q.view size lap q.writeOffset).Ok := ok.ring
  have pointer := congrArg Prod.snd (publish_pointer hsize ring current room)
  rw [← final] at pointer
  have longer := ring.publish record room
  refine ⟨⟨?_, Or.inr ?_⟩, ?_, ?_, writes⟩
  · change Chain q.data 0 (lap ++ [m.data]) (unpack64 v).2
    rw [pointer]
    exact longer.chain
  · change (unpack64 v).2 + 8 < size
    rw [pointer]
    exact room
  · exact List.append_subset.mpr ⟨List.subset_append_of_subset_left _ ok.lap, List.subset_append_right _ _⟩
  · exact List.forall_mem_append.mpr ⟨ok.nonempty, List.forall_mem_singleton.mpr m.nonempty⟩

theorem Moment.Ok.send (ok : M.Ok size) (hsize : size < 0xFFFFFFFF) (stands : M.writer = .send m k) :
    (M.after (sendStep size m M.q H k)).Ok size := by
  obtain ⟨q, lap, sent, writer⟩ := M
  cases stands
  have ring : (q.view size lap q.writeOffset).Ok := ok.ring
  have known : lap ⊆ sent := ok.lap
  have nonempty : ∀ m ∈ sent, m ≠ [] := ok.nonempty
  have writes : Writes size q m k := ok.writes
  have small : m.data.length < 2 ^ 63 := by
    have real := m.real
    unfold Real at real
    omega
  cases k with
  | writeUid =>
      rw [sendStep]
      split_ifs with refused aborted
      · exact ⟨ring, known, nonempty, trivial⟩
      · exact ⟨ring, known, nonempty, trivial⟩
      · refine ⟨ring, known, nonempty, m.nonempty, (admits_real m.real).mp ?_⟩
        simpa using aborted
  | numReaders => exact ⟨ring, known, nonempty, writes⟩
  | writePointer n =>
      have fits : Fits size m.data := writes
      rw [sendStep]
      split_ifs with wrap
      · exact ⟨ring, known, nonempty, fits, ⟨rfl, rfl⟩, wrap⟩
      · have room : q.writeOffset + span m.data.length + 8 < size :=
          Nat.lt_of_not_le (mt (mustWrap_iff hsize fits).mpr wrap)
        exact ⟨ring, known, nonempty, areaFrom_writes 0 ⟨rfl, rfl⟩ room⟩
  | tag x =>
      obtain ⟨fits, current, wrap⟩ := writes
      have tagged : (q.view size lap q.writeOffset).tag.Ok := ring.tag
      refine ⟨?_, known, nonempty, beyondFrom_writes 0 fits ?_ wrap ?_⟩
      · simp only [sendStep, Moment.after, Store.apply, current.pointer]
        exact tagged
      · exact ⟨current.cycles, current.pointer⟩
      · change MarkAt (storeWord q.data x.writePointer (-1)) q.writeOffset
        rw [current.pointer]
        exact markAt_storeWord q.data q.writeOffset
  | beyond x j =>
      obtain ⟨fits, current, wrap, mark⟩ := writes
      rw [sendStep]
      split_ifs with test
      · exact ⟨ring, known, nonempty, fits, current, wrap, mark⟩
      · exact ⟨ring, known, nonempty, beyondFrom_writes _ fits current wrap mark⟩
  | dropBeyond x j =>
      obtain ⟨fits, current, wrap, mark⟩ := writes
      exact ⟨ring, known, nonempty, beyondFrom_writes _ fits ⟨current.cycles, current.pointer⟩ wrap mark⟩
  | turn x =>
      obtain ⟨fits, current, wrap, mark⟩ := writes
      have cycle := congrArg Prod.fst (turn_pointer x.writeCycles)
      have offset := congrArg Prod.snd (turn_pointer x.writeCycles)
      refine ⟨⟨offset.symm, Or.inl offset⟩, List.nil_subset _, nonempty, areaFrom_writes 0 ⟨cycle.symm, offset.symm⟩ ?_⟩
      change (unpack64 (pack64 (nextCycle x.writeCycles) 0)).2 + span m.data.length + 8 < size
      rw [offset]
      have three := fits.2
      have least := fits.span_ge
      omega
  | area x j =>
      obtain ⟨current, room⟩ := writes
      rw [sendStep]
      split_ifs with test
      · exact ⟨ring, known, nonempty, current, room⟩
      · exact ⟨ring, known, nonempty, areaFrom_writes _ current room⟩
  | dropArea x j =>
      obtain ⟨current, room⟩ := writes
      exact ⟨ring, known, nonempty, areaFrom_writes _ ⟨current.cycles, current.pointer⟩ room⟩
  | size x =>
      obtain ⟨current, room⟩ := writes
      change (Moment.mk { q with data := storeWord q.data x.writePointer m.data.length } lap sent (piecesFrom m x 0)).Ok size
      rw [current.pointer]
      have written : storeWord q.data q.writeOffset m.data.length =
          writeBytes (storeWord q.data q.writeOffset m.data.length) (q.writeOffset + 8) (m.data.take (8 * 0)) :=
        (writeBytes_nil _ _).symm
      exact ok.store (storeWord_agree _ _ _ (Or.inl (le_refl _))).symm
        (piecesFrom_writes 0 ⟨current.cycles, current.pointer⟩ room small (Nat.zero_le _) written)
  | copy x j =>
      obtain ⟨current, room, more, d, written⟩ := writes
      change (Moment.mk
        { q with data := writeBytes q.data (piece (x.writePointer + 8) m.data j).1 (piece (x.writePointer + 8) m.data j).2 }
        lap sent (piecesFrom m x (j + 1))).Ok size
      rw [current.pointer]
      have behind : q.writeOffset ≤ (piece (q.writeOffset + 8) m.data j).1 := by
        simp only [piece]
        omega
      refine ok.store (writeBytes_agree _ _ _ (Or.inl behind)).symm
        (piecesFrom_writes (d := d) (j + 1) ⟨current.cycles, current.pointer⟩ room small more ?_)
      rw [written]
      exact writeBytes_piece _ _ _ _ more
  | publish x =>
      obtain ⟨current, room, record⟩ := writes
      exact ok.published hsize current room record rfl (signalFrom_writes _ _)
  | signal n j => exact ⟨ring, known, nonempty, signalFrom_writes _ _⟩

theorem Placed.relax {q : Queue} {lap sent : List Bytes} {g g' : Nat × Nat} (h : Placed S size q lap sent g word)
    (front : g'.1 ≤ g.1) (low : g'.2 ≤ g.2) : Placed S size q lap sent g' word := Stands.relax h front low

/-- Where slot `i` stays in sight through an access of the writer: it was counted
when the send loads num_readers, it is clear of the area when the send passes it
over, and its flag is still set. -/
structure Unharmed (S : Sight) (size : Nat) (M : Moment) (m : Msg) (k : SendPc) (i word : Nat) : Prop where
  counted : k = .numReaders → i < M.q.numReaders
  clear : ∀ x, k = .area x i →
    inArea M.q x.writeCycles x.writePointer (align (x.writePointer + 8 + m.data.length)) i = false →
    Placed S size M.q M.lap M.sent (M.q.writeOffset, 0) word →
    Placed S size M.q M.lap M.sent (M.q.writeOffset + span m.data.length, 0) word
  valid : ∀ x, k ≠ .dropArea x i

/-- The area a send is about to claim. -/
theorem Moment.Ok.area {x : Locals} {j : Nat} (ok : M.Ok size) (stands : M.writer = .send m (.area x j)) :
    x.Current M.q ∧ align (x.writePointer + 8 + m.data.length) = M.q.writeOffset + span m.data.length := by
  have writes := ok.writes
  rw [stands] at writes
  exact ⟨writes.1, writes.1.stop ok.ring m⟩

/-- A slot that the test passes over stands clear of the area. -/
theorem Moment.Ok.passed {x : Locals} (ok : M.Ok size) (stands : M.writer = .send m (.area x i))
    (test : inArea M.q x.writeCycles x.writePointer (align (x.writePointer + 8 + m.data.length)) i = false)
    (h : Placed S size M.q M.lap M.sent (M.q.writeOffset, 0) (M.q.readPointers i)) :
    Placed S size M.q M.lap M.sent (M.q.writeOffset + span m.data.length, 0) (M.q.readPointers i) := by
  obtain ⟨current, stop⟩ := ok.area stands
  refine Stands.claim h (le_refl _) fun inside => ?_
  have hit : inArea M.q M.q.writeCycles M.q.writeOffset (M.q.writeOffset + span m.data.length) i = true :=
    inArea_iff.mpr inside
  rw [stop, current.cycles, current.pointer, hit] at test
  cases test

section placing
variable {q : Queue} {lap sent : List Bytes} {x : Locals} {n j : Nat}

/-- Without a wrap the area of a send begins where the slots stood. -/
theorem Placed.claim (h : Placed S size q lap sent (if i < n then (q.writeOffset, 0) else (size, q.writeOffset)) word)
    (room : q.writeOffset + span m.data.length ≤ size) (same : x.numReaders = n) :
    Placed S size q lap sent ((areaFrom m x 0).guard size q.writeOffset i) word := by
  rw [areaFrom_guard, same]
  by_cases counted : i < n
  · rw [if_pos counted] at h
    rw [if_pos ⟨Nat.zero_le i, counted⟩]
    exact h
  · rw [if_neg counted] at h
    rw [if_neg fun both => counted both.2]
    exact h.relax room (Nat.zero_le _)

/-- The send goes on behind slot `j`; a slot that it passes over is clear of the area. -/
theorem Placed.next_area
    (h : Placed S size q lap sent
      (if j ≤ i ∧ i < x.numReaders then (q.writeOffset, 0) else (q.writeOffset + span m.data.length, 0)) word)
    (clear : j = i → Placed S size q lap sent (q.writeOffset, 0) word →
      Placed S size q lap sent (q.writeOffset + span m.data.length, 0) word) :
    Placed S size q lap sent ((areaFrom m x (j + 1)).guard size q.writeOffset i) word := by
  rw [areaFrom_guard]
  by_cases same : j = i
  · rw [if_neg (by omega)]
    split_ifs at h with early
    · exact clear same h
    · exact h
  · have later : (j + 1 ≤ i ∧ i < x.numReaders) = (j ≤ i ∧ i < x.numReaders) := propext (by omega)
    simp only [later]
    exact h

theorem Placed.tag (h : Placed S size q lap sent (if i < n then (q.writeOffset, 0) else (size, q.writeOffset)) word)
    (ring : (q.view size lap q.writeOffset).Ok) :
    Placed S size { q with data := storeWord q.data q.writeOffset (-1) } lap sent
      (if i < n then (q.writeOffset, 0) else (size, q.writeOffset)) word := by
  have inside : q.writeOffset ≤ size := by
    have := ring.room
    simp only [Queue.view] at this
    omega
  split_ifs at h ⊢
  · exact Stands.tag h ring (le_refl _)
  · exact Stands.tag h (ring.claim size) inside

/-- The writer is at the start again, and all that was seen lies a lap behind. -/
theorem Placed.turn (h : Placed S size q lap sent (if i < n then (q.writeOffset, 0) else (size, q.writeOffset)) word)
    (ring : (q.view size lap q.writeOffset).Ok) (mark : MarkAt q.data q.writeOffset) (known : lap ⊆ sent)
    (few : q.writeCycles + 1 < 2 ^ 32) (long : span m.data.length < q.writeOffset) (same : x.numReaders = n) :
    Placed S size (Store.apply q (.writePointer (pack64 (nextCycle q.writeCycles) 0))) [] sent
      ((areaFrom m x 0).guard size 0 i) word := by
  have room : q.writeOffset + 8 < size := by
    have := ring.room
    simp only [Queue.view] at this
    omega
  have turned : ∀ stop, stop ≤ q.writeOffset → (i < n → stop = 0) →
      Placed S size (Store.apply q (.writePointer (pack64 (nextCycle q.writeCycles) 0))) [] sent (stop, 0) word := by
    intro stop bound counted
    rw [Placed, view_writePointer (turn_pointer q.writeCycles)]
    split_ifs at h with early
    · rw [counted early]
      exact Stands.turn h ring mark few known room (Nat.zero_le _) (Nat.zero_le _)
    · exact Stands.turn h (ring.claim size) mark few known room bound (show stop ≤ size by omega)
  rw [areaFrom_guard, same]
  split_ifs with early
  · exact turned 0 (Nat.zero_le _) fun _ => rfl
  · exact turned _ (by omega) fun counted => absurd ⟨Nat.zero_le i, counted⟩ early

end placing

theorem Moment.Stands.send (h : M.Stands S size i word) (ok : M.Ok size) (hsize : size < 0xFFFFFFFF)
    (stands : M.writer = .send m k) (unharmed : Unharmed S size M m k i word)
    (few : (sendStep size m M.q H k).2.2 = .wrapped → M.q.writeCycles + 1 < 2 ^ 32) :
    (M.after (sendStep size m M.q H k)).Stands S size i word := by
  obtain ⟨q, lap, sent, writer⟩ := M
  cases stands
  have ring : (q.view size lap q.writeOffset).Ok := ok.ring
  have known : lap ⊆ sent := ok.lap
  have writes : Writes size q m k := ok.writes
  have few : (sendStep size m q H k).2.2 = .wrapped → q.writeCycles + 1 < 2 ^ 32 := few
  cases k with
  | writeUid =>
      rw [sendStep]
      split_ifs <;> exact h
  | numReaders =>
      have counted : i < q.numReaders := unharmed.counted rfl
      change Placed S size q lap sent (if i < q.numReaders then _ else _) word
      rw [if_pos counted]
      exact h
  | writePointer n =>
      have fits : Fits size m.data := writes
      have h : Placed S size q lap sent (if i < n then (q.writeOffset, 0) else (size, q.writeOffset)) word := h
      rw [sendStep]
      split_ifs with wrap
      · exact h
      · have room : q.writeOffset + span m.data.length + 8 < size :=
          Nat.lt_of_not_le (mt (mustWrap_iff hsize fits).mpr wrap)
        exact h.claim (by omega) rfl
  | tag x =>
      obtain ⟨fits, current, wrap⟩ := writes
      have h : Placed S size q lap sent (if i < x.numReaders then (q.writeOffset, 0) else (size, q.writeOffset)) word := h
      change Placed S size { q with data := storeWord q.data x.writePointer (-1) } lap sent
        ((beyondFrom m x 0).guard size q.writeOffset i) word
      rw [beyondFrom_guard, current.pointer]
      exact h.tag ring
  | beyond x j =>
      have h : Placed S size q lap sent (if i < x.numReaders then (q.writeOffset, 0) else (size, q.writeOffset)) word := h
      rw [sendStep]
      split_ifs with test
      · exact h
      · change Placed S size q lap sent ((beyondFrom m x (j + 1)).guard size q.writeOffset i) word
        rw [beyondFrom_guard]
        exact h
  | dropBeyond x j =>
      have h : Placed S size q lap sent (if i < x.numReaders then (q.writeOffset, 0) else (size, q.writeOffset)) word := h
      change Placed S size q lap sent ((beyondFrom m x (j + 1)).guard size q.writeOffset i) word
      rw [beyondFrom_guard]
      exact h
  | turn x =>
      obtain ⟨fits, current, wrap, mark⟩ := writes
      have h : Placed S size q lap sent (if i < x.numReaders then (q.writeOffset, 0) else (size, q.writeOffset)) word := h
      have long := mustWrap_offset hsize fits wrap
      change Placed S size (Store.apply q (.writePointer (pack64 (nextCycle x.writeCycles) 0))) [] sent
        ((areaFrom m _ 0).guard size (unpack64 (pack64 (nextCycle x.writeCycles) 0)).2 i) word
      rw [congrArg Prod.snd (turn_pointer x.writeCycles), current.cycles]
      exact h.turn ring mark known (few rfl) long rfl
  | area x j =>
      obtain ⟨current, room⟩ := writes
      have h : Placed S size q lap sent
        (if j ≤ i ∧ i < x.numReaders then (q.writeOffset, 0) else (q.writeOffset + span m.data.length, 0)) word := h
      rw [sendStep]
      split_ifs with test
      · exact h
      · refine h.next_area ?_
        rintro rfl counted
        exact unharmed.clear x rfl (by simpa using test) counted
  | dropArea x j =>
      have h : Placed S size q lap sent
        (if j ≤ i ∧ i < x.numReaders then (q.writeOffset, 0) else (q.writeOffset + span m.data.length, 0)) word := h
      refine Placed.next_area h ?_
      rintro rfl
      exact absurd rfl (unharmed.valid x)
  | size x =>
      obtain ⟨current, room⟩ := writes
      have hspan := le_span m.data.length
      change Placed S size (Store.apply q (.word x.writePointer m.data.length)) lap sent
        ((piecesFrom m x 0).guard size q.writeOffset i) word
      rw [piecesFrom_guard, current.pointer]
      exact Stands.write h fun hi => (storeWord_agree _ _ _ (Or.inr (show _ ≤ q.writeOffset + _ by omega))).symm
  | copy x j =>
      obtain ⟨current, room, more, -⟩ := writes
      have hspan := le_span m.data.length
      change Placed S size (Store.apply q (.piece (piece (x.writePointer + 8) m.data j).1 _)) lap sent
        ((piecesFrom m x (j + 1)).guard size q.writeOffset i) word
      rw [piecesFrom_guard, current.pointer]
      refine Stands.write h fun hi => (writeBytes_agree _ _ _ (Or.inr ?_)).symm
      change (q.writeOffset + 8) + 8 * j + ((m.data.drop (8 * j)).take 8).length ≤ q.writeOffset + span m.data.length
      simp only [List.length_take, List.length_drop, pieceCount] at more ⊢
      omega
  | publish x =>
      obtain ⟨current, room, record⟩ := writes
      have pointer := publish_pointer hsize ring current room
      change Placed S size (Store.apply q (.writePointer _)) (lap ++ [m.data]) (sent ++ [m.data])
        ((signalFrom m x.numReaders 0).guard size (unpack64 (pack64 x.writeCycles _)).2 i) word
      rw [signalFrom_guard, Placed, pointer, view_writePointer pointer]
      exact Stands.publish h m.data
  | signal n j =>
      change Placed S size q lap sent ((signalFrom m n (j + 1)).guard size q.writeOffset i) word
      rw [signalFrom_guard]
      exact h

/-- What a send does to the slots. -/
theorem sendStep_slots (size : Nat) (m : Msg) (q : Queue) (H : Handle) (k : SendPc) :
    (sendStep size m q H k).1.readPointers = q.readPointers ∧
      ∀ i, (sendStep size m q H k).1.readValids i = true → q.readValids i = true ∧ ∀ x, k ≠ .dropArea x i := by
  have drop : ∀ i j, (Store.apply q (.invalidate j)).readValids i = true → q.readValids i = true ∧ i ≠ j := by
    intro i j valid
    change Function.update q.readValids j false i = true at valid
    by_cases same : i = j
    · subst same
      rw [Function.update_self] at valid
      cases valid
    · rw [Function.update_of_ne same] at valid
      exact ⟨valid, same⟩
  cases k with
  | writeUid | writePointer | beyond | area =>
      rw [sendStep]
      split_ifs
      all_goals exact ⟨rfl, fun i valid => ⟨valid, fun x same => by cases same⟩⟩
  | numReaders | tag | turn | size | copy | publish | signal =>
      exact ⟨rfl, fun i valid => ⟨valid, fun x same => by cases same⟩⟩
  | dropBeyond x j => exact ⟨rfl, fun i valid => ⟨(drop i j valid).1, fun x same => by cases same⟩⟩
  | dropArea x j =>
      refine ⟨rfl, fun i valid => ⟨(drop i j valid).1, ?_⟩⟩
      intro x' same
      have eq := (SendPc.dropArea.inj same).2
      exact (drop i j valid).2 eq.symm

/-- The cycle counter moves at a wrap only. -/
theorem Moment.Ok.cycles (ok : M.Ok size) (hsize : size < 0xFFFFFFFF) (stands : M.writer = .send m k) :
    (sendStep size m M.q H k).1.writeCycles =
      if (sendStep size m M.q H k).2.2 = .wrapped then nextCycle M.q.writeCycles else M.q.writeCycles := by
  obtain ⟨q, lap, sent, writer⟩ := M
  cases stands
  obtain ⟨ring, -, -, writes⟩ := ok
  have writes : Writes size q m k := writes
  cases k with
  | writeUid | writePointer | beyond | area =>
      rw [sendStep]
      split_ifs <;> first | contradiction | rfl
  | turn x =>
      have pointer := turn_pointer x.writeCycles
      rw [writes.2.1.cycles] at pointer
      change (unpack64 (pack64 (nextCycle x.writeCycles) 0)).1 = nextCycle q.writeCycles
      rw [writes.2.1.cycles, pointer]
  | publish x =>
      have cycle := congrArg Prod.fst (publish_pointer hsize ring writes.1 writes.2.1)
      exact cycle
  | numReaders | tag | dropBeyond | dropArea | size | copy | signal => rfl

theorem writePointer_eq {q : Queue} (small : q.writePointer < 2 ^ 64) :
    q.writePointer = q.writeCycles * 2 ^ 32 + q.writeOffset := by
  unfold Queue.writeCycles Queue.writeOffset unpack64
  omega

/-- A send moves the write pointer forward. -/
theorem Moment.Ok.advances (ok : M.Ok size) (hsize : size < 0xFFFFFFFF) (stands : M.writer = .send m k)
    (small : M.q.writePointer < 2 ^ 64)
    (few : (sendStep size m M.q H k).2.2 = .wrapped → M.q.writeCycles + 1 < 2 ^ 32) :
    M.q.writePointer ≤ (sendStep size m M.q H k).1.writePointer ∧
      (sendStep size m M.q H k).1.writePointer < 2 ^ 64 := by
  obtain ⟨q, lap, sent, writer⟩ := M
  cases stands
  obtain ⟨ring, -, -, writes⟩ := ok
  have writes : Writes size q m k := writes
  have small : q.writePointer < 2 ^ 64 := small
  have few : (sendStep size m q H k).2.2 = .wrapped → q.writeCycles + 1 < 2 ^ 32 := few
  have cycles := writeCycles_lt q
  have offset := writeOffset_lt q
  have words := writePointer_eq small
  change q.writePointer ≤ (sendStep size m q H k).1.writePointer ∧ _
  cases k with
  | writeUid | writePointer | beyond | area =>
      rw [sendStep]
      split_ifs <;> exact ⟨le_refl _, small⟩
  | turn x =>
      have next : nextCycle q.writeCycles = q.writeCycles + 1 := nextCycle_eq (few rfl)
      change q.writePointer ≤ pack64 (nextCycle x.writeCycles) 0 ∧ pack64 (nextCycle x.writeCycles) 0 < 2 ^ 64
      rw [writes.2.1.cycles, next, pack64]
      have few := few rfl
      omega
  | publish x =>
      obtain ⟨current, room, -⟩ := writes
      have stop := current.stop ring m
      have bound : q.writeOffset + span m.data.length < 2 ^ 32 := by omega
      change q.writePointer ≤ pack64 x.writeCycles (align (x.writePointer + m.data.length + 8) % 2 ^ 32) ∧
        pack64 x.writeCycles (align (x.writePointer + m.data.length + 8) % 2 ^ 32) < 2 ^ 64
      rw [Nat.add_right_comm, stop, current.cycles, pack64]
      omega
  | numReaders | tag | dropBeyond | dropArea | size | copy | signal => exact ⟨le_refl _, small⟩

end writer

end Msgq
