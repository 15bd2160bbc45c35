import Msgq.Rotation
import Msgq.Streaming

/-! What stands in the frames. A server fills a buffer that it was handed and sends
it; a client looks at the same file through a mapping of its own, whenever it likes. -/
namespace Msgq
open ByteMemory Traces

/-- A file of shared memory: the id of the server that made it, and its descriptor there. -/
abbrev FileId := Nat × Nat

namespace VisionBuf

/-- The bytes at an address of a buffer, in the process that mapped it. -/
def look (file : Memory) (b : VisionBuf) (p n : Nat) : Bytes := readBytes file (p - b.addr) n

def store (file : Memory) (b : VisionBuf) (p : Nat) (bs : Bytes) : Memory := writeBytes file (p - b.addr) bs

def getFrameId (file : Memory) (b : VisionBuf) : Nat := wordOf (b.look file b.frameId 8)

def setFrameId (file : Memory) (b : VisionBuf) (id : Nat) : Memory := b.store file b.frameId (bytesOf 8 id)

/-- The pointers of a buffer lie where its members say. -/
structure Laid (b : VisionBuf) : Prop where
  y : b.y = b.addr
  uv : b.uv = b.addr + b.uvOffset
  frameId : b.frameId = b.addr + b.len

end VisionBuf

/-- A frame that was sent: what its file held then, and how many buffers had been
handed out. -/
structure Shot where
  frame : Frame
  content : Memory
  hands : Nat

def Shot.file (k : Shot) : FileId := (k.frame.server.serverId, k.frame.buf.fd)

/-- `taken` is the buffer that was handed out and not sent yet, with the server behind
`get_buffer`; `hands` are all that were handed out, with the ids of their servers. -/
structure PictureWorld where
  stream : StreamWorld
  taken : Option (VisionBuf × VisionIpcServer)
  files : FileId → Memory
  hands : List (Nat × Hand)
  shots : List Shot

inductive PictureEvent
  | handed (serverId : Nat) (h : Hand)
  | wrote (p : Nat) (bs : Bytes)
  | labelled (id : Nat)
  | stream (e : StreamEvent)

def StreamEvent.posts : StreamEvent → Bool
  | .sent _ _ | .refused _ => true
  | _ => false

/-- The running server is another one behind the event, or none. -/
def StreamEvent.turnsOver : StreamEvent → Bool
  | .started _ | .stopped | .aborted => true
  | _ => false

namespace PictureWorld

def fill (w : PictureWorld) (i : FileId) (m : Memory) : PictureWorld :=
  { w with files := Function.update w.files i m }

/-- Behind a send of the buffer that was handed out. -/
def post (w : PictureWorld) (f : Frame) (s' : VisionIpcServer) (t : State) : PictureWorld :=
  { w with
    stream := { w.stream with
      frames := { w.stream.frames with current := some s', sent := w.stream.frames.sent ++ [f] }
      state := t }
    taken := none
    shots := w.shots ++ [⟨f, w.files (f.server.serverId, f.buf.fd), w.hands.length⟩] }

end PictureWorld

/-- One step of the application around the server, or of the stream. The application
writes into the buffer it was handed, and sends it before it asks for the next. -/
inductive PictureStep (U : UidSource) (G : Segment) (mmap mmap' : Nat → Nat) (c : Nat) :
    PictureWorld → PictureEvent → PictureWorld → Prop
  | hand {w s s' type idx b} : w.stream.frames.current = some s → w.taken = none → type = w.stream.frames.client.type →
      s.getBuffer type idx = some (b, s') →
      PictureStep U G mmap mmap' c w (.handed s.serverId ⟨type, idx, b⟩)
        { w with taken := some (b, s'), hands := w.hands ++ [(s.serverId, ⟨type, idx, b⟩)] }
  | write {w b s' p bs} : w.taken = some (b, s') → b.addr ≤ p → p + bs.length ≤ b.addr + b.mmapLen →
      PictureStep U G mmap mmap' c w (.wrote p bs)
        (w.fill (s'.serverId, b.fd) (b.store (w.files (s'.serverId, b.fd)) p bs))
  | label {w b s' id} : w.taken = some (b, s') →
      PictureStep U G mmap mmap' c w (.labelled id)
        (w.fill (s'.serverId, b.fd) (b.setFrameId (w.files (s'.serverId, b.fd)) id))
  | send {w s s' b extra packet pad p q ret signalled} : w.stream.frames.current = some s →
      w.taken = some (b, s') → s'.send b extra = some packet → packet.Fits → w.stream.publisher = some p →
      msgSend G.size w.stream.state.q (w.stream.state.handle p) (packet.msg pad).data = .sent q ret signalled →
      PictureStep U G mmap mmap' c w
        (.stream (.sent packet (mustWrap G.size w.stream.state.q (packet.msg pad).data.length)))
        (w.post ⟨s, b, extra, packet⟩ s' (w.stream.state.setQueue q))
  | refuse {w s s' b extra packet pad p} : w.stream.frames.current = some s →
      w.taken = some (b, s') → s'.send b extra = some packet → packet.Fits → w.stream.publisher = some p →
      msgSend G.size w.stream.state.q (w.stream.state.handle p) (packet.msg pad).data = .refused →
      PictureStep U G mmap mmap' c w (.stream (.refused packet)) (w.post ⟨s, b, extra, packet⟩ s' w.stream.state)
  | turnover {w e v} : StreamStep U G mmap mmap' c w.stream e v → e.turnsOver = true →
      PictureStep U G mmap mmap' c w (.stream e) { w with stream := v, taken := none }
  | aside {w e v} : StreamStep U G mmap mmap' c w.stream e v → e.posts = false → e.turnsOver = false →
      PictureStep U G mmap mmap' c w (.stream e) { w with stream := v }

/-- New files are zero. -/
def PictureWorld.start (type : VisionStreamType) (conflate : Nat → Bool) : PictureWorld :=
  ⟨.start type conflate, none, fun _ _ => 0, [], []⟩

def PictureEvent.stream? : PictureEvent → Option StreamEvent
  | .stream e => some e
  | .handed _ _ | .wrote _ _ | .labelled _ => none

def streamOf (past : List PictureEvent) : List StreamEvent := past.filterMap PictureEvent.stream?

/-- What one server was asked for. -/
def handsBy (hands : List (Nat × Hand)) (serverId : Nat) : List Hand :=
  (hands.filter fun h => h.1 = serverId).map Prod.snd

/-- The buffer of a frame was not handed out again. -/
def PictureWorld.Untouched (w : PictureWorld) (k : Shot) : Prop :=
  ∀ h ∈ handsBy (w.hands.drop k.hands) k.frame.server.serverId, h.buf ≠ k.frame.buf

/-- All calls were automatic, and fewer than the buffers in the stream came behind
the one for this frame. -/
structure PictureWorld.Recent (w : PictureWorld) (type : VisionStreamType) (k : Shot) : Prop where
  automatic : ∀ h ∈ w.hands, h.2.idx < 0
  few : w.hands.length ≤ 2 ^ 64
  behind : (handsBy (w.hands.drop k.hands) k.frame.server.serverId).length < (k.frame.server.stream type).length

/-- `recv` returns a pointer to an entry of the client's buffer table. -/
def PictureWorld.entry (w : PictureWorld) (t : Taking) : VisionBuf := w.stream.frames.client.buffers t.packet.idx

/-- The pointer that was returned is good now: its entry is in use, with a buffer of
the server that sent the packet. A connect frees the entries and makes new ones. -/
structure PictureWorld.Points (w : PictureWorld) (t : Taking) : Prop where
  returned : t.frame.isSome = true
  used : t.packet.idx < w.stream.frames.client.numBuffers
  source : (w.entry t).serverId = t.packet.serverId

instance (w : PictureWorld) (t : Taking) : Decidable (w.Points t) :=
  decidable_of_iff (t.frame.isSome = true ∧ t.packet.idx < w.stream.frames.client.numBuffers ∧
    (w.entry t).serverId = t.packet.serverId) ⟨fun h => ⟨h.1, h.2.1, h.2.2⟩, fun h => ⟨h.1, h.2, h.3⟩⟩

/-- A client that looks through `buf` sees what the server saw when it sent the frame. -/
structure Shows (files : FileId → Memory) (k : Shot) (buf : VisionBuf) : Prop where
  y : ∀ i n, buf.look (files (buf.serverId, buf.fd)) (buf.y + i) n =
    k.frame.buf.look k.content (k.frame.buf.y + i) n
  uv : ∀ i n, buf.look (files (buf.serverId, buf.fd)) (buf.uv + i) n =
    k.frame.buf.look k.content (k.frame.buf.uv + i) n
  frameId : buf.getFrameId (files (buf.serverId, buf.fd)) = k.frame.buf.getFrameId k.content

section layout
variable {mmap : Nat → Nat} {s s' : VisionIpcServer} {type : VisionStreamType}

theorem newBuffer_laid (mmap : Nat → Nat) (type : VisionStreamType) (width height size stride uvOffset fd i : Nat) :
    (VisionIpcServer.newBuffer mmap type width height size stride uvOffset fd i).Laid := ⟨rfl, rfl, rfl⟩

theorem pushBuffer_laid {type' : VisionStreamType} {width height size stride uvOffset i : Nat}
    (laid : ∀ type, ∀ b ∈ s.stream type, b.Laid) :
    ∀ type, ∀ b ∈ (s.pushBuffer mmap type' width height size stride uvOffset i).stream type, b.Laid := by
  intro type b mem
  by_cases same : type = type'
  · subst same
    rw [pushBuffer_stream, List.mem_append, List.mem_singleton] at mem
    rcases mem with mem | rfl
    · exact laid type b mem
    · exact newBuffer_laid ..
  · rw [pushBuffer_stream_ne same] at mem
    exact laid type b mem

theorem withSizes_laid {n width height size stride uvOffset : Nat} (laid : ∀ type, ∀ b ∈ s.stream type, b.Laid) :
    ∀ type', ∀ b ∈ (s.createBuffersWithSizes mmap type n width height size stride uvOffset).stream type', b.Laid := by
  have all : ∀ is : List Nat, ∀ type', ∀ b ∈
      (is.foldl (VisionIpcServer.pushBuffer mmap type width height size stride uvOffset) s).stream type', b.Laid := by
    intro is
    induction is using List.reverseRecOn with
    | nil => exact laid
    | append_singleton is i ih =>
        rw [List.foldl_append]
        exact pushBuffer_laid ih
  exact all (List.range n)

/-- The creating calls lay out every buffer. -/
theorem createAll_laid {calls : List CreateCall} (accepts : createAll mmap s calls = some s')
    (laid : ∀ type, ∀ b ∈ s.stream type, b.Laid) : ∀ type, ∀ b ∈ s'.stream type, b.Laid := by
  induction calls generalizing s with
  | nil =>
      cases accepts
      exact laid
  | cons call calls ih =>
      obtain ⟨t, one, rest⟩ := Option.bind_eq_some_iff.mp accepts
      refine ih rest ?_
      cases call with
      | createBuffers type n width height =>
          rw [CreateCall.run, VisionIpcServer.createBuffers] at one
          split_ifs at one
          cases one
          exact withSizes_laid laid
      | createBuffersWithSizes =>
          cases one
          exact withSizes_laid laid

/-- Two mappings of one file. -/
theorem shows_of_same {files : FileId → Memory} {k : Shot} (mmap' : Nat → Nat) (laid : k.frame.buf.Laid)
    (same : files k.file = k.content) :
    Shows files k (VisionIpcClient.importBuffer mmap' (k.frame.server.exported k.frame.buf) k.frame.buf.fd) := by
  have file : files (k.frame.server.serverId, k.frame.buf.fd) = k.content := same
  rw [importBuffer_exported]
  refine ⟨fun i n => ?_, fun i n => ?_, ?_⟩
  · simp [VisionBuf.look, file, laid.y]
  · simp [VisionBuf.look, file, laid.uv, Nat.add_assoc]
  · simp [VisionBuf.getFrameId, VisionBuf.look, file, laid.frameId]

end layout

section hands
variable {hands more : List (Nat × Hand)} {serverId : Nat} {h : Hand}

@[simp] theorem handsBy_append (hands more : List (Nat × Hand)) (serverId : Nat) :
    handsBy (hands ++ more) serverId = handsBy hands serverId ++ handsBy more serverId := by
  simp [handsBy]

theorem handsBy_self (serverId : Nat) (h : Hand) : handsBy [(serverId, h)] serverId = [h] := by
  simp [handsBy]

theorem handsBy_other {other : Nat} (ne : other ≠ serverId) : handsBy [(other, h)] serverId = [] := by
  simp [handsBy, ne]

theorem mem_handsBy : h ∈ handsBy hands serverId ↔ (serverId, h) ∈ hands := by
  simp [handsBy]

/-- Behind a call for one of `n` buffers, the next `n - 1` automatic calls take others. -/
theorem Serves.others {bufs : List VisionBuf} {xs ys : List Hand} {e : Hand} (S : Serves bufs 0 (xs ++ e :: ys))
    (different : bufs.Nodup) (automatic : ∀ x ∈ xs ++ e :: ys, x.idx < 0) (few : (xs ++ e :: ys).length ≤ 2 ^ 64)
    (recent : ys.length < bufs.length) : ∀ y ∈ ys, y.buf ≠ e.buf := by
  intro y mem same
  obtain ⟨j, inside, rfl⟩ := List.mem_iff_getElem.mp mem
  have S' : Serves bufs 0 ((xs ++ e :: ys) ++ []) := by rwa [List.append_nil]
  have first := S'.nth (i := xs.length) (e := e) automatic few (by simp)
  have again := S'.nth (i := xs.length + (j + 1)) (e := ys[j]) automatic few
    (by rw [List.getElem?_append_right (by omega), Nat.add_sub_cancel_left, List.getElem?_cons_succ,
      List.getElem?_eq_getElem inside])
  rw [same] at again
  obtain ⟨low, first⟩ := List.getElem?_eq_some_iff.mp first
  obtain ⟨low', again⟩ := List.getElem?_eq_some_iff.mp again
  have turns : xs.length % bufs.length = (xs.length + (j + 1)) % bufs.length :=
    (different.getElem_inj_iff).mp (first.trans again.symm)
  have apart := Nat.sub_mod_eq_zero_of_mod_eq turns.symm
  rw [Nat.add_sub_cancel_left, Nat.mod_eq_of_lt (by omega)] at apart
  omega

end hands

/-! The invariant. -/

/-- The server that has answered the calls so far. -/
def PictureWorld.behind (w : PictureWorld) (s : VisionIpcServer) : VisionIpcServer := (w.taken.map Prod.snd).getD s

structure Pictured (U : UidSource) (G : Segment) (mmap' : Nat → Nat) (c : Nat) (type : VisionStreamType)
    (conflate : Nat → Bool) (past : List PictureEvent) (w : PictureWorld) : Prop where
  stream : Streamed U G mmap' c type conflate (streamOf past) w.stream
  laid : ∀ s ∈ w.stream.frames.started, ∀ b ∈ s.stream type, b.Laid
  frames : w.shots.map Shot.frame = w.stream.frames.sent
  taken : ∀ b s', w.taken = some (b, s') → ∃ s idx, w.stream.frames.current = some s ∧
    s.getBuffer type idx = some (b, s') ∧ w.hands.getLast? = some (s.serverId, ⟨type, idx, b⟩) ∧
      ∀ k ∈ w.shots, k.hands < w.hands.length
  hands : ∀ h ∈ w.hands, ∃ s ∈ w.stream.frames.started, s.serverId = h.1
  shots : ∀ k ∈ w.shots, k.hands ≤ w.hands.length ∧
    ∃ idx, (w.hands.take k.hands).getLast? = some (k.frame.server.serverId, ⟨type, idx, k.frame.buf⟩)
  intact : ∀ k ∈ w.shots, w.Untouched k → w.files k.file = k.content
  serves : ∀ s ∈ w.stream.frames.started, Serves (s.stream type) 0 (handsBy w.hands s.serverId)
  counter : ∀ s, w.stream.frames.current = some s →
    (w.behind s).curIdx type = (handsBy w.hands s.serverId).foldl advance 0

section pictures
variable {U : UidSource} {G : Segment} {mmap mmap' : Nat → Nat} {c : Nat} {type : VisionStreamType}
  {conflate : Nat → Bool} {past : List PictureEvent} {w w' : PictureWorld} {e : PictureEvent} {k : Shot}

@[simp] theorem streamOf_append (past : List PictureEvent) (e : PictureEvent) :
    streamOf (past ++ [e]) = streamOf past ++ e.stream?.toList := by
  cases h : e.stream? <;> simp [streamOf, h]

/-- All other steps of a stream leave the servers and what they sent alone. -/
theorem aside_frames {v v' : StreamWorld} {e : StreamEvent} (step : StreamStep U G mmap mmap' c v e v')
    (posts : e.posts = false) (turns : e.turnsOver = false) : v'.frames.started = v.frames.started ∧
      v'.frames.current = v.frames.current ∧ v'.frames.sent = v.frames.sent := by
  cases step with
  | start | stop | abort => cases turns
  | send | refuse => cases posts
  | connect | connectNowhere | join | elsewhere => exact ⟨rfl, rfl, rfl⟩
  | client call alloc fuel outcome one =>
      cases clientStep_move one with
      | called | polled | timedOut | null | died => exact ⟨rfl, rfl, rfl⟩
      | took =>
          rw [StreamWorld.take]
          split_ifs <;> exact ⟨rfl, rfl, rfl⟩

/-- The hands behind a shot, once one more buffer is handed out. -/
theorem drop_hands {hands : List (Nat × Hand)} {n : Nat} (h : Nat × Hand) (below : n ≤ hands.length) :
    (hands ++ [h]).drop n = hands.drop n ++ [h] := List.drop_append_of_le_length below

/-- A buffer that is being filled is not that of an untouched frame. -/
theorem Pictured.file_ne {b : VisionBuf} {s' : VisionIpcServer} (P : Pictured U G mmap' c type conflate past w)
    (took : w.taken = some (b, s')) (mem : k ∈ w.shots) (untouched : w.Untouched k) :
    k.file ≠ (s'.serverId, b.fd) := by
  intro same
  obtain ⟨s, idx, runs, got, last, later⟩ := P.taken b s' took
  have sent : k.frame ∈ w.stream.frames.sent := P.frames ▸ List.mem_map_of_mem mem
  obtain ⟨⟨s₀, mem₀, id₀, buffers₀⟩, -, bufs, has, place⟩ := P.stream.frames.frames k.frame sent
  obtain ⟨s₁, mem₁, id₁, buffers₁⟩ := P.stream.frames.running s runs
  obtain ⟨bufs', has', -, -, -⟩ := getBuffer_counter got
  obtain ⟨⟨i, inside, rfl⟩, -, id'⟩ := getBuffer_place has' got
  obtain ⟨ids, files⟩ := Prod.mk.injEq .. ▸ same
  obtain rfl := P.stream.frames.instance_unique mem₁ mem₀ (id₁.symm.trans (id'.symm.trans (ids.symm.trans id₀)))
  rw [buffers₀, ← buffers₁, has'] at has
  cases has
  obtain ⟨below, at_place⟩ := List.getElem?_eq_some_iff.mp place
  obtain ⟨ns, made, -, -⟩ := P.stream.frames.created s₁ mem₁
  have index := made.place (buffers₁ ▸ has') inside below ((congrArg VisionBuf.fd at_place).trans files).symm
  subst index
  refine untouched ⟨type, idx, bufs[k.frame.buf.idx]⟩ ?_ at_place
  rw [mem_handsBy, ids, id']
  refine List.mem_of_getLast? ?_
  rw [List.getLast?_drop, if_neg (Nat.not_le.mpr (later k mem)), last]

/-- Writing into the buffer that was handed out. -/
theorem Pictured.fill {b : VisionBuf} {s' : VisionIpcServer} (P : Pictured U G mmap' c type conflate past w)
    (took : w.taken = some (b, s')) (silent : e.stream? = none) (m : Memory) :
    Pictured U G mmap' c type conflate (past ++ [e]) (w.fill (s'.serverId, b.fd) m) := by
  refine ⟨?_, P.laid, P.frames, P.taken, P.hands, P.shots, ?_, P.serves, P.counter⟩
  · rw [streamOf_append, silent, Option.toList_none, List.append_nil]
    exact P.stream
  · intro k mem untouched
    have apart := P.file_ne took mem untouched
    exact (Function.update_of_ne apart m w.files).trans (P.intact k mem untouched)

theorem Pictured.hand {s s' : VisionIpcServer} {idx : Int} {b : VisionBuf}
    (P : Pictured U G mmap' c type conflate past w) (runs : w.stream.frames.current = some s) (free : w.taken = none)
    (got : s.getBuffer type idx = some (b, s')) :
    Pictured U G mmap' c type conflate (past ++ [.handed s.serverId ⟨type, idx, b⟩])
      { w with taken := some (b, s'), hands := w.hands ++ [(s.serverId, ⟨type, idx, b⟩)] } := by
  obtain ⟨s₁, mem₁, id₁, buffers₁⟩ := P.stream.frames.running s runs
  obtain ⟨bufs, has, place, -, counter⟩ := getBuffer_counter got
  have before := P.counter s runs
  rw [PictureWorld.behind, free] at before
  change s.curIdx type = _ at before
  refine ⟨?_, P.laid, P.frames, ?_, ?_, ?_, ?_, ?_, ?_⟩
  · rw [streamOf_append]
    simpa [PictureEvent.stream?] using P.stream
  · intro b' t same
    cases same
    refine ⟨s, idx, runs, got, List.getLast?_concat, fun k mem => ?_⟩
    have below := (P.shots k mem).1
    rw [List.length_append, List.length_singleton]
    omega
  · exact List.forall_mem_append.mpr ⟨P.hands, List.forall_mem_singleton.mpr ⟨s₁, mem₁, id₁.symm⟩⟩
  · intro k mem
    obtain ⟨below, last⟩ := P.shots k mem
    refine ⟨by rw [List.length_append]; omega, ?_⟩
    rw [List.take_append_of_le_length below]
    exact last
  · intro k mem untouched
    refine P.intact k mem fun h old => untouched h ?_
    rw [drop_hands _ (P.shots k mem).1, handsBy_append]
    exact List.mem_append_left _ old
  · intro s₀ mem₀
    rw [handsBy_append]
    by_cases same : s.serverId = s₀.serverId
    · obtain rfl := P.stream.frames.instance_unique mem₁ mem₀ (id₁.symm.trans same)
      rw [same, handsBy_self, serves_append]
      refine ⟨P.serves s₁ mem₁, ?_, trivial⟩
      rw [← same, ← before, stream_of_lookup (buffers₁ ▸ has)]
      exact place
    · rw [handsBy_other same, List.append_nil]
      exact P.serves s₀ mem₀
  · intro t same
    obtain rfl := Option.some.inj (runs.symm.trans same)
    rw [handsBy_append, handsBy_self, List.foldl_append, ← before]
    change s'.curIdx type = _
    rw [counter, Function.update_self]
    rfl

/-- The buffer that was handed out is sent. -/
theorem Pictured.post {s s' : VisionIpcServer} {b : VisionBuf} {extra : VisionIpcBufExtra} {packet : VisionIpcPacket}
    {t : State} {a : StreamEvent} (P : Pictured U G mmap' c type conflate past w)
    (runs : w.stream.frames.current = some s) (took : w.taken = some (b, s'))
    (goes : ∀ idx, s.getBuffer w.stream.frames.client.type idx = some (b, s') →
      StreamStep U G mmap mmap' c w.stream a (w.post ⟨s, b, extra, packet⟩ s' t).stream)
    (few : (streamOf past).countP StreamEvent.wraps < 2 ^ 32) :
    Pictured U G mmap' c type conflate (past ++ [.stream a]) (w.post ⟨s, b, extra, packet⟩ s' t) := by
  obtain ⟨s₀, idx, runs₀, got, last, -⟩ := P.taken b s' took
  obtain rfl := Option.some.inj (runs.symm.trans runs₀)
  obtain ⟨bufs, has, -⟩ := getBuffer_counter got
  have id := (getBuffer_place has got).2.2
  refine ⟨?_, P.laid, ?_, ?_, P.hands, ?_, ?_, P.serves, ?_⟩
  · rw [streamOf_append]
    refine P.stream.step few (goes idx ?_)
    rw [P.stream.frames.sameType]
    exact got
  · simp [PictureWorld.post, P.frames]
  · intro _ _ none
    cases none
  · intro k mem
    rcases List.mem_append.mp mem with old | new
    · exact P.shots k old
    · obtain rfl := List.mem_singleton.mp new
      exact ⟨le_refl _, idx, by rw [PictureWorld.post, List.take_length]; exact last⟩
  · intro k mem untouched
    rcases List.mem_append.mp mem with old | new
    · exact P.intact k old untouched
    · obtain rfl := List.mem_singleton.mp new
      rfl
  · intro t same
    obtain rfl := Option.some.inj same
    have before := P.counter s runs
    rw [PictureWorld.behind, took] at before
    rw [id]
    exact before

theorem Pictured.turnover {v : StreamWorld} {a : StreamEvent} (P : Pictured U G mmap' c type conflate past w)
    (step : StreamStep U G mmap mmap' c w.stream a v) (turns : a.turnsOver = true)
    (few : (streamOf past).countP StreamEvent.wraps < 2 ^ 32) :
    Pictured U G mmap' c type conflate (past ++ [.stream a]) { w with stream := v, taken := none } := by
  have stream : Streamed U G mmap' c type conflate (streamOf (past ++ [.stream a])) v := by
    rw [streamOf_append]
    exact P.stream.step few step
  have untaken : ∀ (b : VisionBuf) (s' : VisionIpcServer), (none : Option (VisionBuf × VisionIpcServer)) = some (b, s') →
      False := by simp
  cases step with
  | @start s calls serverId fd ps fresh accepted makes count other =>
      have id : s.serverId = serverId := createAll_serverId accepted
      have unused : handsBy w.hands s.serverId = [] := by
        rw [List.eq_nil_iff_forall_not_mem]
        intro h mem
        obtain ⟨s', here, same⟩ := P.hands _ (mem_handsBy.mp mem)
        exact fresh s' here (same.trans id)
      refine ⟨stream, ?_, P.frames, fun b s' took => (untaken b s' took).elim, ?_, P.shots, P.intact, ?_, ?_⟩
      · refine List.forall_mem_cons.mpr ⟨createAll_laid accepted ?_ type, P.laid⟩
        intro type b mem
        exact (List.not_mem_nil mem).elim
      · intro h mem
        obtain ⟨s', here, same⟩ := P.hands h mem
        exact ⟨s', List.mem_cons_of_mem s here, same⟩
      · refine List.forall_mem_cons.mpr ⟨?_, P.serves⟩
        rw [unused]
        trivial
      · intro t same
        obtain rfl := Option.some.inj same
        rw [unused]
        exact createAll_curIdx accepted (fun _ => rfl) type
  | stop | abort =>
      refine ⟨stream, P.laid, P.frames, fun b s' took => (untaken b s' took).elim, P.hands, P.shots, P.intact,
        P.serves, ?_⟩
      intro s none
      cases none
  | send | refuse | connect | connectNowhere | join | elsewhere => cases turns
  | client call alloc fuel outcome one =>
      cases clientStep_move one with
      | took =>
          rw [StreamWorld.take] at turns
          split_ifs at turns <;> cases turns
      | _ => cases turns

theorem Pictured.aside {v : StreamWorld} {a : StreamEvent} (P : Pictured U G mmap' c type conflate past w)
    (step : StreamStep U G mmap mmap' c w.stream a v) (posts : a.posts = false) (turns : a.turnsOver = false)
    (few : (streamOf past).countP StreamEvent.wraps < 2 ^ 32) :
    Pictured U G mmap' c type conflate (past ++ [.stream a]) { w with stream := v } := by
  obtain ⟨started, current, sent⟩ := aside_frames step posts turns
  refine ⟨?_, ?_, P.frames.trans sent.symm, ?_, ?_, P.shots, P.intact, ?_, ?_⟩
  · rw [streamOf_append]
    exact P.stream.step few step
  · dsimp only
    rw [started]
    exact P.laid
  · dsimp only
    rw [current]
    exact P.taken
  · dsimp only
    rw [started]
    exact P.hands
  · dsimp only
    rw [started]
    exact P.serves
  · dsimp only
    rw [current]
    exact P.counter

theorem Pictured.step (P : Pictured U G mmap' c type conflate past w) (step : PictureStep U G mmap mmap' c w e w')
    (few : (streamOf past).countP StreamEvent.wraps < 2 ^ 32) : Pictured U G mmap' c type conflate (past ++ [e]) w' := by
  cases step with
  | hand runs free kind got =>
      rw [P.stream.frames.sameType] at kind
      subst kind
      exact P.hand runs free got
  | write took => exact P.fill took rfl _
  | label took => exact P.fill took rfl _
  | send runs took sends fits publisher accepted =>
      exact P.post runs took
        (fun _ got => show StreamStep U G mmap mmap' c _ _ _ from .send runs got sends fits publisher accepted) few
  | refuse runs took sends fits publisher refused =>
      exact P.post runs took
        (fun _ got => show StreamStep U G mmap mmap' c _ _ _ from .refuse runs got sends fits publisher refused) few
  | turnover one turns => exact P.turnover one turns few
  | aside one posts turns => exact P.aside one posts turns few

theorem pictured (run : Run (PictureStep U G mmap mmap' c) (.start type conflate) past w)
    (few : (streamOf past).countP StreamEvent.wraps < 2 ^ 32) : Pictured U G mmap' c type conflate past w := by
  induction run with
  | nil =>
      refine ⟨streamed_run (show Run (StreamStep U G mmap mmap' c) _ [] _ from .nil) few, ?_, rfl, ?_, ?_, ?_, ?_, ?_, ?_⟩
      all_goals simp [PictureWorld.start, StreamWorld.start, FrameWorld.start]
  | @snoc past w e w' run one ih =>
      have before : (streamOf past).countP StreamEvent.wraps < 2 ^ 32 := by
        rw [streamOf_append, List.countP_append] at few
        omega
      exact (ih before).step one before

/-- A frame is untouched until its server has handed out all the other buffers. -/
theorem Pictured.untouched (P : Pictured U G mmap' c type conflate past w) (mem : k ∈ w.shots)
    (recent : w.Recent type k) : w.Untouched k := by
  have sent : k.frame ∈ w.stream.frames.sent := P.frames ▸ List.mem_map_of_mem mem
  obtain ⟨⟨s₀, mem₀, id₀, buffers₀⟩, -, -⟩ := P.stream.frames.frames k.frame sent
  obtain ⟨ns, made, -, -⟩ := P.stream.frames.created s₀ mem₀
  obtain ⟨-, idx, last⟩ := P.shots k mem
  obtain ⟨earlier, same⟩ := List.getLast?_eq_some_iff.mp last
  have stream : k.frame.server.stream type = s₀.stream type := by
    rw [VisionIpcServer.stream, VisionIpcServer.stream, buffers₀]
  have parts : handsBy w.hands k.frame.server.serverId =
      handsBy earlier k.frame.server.serverId ++ ⟨type, idx, k.frame.buf⟩ ::
        handsBy (w.hands.drop k.hands) k.frame.server.serverId := by
    conv_lhs => rw [← List.take_append_drop k.hands w.hands, same]
    rw [handsBy_append, handsBy_append, handsBy_self, List.append_assoc, List.singleton_append]
  have serves := P.serves s₀ mem₀
  rw [← id₀, parts] at serves
  refine serves.others ?_ ?_ ?_ (stream ▸ recent.behind)
  · exact List.Nodup.of_map VisionBuf.fd ((made.files type).imp Nat.ne_of_lt)
  · rw [← parts]
    exact fun h here => recent.automatic _ (mem_handsBy.mp here)
  · rw [← parts, handsBy, List.length_map]
    exact (List.length_filter_le _ _).trans recent.few

/-- What a client sees through the entry that it was pointed to. -/
theorem Pictured.shows {t : Taking} (P : Pictured U G mmap' c type conflate past w) (mem : k ∈ w.shots)
    (carries : Carries mmap' k.frame t) (kept : w.Untouched k ∨ w.Recent type k) (points : w.Points t) :
    Shows w.files k (w.entry t) := by
  have sent : k.frame ∈ w.stream.frames.sent := P.frames ▸ List.mem_map_of_mem mem
  obtain ⟨⟨s₀, mem₀, -, buffers₀⟩, packet, bufs, has, place⟩ := P.stream.frames.frames k.frame sent
  have laid : k.frame.buf.Laid := by
    refine P.laid s₀ mem₀ k.frame.buf ?_
    rw [stream_of_lookup (buffers₀ ▸ has)]
    exact List.mem_of_getElem? place
  have named : t.packet = ⟨k.frame.server.serverId, k.frame.buf.idx, k.frame.extra⟩ := carries.packet.trans packet
  obtain ⟨-, used, source⟩ := points
  rw [PictureWorld.entry, named] at source
  rw [named] at used
  have imported : w.stream.frames.client.buffers k.frame.buf.idx = _ := P.stream.frames.entry sent used source
  rw [PictureWorld.entry, named, imported]
  exact shows_of_same mmap' laid (P.intact k mem (kept.elim id (P.untouched mem)))

theorem Pictured.shows_all {ks : List Shot} {ts : List Taking} (P : Pictured U G mmap' c type conflate past w)
    (mem : ∀ k ∈ ks, k ∈ w.shots) (carried : List.Forall₂ (fun k t => Carries mmap' (Shot.frame k) t) ks ts) :
    List.Forall₂ (fun k t => Carries mmap' k.frame t ∧
      (w.Untouched k ∨ w.Recent type k → w.Points t → Shows w.files k (w.entry t))) ks ts := by
  induction carried with
  | nil => exact .nil
  | cons one rest ih =>
      refine .cons ⟨one, fun kept points => ?_⟩ (ih fun k later => mem k (List.mem_cons_of_mem _ later))
      exact P.shows (mem _ List.mem_cons_self) one kept points

/-! How long a pointer is good. -/

theorem table_step {e : PictureEvent} (step : PictureStep U G mmap mmap' c w e w')
    (other : ∀ ret, e.stream? ≠ some (.connected ret)) :
    w'.stream.frames.client.numBuffers = w.stream.frames.client.numBuffers ∧
      w'.stream.frames.client.buffers = w.stream.frames.client.buffers := by
  have within : ∀ {v a v'}, StreamStep U G mmap mmap' c v a v' → (∀ ret, a ≠ .connected ret) →
      v'.frames.client.numBuffers = v.frames.client.numBuffers ∧
        v'.frames.client.buffers = v.frames.client.buffers := by
    intro v a v' one apart
    cases one with
    | start | stop | send | refuse | abort | join | elsewhere => exact ⟨rfl, rfl⟩
    | connect | connectNowhere => exact absurd rfl (apart _)
    | client call alloc fuel outcome one =>
        cases clientStep_move one with
        | called | polled | timedOut | null | died => exact ⟨rfl, rfl⟩
        | took =>
            rw [StreamWorld.take]
            split_ifs
            · exact (recv_client v.frames.client _ _).2
            · exact ⟨rfl, rfl⟩
  cases step with
  | hand | write | label | send | refuse => exact ⟨rfl, rfl⟩
  | turnover one | aside one => exact within one fun ret same => other ret (congrArg some same)

/-- A pointer is good when it is returned. -/
theorem points_taken {t : Taking} (step : PictureStep U G mmap mmap' c w (.stream (.taken t)) w')
    (returned : t.frame.isSome = true) : w'.Points t := by
  have within : ∀ {v v'}, StreamStep U G mmap mmap' c v (.taken t) v' →
      t.packet.idx < v'.frames.client.numBuffers ∧
        (v'.frames.client.buffers t.packet.idx).serverId = t.packet.serverId := by
    intro v v' one
    cases one with
    | client call alloc fuel outcome one =>
        generalize same : StreamEvent.taken t = e at one
        cases clientStep_move one with
        | called | polled | timedOut | null | died => cases same
        | @took call p passes t' alloc fuel rc m =>
            rw [StreamWorld.take] at same ⊢
            split_ifs at same ⊢
            cases same
            obtain ⟨-, count, buffers⟩ := recv_client v.frames.client (some (VisionIpcPacket.ofBytes m)) call.extra
            dsimp only at returned ⊢
            rw [count, buffers]
            rw [Option.isSome_map, VisionIpcClient.recv] at returned
            split_ifs at returned with outside foreign
            · cases returned
            · cases returned
            · exact ⟨Nat.lt_of_not_le outside, not_not.mp foreign⟩
  cases step with
  | turnover one | aside one => exact ⟨returned, (within one).1, (within one).2⟩

/-- It stays so until the client connects again. -/
theorem points_kept (run : Run (PictureStep U G mmap mmap' c) (.start type conflate) past w) :
    ∀ before t after, streamOf past = before ++ .taken t :: after → t.frame.isSome = true →
      (∀ ret, .connected ret ∉ after) → w.Points t := by
  refine run.invariant (I := fun past w => ∀ before t after, streamOf past = before ++ .taken t :: after →
    t.frame.isSome = true → (∀ ret, .connected ret ∉ after) → w.Points t) ?_ ?_
  · intro before t after same
    cases before <;> cases same
  · intro past w e w' _ ih step before t after same returned none
    have stays : ∀ more, streamOf past = before ++ .taken t :: more → (∀ ret, .connected ret ∉ more) →
        (∀ ret, e.stream? ≠ some (.connected ret)) → w'.Points t := by
      intro more earlier none other
      obtain ⟨returned, used, source⟩ := ih before t more earlier returned none
      obtain ⟨count, buffers⟩ := table_step step other
      refine ⟨returned, count ▸ used, ?_⟩
      rw [PictureWorld.entry, buffers]
      exact source
    rw [streamOf_append] at same
    cases at_stream : e.stream? with
    | none =>
        rw [at_stream, Option.toList_none, List.append_nil] at same
        exact stays after same none (by simp [at_stream])
    | some a =>
        rw [at_stream, Option.toList_some] at same
        rcases split_snoc same with ⟨-, rfl⟩ | ⟨more, earlier, rfl⟩
        · cases e with
          | stream =>
              cases at_stream
              exact points_taken step returned
          | handed | wrote | labelled => cases at_stream
        · refine stays more earlier (fun ret mem => none ret (List.mem_append_left _ mem)) fun ret connects => ?_
          cases at_stream.symm.trans connects
          exact none ret (by simp)

/-- The frames that a client took off the queue show what they were sent with: in the
order of their sends, each through the entry of the buffer table that `recv` pointed the
client to, at any later time at which the pointer is good and as long as the server has
not handed out the same buffer again. Behind automatic calls it has not, where fewer of
them followed than the stream has buffers; the pointer is good at least until the client
connects again, and again behind a connect that brings the same server's buffers. -/
theorem frames_intact (run : Run (PictureStep U G mmap mmap' c) (.start type conflate) past w)
    (few : (streamOf past).countP StreamEvent.wraps < 2 ^ 32) :
    (∃ shots : List Shot, shots.Sublist w.shots ∧
      List.Forall₂ (fun k t => Carries mmap' k.frame t ∧
        (w.Untouched k ∨ w.Recent type k → w.Points t → Shows w.files k (w.entry t)))
        shots (takenOf (streamOf past))) ∧
    ∀ before t after, streamOf past = before ++ .taken t :: after → t.frame.isSome = true →
      (∀ ret, .connected ret ∉ after) → w.Points t := by
  have P := pictured run few
  obtain ⟨taken, within, carried⟩ := P.stream.in_order few
  rw [← P.frames, List.sublist_map_iff] at within
  obtain ⟨shots, within, rfl⟩ := within
  refine ⟨⟨shots, within, ?_⟩, points_kept run⟩
  exact P.shows_all (fun k mem => within.subset mem) (List.forall₂_map_left_iff.mp carried)

end pictures

/-! Executing the application. -/

inductive PictureAction
  | hand (idx : Int)
  | write (p : Nat) (bs : Bytes)
  | label (id : Nat)
  | send (extra : VisionIpcBufExtra)
  | stream (a : StreamAction)

def pictureAct (U : UidSource) (G : Segment) (mmap mmap' : Nat → Nat) (c fuel : Nat) (w : PictureWorld) :
    PictureAction → Option (PictureEvent × PictureWorld)
  | .hand idx => w.stream.frames.current.bind fun s =>
      match w.taken with
      | some _ => none
      | none => (s.getBuffer w.stream.frames.client.type idx).map fun r =>
          (.handed s.serverId ⟨w.stream.frames.client.type, idx, r.1⟩,
            { w with
              taken := some (r.1, r.2)
              hands := w.hands ++ [(s.serverId, ⟨w.stream.frames.client.type, idx, r.1⟩)] })
  | .write p bs => w.taken.bind fun r =>
      if r.1.addr ≤ p ∧ p + bs.length ≤ r.1.addr + r.1.mmapLen then
        some (.wrote p bs, w.fill (r.2.serverId, r.1.fd) (r.1.store (w.files (r.2.serverId, r.1.fd)) p bs))
      else none
  | .label id => w.taken.map fun r =>
      (.labelled id, w.fill (r.2.serverId, r.1.fd) (r.1.setFrameId (w.files (r.2.serverId, r.1.fd)) id))
  | .send extra => w.stream.frames.current.bind fun s => w.taken.bind fun r => w.stream.publisher.bind fun p =>
      (r.2.send r.1 extra).bind fun packet =>
        if packet.Fits then
          match msgSend G.size w.stream.state.q (w.stream.state.handle p) (packet.msg zeroPadding).data with
          | .sent q _ _ =>
              some (.stream (.sent packet (mustWrap G.size w.stream.state.q (packet.msg zeroPadding).data.length)),
                w.post ⟨s, r.1, extra, packet⟩ r.2 (w.stream.state.setQueue q))
          | .refused | .aborted => none
        else none
  | .stream a => (streamAct U G mmap mmap' c fuel w.stream a).bind fun r =>
      if r.1.turnsOver then some (.stream r.1, { w with stream := r.2, taken := none })
      else if r.1.posts then none
      else some (.stream r.1, { w with stream := r.2 })

theorem pictureAct_step {U : UidSource} {G : Segment} {mmap mmap' : Nat → Nat} {c fuel : Nat} {w w' : PictureWorld}
    {e : PictureEvent} {a : PictureAction} (act : pictureAct U G mmap mmap' c fuel w a = some (e, w')) :
    PictureStep U G mmap mmap' c w e w' := by
  cases a with
  | hand idx =>
      obtain ⟨s, runs, act⟩ := Option.bind_eq_some_iff.mp act
      split at act
      · cases act
      · rename_i free
        obtain ⟨⟨b, s'⟩, got, same⟩ := Option.map_eq_some_iff.mp act
        cases same
        exact .hand runs free rfl got
  | write p bs =>
      obtain ⟨⟨b, s'⟩, took, act⟩ := Option.bind_eq_some_iff.mp act
      split_ifs at act with inside
      cases act
      exact .write took inside.1 inside.2
  | label id =>
      obtain ⟨⟨b, s'⟩, took, same⟩ := Option.map_eq_some_iff.mp act
      cases same
      exact .label took
  | send extra =>
      obtain ⟨s, runs, act⟩ := Option.bind_eq_some_iff.mp act
      obtain ⟨⟨b, s'⟩, took, act⟩ := Option.bind_eq_some_iff.mp act
      obtain ⟨p, publisher, act⟩ := Option.bind_eq_some_iff.mp act
      obtain ⟨packet, sends, act⟩ := Option.bind_eq_some_iff.mp act
      split_ifs at act with fits
      split at act
      · rename_i accepted
        cases act
        exact .send runs took sends fits publisher accepted
      · cases act
      · cases act
  | stream a =>
      obtain ⟨⟨e, v⟩, one, act⟩ := Option.bind_eq_some_iff.mp act
      dsimp only at act
      split_ifs at act with turns posts
      · cases act
        exact .turnover (streamAct_step one) turns
      · cases act
        exact .aside (streamAct_step one) (Bool.eq_false_of_not_eq_true posts) (Bool.eq_false_of_not_eq_true turns)

/-- A frame is filled, labelled, sent and received; then the other buffer is filled, and
the client connects again. -/
def filledActions : List PictureAction :=
  [.stream (.start 7 3 [.createBuffers 0 2 4 4] [0]), .stream .join, .stream .connect, .hand (-1),
    .write (3 * 4096 + 16) [1, 2], .label 5, .send ⟨1, 10, 20, true⟩] ++
    (clientSteps 3).map .stream ++ [.hand (-1), .write (4 * 4096 + 16) [3, 4], .label 6, .stream .connect]

def pictureScript : List PictureAction → Option (List PictureEvent × PictureWorld) :=
  perform (pictureAct countingUids packetSegment (4096 * ·) (8192 * ·) 1 4) (fun _ _ => True)
    (.start 0 fun _ => false)

/-- The first two bytes of the colour plane and the label, through the pointer. -/
def PictureWorld.reads (w : PictureWorld) (t : Taking) : Bytes × Nat :=
  ((w.entry t).look (w.files ((w.entry t).serverId, (w.entry t).fd)) (w.entry t).uv 2,
    (w.entry t).getFrameId (w.files ((w.entry t).serverId, (w.entry t).fd)))

theorem frames_intact_filled : ∃ (past : List PictureEvent) (w : PictureWorld),
    (takenOf (streamOf past)).map w.reads = [([1, 2], 5)] ∧ (∀ t ∈ takenOf (streamOf past), w.Points t) ∧
    w.hands.length = 2 ∧
    (∃ shots : List Shot, shots.Sublist w.shots ∧
      List.Forall₂ (fun k t => Carries (8192 * ·) k.frame t ∧
        (w.Untouched k ∨ w.Recent 0 k → w.Points t → Shows w.files k (w.entry t)))
        shots (takenOf (streamOf past))) ∧
    ∀ before t after, streamOf past = before ++ .taken t :: after → t.frame.isSome = true →
      (∀ ret, .connected ret ∉ after) → w.Points t := by
  have ends : (pictureScript filledActions).any (fun r =>
      (takenOf (streamOf r.1)).map r.2.reads = [([1, 2], 5)] ∧ (∀ t ∈ takenOf (streamOf r.1), r.2.Points t) ∧
        r.2.hands.length = 2 ∧ (streamOf r.1).countP StreamEvent.wraps < 2 ^ 32) = true := by
    decide +kernel
  obtain ⟨⟨past, w⟩, performs, shows⟩ := (Option.any_eq_true _ _).mp ends
  have run := (performed performs fun _ _ _ _ => pictureAct_step).mono fun _ _ _ step => step.1
  obtain ⟨reads, points, hands, few⟩ := of_decide_eq_true shows
  exact ⟨past, w, reads, points, hands, frames_intact run few⟩

end Msgq
