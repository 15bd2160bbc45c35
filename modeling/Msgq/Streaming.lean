import Mathlib.Data.List.Forall2
import Msgq.Blocking
import Msgq.Frames

/-! Frames over the ring. A server puts one packet per frame on the queue of its
stream; a client polls the queue, takes a packet and returns the buffer it names.
Servers come and go, the queue stays. -/
namespace Msgq
open ByteMemory FramedRecords Traces

/-! Packets as messages. -/

/-- What stands in the bytes of a packet that belong to no member. -/
structure Padding where
  inner : Bytes
  last : Bytes
  innerLength : inner.length = 4
  lastLength : last.length = 7

def sizeofVisionIpcPacket : Nat := 48

namespace VisionIpcPacket

/-- The members are in the range of their types. -/
structure Fits (p : VisionIpcPacket) : Prop where
  serverId : p.serverId < 2 ^ 64
  idx : p.idx < 2 ^ 64
  frameId : p.extra.frameId < 2 ^ 32
  timestampSof : p.extra.timestampSof < 2 ^ 64
  timestampEof : p.extra.timestampEof < 2 ^ 64

/-- `frame_id` is four bytes and `valid` one. -/
def bytes (pad : Padding) (p : VisionIpcPacket) : Bytes :=
  bytesOf 8 p.serverId ++ (bytesOf 8 p.idx ++ (bytesOf 4 p.extra.frameId ++ (pad.inner ++
    (bytesOf 8 p.extra.timestampSof ++ (bytesOf 8 p.extra.timestampEof ++
      (bytesOf 1 p.extra.valid.toNat ++ pad.last))))))

def ofBytes (m : Bytes) : VisionIpcPacket where
  serverId := field m 0 8
  idx := field m 8 8
  extra := ⟨field m 16 4, field m 24 8, field m 32 8, field m 40 1 != 0⟩

theorem length_bytes (pad : Padding) (p : VisionIpcPacket) : (p.bytes pad).length = sizeofVisionIpcPacket := by
  simp [bytes, pad.innerLength, pad.lastLength, sizeofVisionIpcPacket]

/-- What goes to the socket. -/
def msg (pad : Padding) (p : VisionIpcPacket) : Msg where
  data := p.bytes pad
  nonempty := List.ne_nil_of_length_pos (by rw [length_bytes]; decide)
  real := by
    rw [length_bytes]
    change 3 * (48 + 15) < 2 ^ 64
    decide

/-- A packet is read back from its bytes, whatever the padding holds. -/
theorem ofBytes_bytes {p : VisionIpcPacket} (fits : p.Fits) (pad : Padding) : ofBytes (p.bytes pad) = p := by
  have eight : ∀ {n}, (bytesOf 8 n).length = 8 := length_bytesOf 8 _
  have four : ∀ {n}, (bytesOf 4 n).length = 4 := length_bytesOf 4 _
  have serverId : field (p.bytes pad) 0 8 = p.serverId :=
    (field_here _ _ eight).trans (wordOf_bytesOf_lt fits.serverId)
  have idx : field (p.bytes pad) 8 8 = p.idx := by
    rw [bytes, show 8 = 8 + 0 from rfl, field_skip _ _ eight]
    exact (field_here _ _ eight).trans (wordOf_bytesOf_lt fits.idx)
  have frameId : field (p.bytes pad) 16 4 = p.extra.frameId := by
    rw [bytes, show 16 = 8 + (8 + 0) from rfl, field_skip _ _ eight, field_skip _ _ eight]
    exact (field_here _ _ four).trans (wordOf_bytesOf_lt fits.frameId)
  have timestampSof : field (p.bytes pad) 24 8 = p.extra.timestampSof := by
    rw [bytes, show 24 = 8 + (8 + (4 + (4 + 0))) from rfl, field_skip _ _ eight, field_skip _ _ eight,
      field_skip _ _ four, field_skip _ _ pad.innerLength]
    exact (field_here _ _ eight).trans (wordOf_bytesOf_lt fits.timestampSof)
  have timestampEof : field (p.bytes pad) 32 8 = p.extra.timestampEof := by
    rw [bytes, show 32 = 8 + (8 + (4 + (4 + (8 + 0)))) from rfl, field_skip _ _ eight, field_skip _ _ eight,
      field_skip _ _ four, field_skip _ _ pad.innerLength, field_skip _ _ eight]
    exact (field_here _ _ eight).trans (wordOf_bytesOf_lt fits.timestampEof)
  have valid : field (p.bytes pad) 40 1 = p.extra.valid.toNat := by
    rw [bytes, show 40 = 8 + (8 + (4 + (4 + (8 + (8 + 0))))) from rfl, field_skip _ _ eight, field_skip _ _ eight,
      field_skip _ _ four, field_skip _ _ pad.innerLength, field_skip _ _ eight, field_skip _ _ eight]
    refine (field_here _ _ (length_bytesOf 1 _)).trans (wordOf_bytesOf_lt ?_)
    exact (Bool.toNat_lt _).trans (by decide)
  rw [ofBytes, serverId, idx, frameId, timestampSof, timestampEof, valid]
  cases p with
  | mk serverId idx extra =>
      cases extra with
      | mk frameId sof eof flag => cases flag <;> rfl

end VisionIpcPacket

/-! The client and its servers. -/

/-- The arguments of one `recv`: what `extra` points to, and the timeout. -/
structure RecvCall where
  extra : Option VisionIpcBufExtra
  timeout : Int
  sound : timeout = -1 ∨ 0 ≤ timeout

inductive ClientPc
  | absent
  | idle
  | polling (call : RecvCall) (p : Poll)
  | died

/-- `publisher` is the socket of the stream in the running server. -/
structure StreamWorld where
  frames : FrameWorld
  state : State
  publisher : Option Nat
  pc : ClientPc

/-- A packet off the queue and what became of it: the call, whether the client
holds the buffers of the server that sent it, the buffer and the frame data that
were returned, and `connected` behind it. -/
structure Taking where
  packet : VisionIpcPacket
  call : RecvCall
  attached : Bool
  frame : Option (VisionBuf × Option VisionIpcBufExtra)
  connected : Bool

inductive StreamEvent
  | started (serverId : Nat)
  | stopped
  | sent (p : VisionIpcPacket) (wrapped : Bool)
  | refused (p : VisionIpcPacket)
  | aborted
  | connected (ret : Bool)
  | joined
  | called
  | polled (e : PollEvent)
  | returnedNull
  | taken (t : Taking)
  | died
  | elsewhere (e : Event)

/-- The poller of the client. -/
def streamPoller (c : Nat) : Poller := (Poller.new false).registerSocket (0, c)

def StreamWorld.attached (w : StreamWorld) (serverId : Nat) : Bool :=
  w.frames.client.numBuffers != 0 && w.frames.source == some serverId

/-- What `recv` makes of a message that `receive` returned. -/
def StreamWorld.take (w : StreamWorld) (call : RecvCall) (t : State) (m : Bytes) : StreamEvent × StreamWorld :=
  if m.length = sizeofVisionIpcPacket then
    let packet := VisionIpcPacket.ofBytes m
    let r := w.frames.client.recv (some packet) call.extra
    (.taken ⟨packet, call, w.attached packet.serverId, r.1.map fun i => (r.2.2.buffers i, r.2.1), r.2.2.connected⟩,
      { w with frames := { w.frames with client := r.2.2 }, state := t, pc := .idle })
  else (.died, { w with state := t, pc := .died })

/-- Behind the `msgq_msg_recv` of a `receive` that does not block. -/
def StreamWorld.receiveThen (w : StreamWorld) (call : RecvCall) (r : List Pass × State) : StreamEvent × StreamWorld :=
  match recvCode r.1 with
  | none => (.died, { w with state := r.2, pc := .died })
  | some rc =>
      match if 0 < rc then returned r.1 else none with
      | none => (.returnedNull, { w with state := r.2, pc := .idle })
      | some m => w.take call r.2 m

/-- The next step of the client. `call` is the call it makes when it is between
two calls, `alloc` whether an allocation succeeds, `outcome` what a sleep comes to. -/
def clientStep (U : UidSource) (G : Segment) (c : Nat) (call : RecvCall) (alloc : Bool) (fuel : Nat)
    (outcome : SleepOutcome) (w : StreamWorld) : Option (StreamEvent × StreamWorld) :=
  match w.pc with
  | .idle => some (.called, { w with pc := .polling call (.start (streamPoller c).polls call.timeout) })
  | .polling call p =>
      if p.pc = .returned then
        if (streamPoller c).poll p.polls = [] then some (.returnedNull, { w with pc := .idle })
        else (msgRecv U G.size alloc c fuel w.state).map (w.receiveThen call)
      else
        (pollStep U call.timeout fuel outcome ⟨fun _ => w.state, p⟩).map fun r =>
          (.polled r.1, { w with state := r.2.endpoint 0, pc := .polling call r.2.poll })
  | .absent | .died => none

/-- Every creating call for a stream opens a socket of its own; the last one stays. -/
def openSockets (U : UidSource) (s : State) (ps : List Nat) : State := ps.foldl (initPublisher U) s

/-- One step of the servers, of the client or of another process. The client
connects between two receives only. -/
inductive StreamStep (U : UidSource) (G : Segment) (mmap mmap' : Nat → Nat) (c : Nat) :
    StreamWorld → StreamEvent → StreamWorld → Prop
  | start {w s calls serverId fd ps} : (∀ s' ∈ w.frames.started, s'.serverId ≠ serverId) →
      createAll mmap (.new serverId fd) calls = some s → MakesOnce w.frames.client.type calls s →
      ps.length = (countsOf w.frames.client.type calls).length → c ∉ ps →
      StreamStep U G mmap mmap' c w (.started serverId)
        { w with
          frames := { w.frames with started := s :: w.frames.started, current := some s }
          state := openSockets U w.state ps
          publisher := ps.getLast? }
  | stop {w} : StreamStep U G mmap mmap' c w .stopped
      { w with frames := { w.frames with current := none }, publisher := none }
  | send {w s s' idx b extra packet pad p q ret signalled} : w.frames.current = some s →
      s.getBuffer w.frames.client.type idx = some (b, s') → s'.send b extra = some packet → packet.Fits →
      w.publisher = some p → msgSend G.size w.state.q (w.state.handle p) (packet.msg pad).data = .sent q ret signalled →
      StreamStep U G mmap mmap' c w (.sent packet (mustWrap G.size w.state.q (packet.msg pad).data.length))
        { w with
          frames := { w.frames with current := some s', sent := w.frames.sent ++ [⟨s, b, extra, packet⟩] }
          state := w.state.setQueue q }
  -- the server does not look at what its socket answers
  | refuse {w s s' idx b extra packet pad p} : w.frames.current = some s →
      s.getBuffer w.frames.client.type idx = some (b, s') → s'.send b extra = some packet → packet.Fits →
      w.publisher = some p → msgSend G.size w.state.q (w.state.handle p) (packet.msg pad).data = .refused →
      StreamStep U G mmap mmap' c w (.refused packet)
        { w with frames := { w.frames with current := some s', sent := w.frames.sent ++ [⟨s, b, extra, packet⟩] } }
  | abort {w s s' idx b extra packet pad p} : w.frames.current = some s →
      s.getBuffer w.frames.client.type idx = some (b, s') → s'.send b extra = some packet →
      w.publisher = some p → msgSend G.size w.state.q (w.state.handle p) (packet.msg pad).data = .aborted →
      StreamStep U G mmap mmap' c w .aborted
        { w with frames := { w.frames with current := none }, publisher := none }
  | connect {w s ret client} : w.pc = .idle → w.frames.current = some s →
      w.frames.client.connectTo mmap' s = some (ret, client) →
      StreamStep U G mmap mmap' c w (.connected ret)
        { w with frames := { w.frames with client := client, source := some s.serverId } }
  | connectNowhere {w peer ret client} : w.pc = .idle → Fruitless peer →
      w.frames.client.connect mmap' peer = some (ret, client) →
      StreamStep U G mmap mmap' c w (.connected ret)
        { w with frames := { w.frames with client := client, source := none } }
  | join {w} : w.pc = .absent →
      StreamStep U G mmap mmap' c w .joined { w with state := initSubscriber U w.state c, pc := .idle }
  | client {w e w'} (call alloc fuel outcome) : clientStep U G c call alloc fuel outcome w = some (e, w') →
      StreamStep U G mmap mmap' c w e w'
  | elsewhere {w e t} : Step U G w.state e t → e.caller ≠ c → e.sent? = none →
      StreamStep U G mmap mmap' c w (.elsewhere e) { w with state := t }

/-- Before any server and before the client, on a zeroed segment. -/
def StreamWorld.start (type : VisionStreamType) (conflate : Nat → Bool) : StreamWorld :=
  ⟨.start type, .fresh conflate, none, .absent⟩

/-! What is observed of a stream. -/

def StreamEvent.taken? : StreamEvent → Option Taking
  | .taken t => some t
  | _ => none

/-- The packets off the queue, oldest first. -/
def takenOf (past : List StreamEvent) : List Taking := past.filterMap StreamEvent.taken?

def StreamEvent.wraps : StreamEvent → Bool
  | .sent _ wrapped => wrapped
  | .elsewhere e => e.wraps
  | _ => false

/-- A frame and a packet off the queue that was sent for it: a client that holds
the buffers of its server returns the one imported from the very buffer that was
sent, with the frame data of that send; any other drops it and is no longer
connected. -/
structure Carries (mmap' : Nat → Nat) (f : Frame) (t : Taking) : Prop where
  packet : t.packet = f.packet
  attached : t.attached = true → t.frame =
    some (VisionIpcClient.importBuffer mmap' (f.server.exported f.buf) f.buf.fd, t.call.extra.map fun _ => f.extra)
  dropped : t.attached = false → t.frame = none ∧ t.connected = false

section frames
variable {mmap mmap' : Nat → Nat} {type : VisionStreamType} {w : FrameWorld} {f f' : Frame} {t : Taking}

/-- The instance a frame came from is the one the client holds, where their ids agree. -/
theorem FrameInvariant.held (I : FrameInvariant mmap' type w) (mem : f ∈ w.sent) (some_left : w.client.numBuffers ≠ 0)
    (source : w.source = some f.server.serverId) :
    ∃ bufs, Holds mmap' f.server bufs w.client ∧ bufs[f.buf.idx]? = some f.buf := by
  obtain ⟨⟨s₀, mem₀, id, buffers⟩, -, bufs, has, place⟩ := I.frames f mem
  obtain ⟨s, mem', bufs', has', holds, source'⟩ := I.holds.resolve_left some_left
  have same : s.serverId = f.server.serverId := Option.some.inj (source'.symm.trans source)
  obtain rfl := I.instance_unique mem' mem₀ (same.trans id)
  rw [buffers, has'] at has
  cases has
  refine ⟨bufs, ⟨holds.1, fun i h => ?_⟩, place⟩
  rw [holds.2 i h, VisionIpcServer.exported, VisionIpcServer.exported, same]

/-- A packet is returned by a client that holds the buffers of its server, and
dropped by any other. -/
theorem FrameInvariant.recv_sent (I : FrameInvariant mmap' type w) (mem : f ∈ w.sent) (x : Option VisionIpcBufExtra) :
    if w.client.numBuffers ≠ 0 ∧ w.source = some f.packet.serverId then
      w.client.recv (some f.packet) x = (some f.buf.idx, x.map fun _ => f.extra, w.client) ∧
        w.client.buffers f.buf.idx = VisionIpcClient.importBuffer mmap' (f.server.exported f.buf) f.buf.fd
    else w.client.recv (some f.packet) x = (none, x, { w.client with connected := false }) := by
  obtain ⟨-, packet, -⟩ := I.frames f mem
  rw [packet]
  dsimp only
  split_ifs with attached
  · obtain ⟨bufs, holds, place⟩ := I.held mem attached.1 attached.2
    obtain ⟨h, same⟩ := List.getElem?_eq_some_iff.mp place
    refine ⟨recv_own holds h, ?_⟩
    rw [holds.2 _ h, same]
  · rw [VisionIpcClient.recv]
    dsimp only
    by_cases outside : w.client.numBuffers ≤ f.buf.idx
    · rw [if_pos outside]
    · have some_left : w.client.numBuffers ≠ 0 := by omega
      obtain ⟨s, -, bufs, -, holds, source⟩ := I.holds.resolve_left some_left
      have other : (w.client.buffers f.buf.idx).serverId ≠ f.server.serverId := by
        intro same
        rw [holds.2 f.buf.idx (by rw [← holds.1]; omega)] at same
        exact attached ⟨some_left, source.trans (congrArg some same)⟩
      rw [if_neg outside, if_pos other]

/-- Frames with the same packet are the same buffer of the same instance. -/
theorem FrameInvariant.same_frame (I : FrameInvariant mmap' type w) (mem : f ∈ w.sent) (mem' : f' ∈ w.sent)
    (same : f.packet = f'.packet) :
    f.server.exported f.buf = f'.server.exported f'.buf ∧ f.buf = f'.buf ∧ f.extra = f'.extra := by
  obtain ⟨⟨s, here, id, buffers⟩, packet, bufs, has, place⟩ := I.frames f mem
  obtain ⟨⟨s', here', id', buffers'⟩, packet', bufs', has', place'⟩ := I.frames f' mem'
  rw [packet, packet'] at same
  obtain ⟨servers, index, extras⟩ := VisionIpcPacket.mk.injEq .. ▸ same
  obtain rfl := I.instance_unique here here' (id.symm.trans (servers.trans id'))
  rw [buffers, ← buffers', has'] at has
  cases has
  rw [index, place'] at place
  have buf : f'.buf = f.buf := Option.some.inj place
  exact ⟨by rw [VisionIpcServer.exported, VisionIpcServer.exported, servers, buf], buf.symm, extras⟩

theorem Carries.congr (I : FrameInvariant mmap' type w) (mem : f ∈ w.sent) (mem' : f' ∈ w.sent)
    (k : Carries mmap' f t) (same : t.packet = f'.packet) : Carries mmap' f' t := by
  obtain ⟨exported, buf, extra⟩ := I.same_frame mem mem' (k.packet.symm.trans same)
  refine ⟨same, ?_, k.dropped⟩
  rw [← exported, ← buf, ← extra]
  exact k.attached

end frames

/-! What the ring carries. -/

/-- A message and the frame it was sent for. -/
def MadeOf (m : Bytes) (f : Frame) : Prop := f.packet.Fits ∧ ∃ pad, m = f.packet.bytes pad

/-- The calls the segment saw, and the frames whose packets it accepted. -/
structure Ringed (U : UidSource) (G : Segment) (conflate : Nat → Bool) (c : Nat) (past : List StreamEvent) (t : State)
    (sent : List Frame) (calls : List Event) (posted : List Frame) : Prop where
  run : Run (Step U G) (State.fresh conflate) calls t
  wraps : wrapCount calls = past.countP StreamEvent.wraps
  received : (receivedBy c calls).map VisionIpcPacket.ofBytes = (takenOf past).map Taking.packet
  made : List.Forall₂ MadeOf (sentOf calls) posted
  posted : posted.Sublist sent

section ring
variable {U : UidSource} {G : Segment} {conflate : Nat → Bool} {c : Nat} {past : List StreamEvent} {s t : State}
  {sent sent' posted : List Frame} {calls more : List Event} {e : StreamEvent} {mmap mmap' : Nat → Nat} {w w' : StreamWorld}

@[simp] theorem takenOf_append (past : List StreamEvent) (e : StreamEvent) :
    takenOf (past ++ [e]) = takenOf past ++ e.taken?.toList := by
  cases h : e.taken? <;> simp [takenOf, h]

@[simp] theorem streamWraps_append (past : List StreamEvent) (e : StreamEvent) :
    (past ++ [e]).countP StreamEvent.wraps = past.countP StreamEvent.wraps + e.wraps.toNat := by
  cases h : e.wraps <;> simp [List.countP_append, h]

/-- Calls that send nothing and take nothing for the client. -/
theorem Ringed.quiet (T : Ringed U G conflate c past s sent calls posted) (run : Run (Step U G) s more t)
    (silent : sentOf more = []) (nothing : receivedBy c more = []) (wraps : wrapCount more = e.wraps.toNat)
    (untaken : e.taken? = none) (grows : sent.Sublist sent') :
    Ringed U G conflate c (past ++ [e]) t sent' (calls ++ more) posted := by
  refine ⟨T.run.append run, ?_, ?_, ?_, T.posted.trans grows⟩
  · rw [wrapCount_append, T.wraps, wraps, streamWraps_append]
  · rw [receivedBy_append, nothing, List.append_nil, T.received, takenOf_append, untaken]
    simp
  · rw [sentOf_append, silent, List.append_nil]
    exact T.made

/-- No call at all. -/
theorem Ringed.still (T : Ringed U G conflate c past s sent calls posted) (stays : e.wraps = false)
    (untaken : e.taken? = none) (grows : sent.Sublist sent') :
    Ringed U G conflate c (past ++ [e]) s sent' calls posted := by
  have quiet := T.quiet .nil rfl rfl (by rw [stays]; rfl) untaken grows
  rwa [List.append_nil] at quiet

theorem Ringed.send {f : Frame} {h : Nat} {m : Msg} {wrapped : Bool} (T : Ringed U G conflate c past s sent calls posted)
    (step : Step U G s (.sent h m wrapped) t) (made : MadeOf m.data f) :
    Ringed U G conflate c (past ++ [.sent f.packet wrapped]) t (sent ++ [f]) (calls ++ [.sent h m wrapped])
      (posted ++ [f]) := by
  refine ⟨T.run.snoc step, ?_, ?_, ?_, T.posted.append (List.Sublist.refl _)⟩
  · rw [wrapCount_append, T.wraps, streamWraps_append]
    cases wrapped <;> rfl
  · rw [receivedBy_append, List.map_append, T.received, takenOf_append, List.map_append]
    rfl
  · rw [sentOf_append]
    exact List.rel_append T.made (.cons made .nil)

/-- A receive that took a message off the queue. -/
theorem Ringed.take {passes : List Pass} {m : Bytes} {k : Taking} (T : Ringed U G conflate c past s sent calls posted)
    (step : Step U G s (.recv c passes) t) (got : passes.filterMap Pass.message? = [m])
    (packet : VisionIpcPacket.ofBytes m = k.packet) :
    Ringed U G conflate c (past ++ [.taken k]) t sent (calls ++ [.recv c passes]) posted := by
  refine ⟨T.run.snoc step, ?_, ?_, ?_, T.posted⟩
  · rw [wrapCount_append, T.wraps, streamWraps_append]
    rfl
  · rw [receivedBy_append, List.map_append, T.received, takenOf_append, List.map_append, receivedBy_singleton,
      Event.receivedBy, if_pos rfl, got, List.map_singleton, packet]
    rfl
  · rw [sentOf_append]
    simpa [Event.sent?] using T.made

/-- The frames of a part of the messages. -/
theorem exists_made {xs ys : List Bytes} {fs : List Frame} (part : xs.Sublist ys) (made : List.Forall₂ MadeOf ys fs) :
    ∃ gs : List Frame, gs.Sublist fs ∧ List.Forall₂ MadeOf xs gs := by
  induction part generalizing fs with
  | slnil =>
      cases made
      exact ⟨[], .slnil, .nil⟩
  | cons y part ih =>
      cases made with
      | cons one made =>
          obtain ⟨gs, within, all⟩ := ih made
          exact ⟨gs, within.cons _, all⟩
  | cons_cons y part ih =>
      cases made with
      | cons one made =>
          obtain ⟨gs, within, all⟩ := ih made
          exact ⟨_, within.cons_cons _, .cons one all⟩

/-- What the client received are packets of frames, in the order they were sent. -/
theorem Ringed.frames (T : Ringed U G conflate c past s sent calls posted)
    (few : past.countP StreamEvent.wraps < 2 ^ 32) :
    ∃ fs : List Frame, fs.Sublist sent ∧ List.Forall₂ MadeOf (receivedBy c calls) fs := by
  obtain ⟨-, -, g, intact⟩ := intactRun T.run (T.wraps ▸ few)
  have order : (receivedBy c calls).Sublist (sentOf calls) := (List.sublist_append_left _ _).trans (intact.order c)
  obtain ⟨fs, within, all⟩ := exists_made order T.made
  exact ⟨fs, within.trans T.posted, all⟩

end ring

/-! Steps of the client. -/

/-- All that a step of the client does. -/
inductive ClientMove (U : UidSource) (G : Segment) (c : Nat) (w : StreamWorld) : StreamEvent → StreamWorld → Prop
  | called (call) : w.pc = .idle →
      ClientMove U G c w .called { w with pc := .polling call (.start (streamPoller c).polls call.timeout) }
  | polled {call p e fuel outcome} {v : PollWorld} : w.pc = .polling call p →
      pollStep U call.timeout fuel outcome ⟨fun _ => w.state, p⟩ = some (e, v) →
      ClientMove U G c w (.polled e) { w with state := v.endpoint 0, pc := .polling call v.poll }
  | timedOut {call p} : w.pc = .polling call p → ClientMove U G c w .returnedNull { w with pc := .idle }
  | null {call p passes t alloc fuel rc} : w.pc = .polling call p →
      msgRecv U G.size alloc c fuel w.state = some (passes, t) → recvCode passes = some rc →
      (if 0 < rc then returned passes else none) = none →
      ClientMove U G c w .returnedNull { w with state := t, pc := .idle }
  | took {call p passes t alloc fuel rc m} : w.pc = .polling call p →
      msgRecv U G.size alloc c fuel w.state = some (passes, t) → recvCode passes = some rc →
      (if 0 < rc then returned passes else none) = some m →
      ClientMove U G c w (w.take call t m).1 (w.take call t m).2
  | died {call p passes t alloc fuel} : w.pc = .polling call p →
      msgRecv U G.size alloc c fuel w.state = some (passes, t) → recvCode passes = none →
      ClientMove U G c w .died { w with state := t, pc := .died }

theorem clientStep_move {U : UidSource} {G : Segment} {c : Nat} {call : RecvCall} {alloc : Bool} {fuel : Nat}
    {outcome : SleepOutcome} {w w' : StreamWorld} {e : StreamEvent}
    (step : clientStep U G c call alloc fuel outcome w = some (e, w')) : ClientMove U G c w e w' := by
  unfold clientStep at step
  split at step
  · rename_i idle
    cases step
    exact .called call idle
  · rename_i call p polling
    split_ifs at step with ended unready
    · cases step
      exact .timedOut polling
    · obtain ⟨⟨passes, t⟩, run, same⟩ := Option.map_eq_some_iff.mp step
      rw [StreamWorld.receiveThen] at same
      dsimp only at same
      split at same
      · rename_i dies
        cases same
        exact .died polling run dies
      · rename_i rc code
        split at same
        · rename_i none
          cases same
          exact .null polling run code none
        · rename_i m some
          rw [Prod.ext_iff] at same
          obtain ⟨rfl, rfl⟩ := same
          exact .took polling run code some
    · obtain ⟨⟨e, v⟩, polls, same⟩ := Option.map_eq_some_iff.mp step
      cases same
      exact .polled polling polls
  · cases step
  · cases step

/-! The whole stream. -/

structure Streamed (U : UidSource) (G : Segment) (mmap' : Nat → Nat) (c : Nat) (type : VisionStreamType)
    (conflate : Nat → Bool) (past : List StreamEvent) (w : StreamWorld) : Prop where
  frames : FrameInvariant mmap' type w.frames
  ring : ∃ calls posted, Ringed U G conflate c past w.state w.frames.sent calls posted
  registered : w.pc ≠ .absent → (w.state.handle c).readerId ≠ none
  polls : ∀ call p, w.pc = .polling call p → ∃ polled, Accounted [(0, c)] polled p
  carried : ∀ k ∈ takenOf past, ∃ f ∈ w.frames.sent, Carries mmap' f k
  alive : w.pc ≠ .died ∧ ∀ e ∈ past, e ≠ .died

section streams
variable {U : UidSource} {G : Segment} {mmap mmap' : Nat → Nat} {c : Nat} {type : VisionStreamType}
  {conflate : Nat → Bool} {past : List StreamEvent} {w w' : StreamWorld} {e : StreamEvent} {s t : State}

/-- A segment without calls that matter to the client. -/
theorem openSockets_run (s : State) (ps : List Nat) :
    Run (Step U G) s (ps.map .initPublisher) (openSockets U s ps) := by
  induction ps using List.reverseRecOn with
  | nil => exact .nil
  | append_singleton ps p ih =>
      rw [openSockets, List.foldl_append, List.map_append]
      exact ih.snoc (.initPublisher _ p)

theorem openSockets_silent (h : Nat) (ps : List Nat) : sentOf (ps.map .initPublisher) = [] ∧
    receivedBy h (ps.map .initPublisher) = [] ∧ wrapCount (ps.map .initPublisher) = 0 := by
  refine ⟨?_, ?_, ?_⟩
  · simp [sentOf, List.filterMap_map, Event.sent?]
  · simp [receivedBy, List.flatMap_map, Event.receivedBy]
  · simp [wrapCount, List.countP_map, Event.wraps]

/-- What may follow a step that takes no packet and leaves a client that is up. -/
theorem Streamed.next (S : Streamed U G mmap' c type conflate past w) (frames : FrameInvariant mmap' type w'.frames)
    (ring : ∃ calls posted, Ringed U G conflate c (past ++ [e]) w'.state w'.frames.sent calls posted)
    (registered : w'.pc ≠ .absent → (w'.state.handle c).readerId ≠ none)
    (polls : ∀ call p, w'.pc = .polling call p → ∃ polled, Accounted [(0, c)] polled p) (untaken : e.taken? = none)
    (grows : w.frames.sent.Sublist w'.frames.sent) (up : w'.pc ≠ .died) (lives : e ≠ .died) :
    Streamed U G mmap' c type conflate (past ++ [e]) w' := by
  refine ⟨frames, ring, registered, polls, ?_, up, ?_⟩
  · rw [takenOf_append, untaken]
    simp only [Option.toList_none, List.append_nil]
    intro k mem
    obtain ⟨f, here, carries⟩ := S.carried k mem
    exact ⟨f, grows.subset here, carries⟩
  · exact List.forall_mem_append.mpr ⟨S.alive.2, List.forall_mem_singleton.mpr lives⟩

/-- A message that the client takes off the queue is the packet of a frame. -/
theorem Streamed.packet {passes : List Pass} {m : Bytes} (S : Streamed U G mmap' c type conflate past w)
    (few : past.countP StreamEvent.wraps < 2 ^ 32) (step : Step U G w.state (.recv c passes) t)
    (got : passes.filterMap Pass.message? = [m]) : ∃ f ∈ w.frames.sent, MadeOf m f := by
  obtain ⟨calls, posted, T⟩ := S.ring
  have few' : wrapCount (calls ++ [.recv c passes]) < 2 ^ 32 := by
    rw [wrapCount_append, T.wraps]
    exact few
  obtain ⟨-, -, g, intact⟩ := intactRun (T.run.snoc step) few'
  have order := (List.sublist_append_left _ _).trans (intact.order c)
  have received : m ∈ receivedBy c (calls ++ [.recv c passes]) := by simp [Event.receivedBy, got]
  have sent : m ∈ sentOf calls := by simpa [Event.sent?] using order.subset received
  obtain ⟨fs, within, all⟩ := exists_made (List.singleton_sublist.mpr sent) T.made
  cases all with
  | cons one rest => exact ⟨_, T.posted.subset (within.subset List.mem_cons_self), one⟩

/-- What becomes of the packet of a frame. -/
theorem FrameInvariant.carries {w : FrameWorld} {f : Frame} (I : FrameInvariant mmap' type w) (mem : f ∈ w.sent)
    (call : RecvCall) {attached : Bool}
    (same : attached = (w.client.numBuffers != 0 && w.source == some f.packet.serverId)) :
    Carries mmap' f ⟨f.packet, call, attached,
      (w.client.recv (some f.packet) call.extra).1.map fun i =>
        ((w.client.recv (some f.packet) call.extra).2.2.buffers i, (w.client.recv (some f.packet) call.extra).2.1),
      (w.client.recv (some f.packet) call.extra).2.2.connected⟩ := by
  have result := I.recv_sent mem call.extra
  subst same
  split_ifs at result with holds
  · obtain ⟨returns, buffer⟩ := result
    rw [returns]
    refine ⟨rfl, fun _ => ?_, fun foreign => ?_⟩
    · rw [← buffer]
      rfl
    · simp [holds.1, holds.2] at foreign
  · rw [result]
    refine ⟨rfl, fun attached => ?_, fun _ => ⟨rfl, rfl⟩⟩
    exact absurd (by simpa using attached) holds

theorem Streamed.took {call : RecvCall} {p : Poll} {passes : List Pass} {alloc : Bool} {fuel : Nat} {m : Bytes}
    (S : Streamed U G mmap' c type conflate past w) (few : past.countP StreamEvent.wraps < 2 ^ 32)
    (polling : w.pc = .polling call p) (run : msgRecv U G.size alloc c fuel w.state = some (passes, t))
    (got : returned passes = some m) :
    Streamed U G mmap' c type conflate (past ++ [(w.take call t m).1]) (w.take call t m).2 := by
  have messages : passes.filterMap Pass.message? = [m] := by rw [recv_messages run, got, Option.toList_some]
  obtain ⟨f, mem, fits, pad, rfl⟩ := S.packet few (.recv run) messages
  have read := VisionIpcPacket.ofBytes_bytes fits pad
  obtain ⟨calls, posted, T⟩ := S.ring
  rw [StreamWorld.take, if_pos (f.packet.length_bytes pad), read]
  have still := S.frames.step (show FrameStep id mmap' _
    (.received (some f.packet) (w.frames.client.recv (some f.packet) call.extra).1) _ from .recv mem)
  refine ⟨still, ⟨_, posted, T.take (.recv run) messages read⟩, ?_, ?_, ?_, ⟨?_, ?_⟩⟩
  · intro _
    exact step_readerId (.recv run) (S.registered (by simp [polling]))
  · intro _ _ same
    cases same
  · rw [takenOf_append]
    refine List.forall_mem_append.mpr ⟨S.carried, List.forall_mem_singleton.mpr ⟨f, mem, ?_⟩⟩
    exact S.frames.carries mem call rfl
  · simp
  · exact List.forall_mem_append.mpr ⟨S.alive.2, List.forall_mem_singleton.mpr (by simp)⟩

theorem Streamed.client (S : Streamed U G mmap' c type conflate past w) (few : past.countP StreamEvent.wraps < 2 ^ 32)
    (move : ClientMove U G c w e w') : Streamed U G mmap' c type conflate (past ++ [e]) w' := by
  obtain ⟨calls, posted, T⟩ := S.ring
  have traced : Traced U G c w.state [] w.state [] := ⟨.nil, rfl, rfl, rfl⟩
  have few' : wrapCount calls + ([] : List SocketEvent).countP SocketEvent.wraps < 2 ^ 32 := by
    rw [T.wraps]
    exact few
  have registered := S.registered
  cases move with
  | called call idle =>
      refine S.next S.frames ⟨calls, posted, T.still rfl rfl (List.Sublist.refl _)⟩ ?_ ?_ rfl (List.Sublist.refl _)
        (by simp) (by simp)
      · exact fun _ => registered (by simp [idle])
      · intro call' p same
        cases same
        exact ⟨[], Accounted.start [⟨(0, c), false⟩] call.timeout⟩
  | @polled call p e fuel outcome v polling one =>
      obtain ⟨polled, A⟩ := S.polls call p polling
      have stays := registered (by simp [polling])
      have polls : ∀ call' p', ClientPc.polling call v.poll = .polling call' p' →
          ∃ polled, Accounted [(0, c)] polled p' := by
        intro call' p' same
        cases same
        exact ⟨_, A.move (pollStep_move one)⟩
      rcases pollStep_mine A.mine one with ⟨ready, checks⟩ | ⟨same, -⟩
      · obtain ⟨passes, run, -⟩ := checks.answer
        have step : Step U G w.state (.ready c passes) (v.endpoint 0) := .ready run
        refine S.next S.frames ⟨_, posted, T.quiet (Run.nil.snoc step) rfl rfl rfl rfl (List.Sublist.refl _)⟩ ?_
          polls rfl (List.Sublist.refl _) (by simp) (by simp)
        exact fun _ => step_readerId step stays
      · refine S.next S.frames ⟨calls, posted, ?_⟩ ?_ polls rfl (List.Sublist.refl _) (by simp) (by simp)
        · dsimp only
          rw [same]
          exact T.still rfl rfl (List.Sublist.refl _)
        · dsimp only
          rw [same]
          exact fun _ => stays
  | timedOut polling =>
      refine S.next S.frames ⟨calls, posted, T.still rfl rfl (List.Sublist.refl _)⟩ ?_ ?_ rfl (List.Sublist.refl _)
        (by simp) (by simp)
      · exact fun _ => registered (by simp [polling])
      · intro _ _ same
        cases same
  | @null call p passes t alloc fuel rc polling run code none =>
      have nothing := (code_of_returned T.run traced few' run code).symm.trans none
      have unread : receivedBy c [.recv c passes] = [] := by
        rw [receivedBy_singleton, Event.receivedBy, if_pos rfl, recv_messages run, nothing]
        rfl
      refine S.next S.frames ⟨_, posted, T.quiet (Run.nil.snoc (.recv run)) rfl unread rfl rfl (List.Sublist.refl _)⟩ ?_ ?_
        rfl (List.Sublist.refl _) (by simp) (by simp)
      · exact fun _ => step_readerId (.recv run) (registered (by simp [polling]))
      · intro _ _ same
        cases same
  | @took call p passes t alloc fuel rc m polling run code some =>
      exact S.took few polling run ((code_of_returned T.run traced few' run code).symm.trans some)
  | @died call p passes t alloc fuel polling run dies =>
      exact absurd (unregistered_of_died T.run traced few' run dies) (registered (by simp [polling]))

/-- A step of the servers or of another process, which the client is not in. -/
theorem Streamed.aside (S : Streamed U G mmap' c type conflate past w) (frames : FrameInvariant mmap' type w'.frames)
    (ring : ∃ calls posted, Ringed U G conflate c (past ++ [e]) w'.state w'.frames.sent calls posted)
    (kept : (w.state.handle c).readerId ≠ none → (w'.state.handle c).readerId ≠ none) (same : w'.pc = w.pc)
    (untaken : e.taken? = none) (grows : w.frames.sent.Sublist w'.frames.sent) (lives : e ≠ .died) :
    Streamed U G mmap' c type conflate (past ++ [e]) w' := by
  refine S.next frames ring ?_ ?_ untaken grows (same ▸ S.alive.1) lives
  · rw [same]
    exact fun up => kept (S.registered up)
  · rw [same]
    exact S.polls

theorem Streamed.step (S : Streamed U G mmap' c type conflate past w) (few : past.countP StreamEvent.wraps < 2 ^ 32)
    (step : StreamStep U G mmap mmap' c w e w') : Streamed U G mmap' c type conflate (past ++ [e]) w' := by
  obtain ⟨calls, posted, T⟩ := S.ring
  cases step with
  | @start s made serverId fd ps fresh accepted makes count other =>
      obtain ⟨silent, unread, unwrapped⟩ := openSockets_silent c ps
      refine S.aside (S.frames.step (.start fresh accepted makes)) ⟨_, posted, T.quiet (openSockets_run w.state ps)
        silent unread unwrapped rfl (List.Sublist.refl _)⟩ ?_ rfl rfl (List.Sublist.refl _) (by simp)
      exact run_readerId (openSockets_run (U := U) (G := G) w.state ps)
  | stop =>
      exact S.aside (S.frames.step (show FrameStep mmap mmap' _ _ _ from .stop))
        ⟨calls, posted, T.still rfl rfl (List.Sublist.refl _)⟩ id rfl rfl (List.Sublist.refl _) (by simp)
  | @send s s' idx b extra packet pad p q ret signalled runs got sends fits publisher accepted =>
      refine S.aside (S.frames.step (show FrameStep mmap mmap' _ _ _ from .send runs got sends)) ⟨_, _, T.send (.sent accepted)
        (f := ⟨s, b, extra, packet⟩) ⟨fits, pad, rfl⟩⟩ ?_ rfl rfl (List.sublist_append_left _ _) (by simp)
      exact step_readerId (U := U) (.sent accepted)
  | @refuse s s' idx b extra packet pad p runs got sends fits publisher refused =>
      exact S.aside (S.frames.step (show FrameStep mmap mmap' _ _ _ from .send runs got sends))
        ⟨calls, posted, T.still rfl rfl (List.sublist_append_left _ _)⟩ id rfl rfl (List.sublist_append_left _ _) (by simp)
  | abort =>
      exact S.aside (S.frames.step (show FrameStep mmap mmap' _ _ _ from .stop))
        ⟨calls, posted, T.still rfl rfl (List.Sublist.refl _)⟩ id rfl rfl (List.Sublist.refl _) (by simp)
  | @connect s ret client idle runs connects =>
      exact S.aside (S.frames.step (show FrameStep mmap mmap' _ _ _ from .connect runs connects))
        ⟨calls, posted, T.still rfl rfl (List.Sublist.refl _)⟩ id rfl rfl (List.Sublist.refl _) (by simp)
  | @connectNowhere peer ret client idle none connects =>
      exact S.aside (S.frames.step (show FrameStep mmap mmap' _ _ _ from .connectNowhere none connects))
        ⟨calls, posted, T.still rfl rfl (List.Sublist.refl _)⟩ id rfl rfl (List.Sublist.refl _) (by simp)
  | join absent =>
      refine S.next S.frames ⟨_, posted, T.quiet (Run.nil.snoc (.initSubscriber w.state c)) rfl rfl rfl rfl
        (List.Sublist.refl _)⟩ ?_ ?_ rfl (List.Sublist.refl _) (by simp) (by simp)
      · intro _
        rw [initSubscriber_readerId]
        exact Option.some_ne_none _
      · intro _ _ same
        cases same
  | client call alloc fuel outcome one => exact S.client few (clientStep_move one)
  | @elsewhere a t one other silent =>
      refine S.aside S.frames ⟨_, posted, T.quiet (Run.nil.snoc one) ?_ ?_ ?_ rfl (List.Sublist.refl _)⟩
        (step_readerId one) rfl rfl (List.Sublist.refl _) (by simp)
      · simp [silent]
      · simp [Event.receivedBy_other other]
      · cases a with
        | sent => cases silent
        | _ => rfl

theorem streamed_run (run : Run (StreamStep U G mmap mmap' c) (.start type conflate) past w)
    (few : past.countP StreamEvent.wraps < 2 ^ 32) : Streamed U G mmap' c type conflate past w := by
  induction run with
  | nil =>
      refine ⟨frameInvariant (show Run (FrameStep mmap mmap') _ [] _ from .nil), ⟨[], [], .nil, rfl, rfl, .nil, .slnil⟩,
        fun up => absurd rfl up, ?_, ?_,
        by simp [StreamWorld.start], by simp⟩
      · intro _ _ same
        cases same
      · intro k mem
        cases mem
  | snoc run one ih =>
      rw [streamWraps_append] at few
      exact (ih (by omega)).step (by omega) one

theorem packets_of_made {ms : List Bytes} {fs : List Frame} (made : List.Forall₂ MadeOf ms fs) :
    ms.map VisionIpcPacket.ofBytes = fs.map Frame.packet := by
  induction made with
  | nil => rfl
  | cons one rest ih =>
      obtain ⟨fits, pad, rfl⟩ := one
      rw [List.map_cons, List.map_cons, ih, VisionIpcPacket.ofBytes_bytes fits]

/-- Each packet is carried by any frame that was sent with it. -/
theorem carries_all {w : FrameWorld} {fs : List Frame} {ks : List Taking} (I : FrameInvariant mmap' type w)
    (sent : ∀ f ∈ fs, f ∈ w.sent) (known : ∀ k ∈ ks, ∃ f ∈ w.sent, Carries mmap' f k)
    (same : List.Forall₂ (fun k f => k.packet = f.packet) ks fs) : List.Forall₂ (Carries mmap') fs ks := by
  induction same with
  | nil => exact .nil
  | cons one rest ih =>
      obtain ⟨f, mem, carries⟩ := known _ List.mem_cons_self
      refine .cons (carries.congr I mem (sent _ List.mem_cons_self) one) (ih ?_ ?_)
      · exact fun f later => sent f (List.mem_cons_of_mem _ later)
      · exact fun k later => known k (List.mem_cons_of_mem _ later)

/-- What the client took off the queue, beside the frames it was sent for. -/
theorem Streamed.in_order (S : Streamed U G mmap' c type conflate past w)
    (few : past.countP StreamEvent.wraps < 2 ^ 32) :
    ∃ taken : List Frame, taken.Sublist w.frames.sent ∧ List.Forall₂ (Carries mmap') taken (takenOf past) := by
  obtain ⟨calls, posted, T⟩ := S.ring
  obtain ⟨taken, within, all⟩ := T.frames few
  refine ⟨taken, within, carries_all S.frames (fun f mem => within.subset mem) S.carried ?_⟩
  have same := T.received.symm.trans (packets_of_made all)
  rwa [← List.forall₂_eq_eq_eq, List.forall₂_map_left_iff, List.forall₂_map_right_iff] at same

/-- Frames arrive in the order they were sent, each at most once and each in the
buffer and with the data it was sent with, whatever servers came and went
meanwhile; a packet is dropped exactly by a client that does not hold the buffers
of the server that sent it, and no assertion of the client fails. -/
theorem frames_in_order (run : Run (StreamStep U G mmap mmap' c) (.start type conflate) past w)
    (few : past.countP StreamEvent.wraps < 2 ^ 32) :
    (∃ taken : List Frame, taken.Sublist w.frames.sent ∧ List.Forall₂ (Carries mmap') taken (takenOf past)) ∧
      .died ∉ past := by
  have S := streamed_run run few
  exact ⟨S.in_order few, fun died => S.alive.2 _ died rfl⟩

end streams

/-! Executing a stream. -/

instance (p : VisionIpcPacket) : Decidable p.Fits :=
  decidable_of_iff (p.serverId < 2 ^ 64 ∧ p.idx < 2 ^ 64 ∧ p.extra.frameId < 2 ^ 32 ∧ p.extra.timestampSof < 2 ^ 64 ∧
    p.extra.timestampEof < 2 ^ 64) ⟨fun h => ⟨h.1, h.2.1, h.2.2.1, h.2.2.2.1, h.2.2.2.2⟩,
    fun h => ⟨h.serverId, h.idx, h.frameId, h.timestampSof, h.timestampEof⟩⟩

instance (type : VisionStreamType) (calls : List CreateCall) (s : VisionIpcServer) : Decidable (MakesOnce type calls s) :=
  inferInstanceAs (Decidable (_ ∧ _))

def zeroPadding : Padding := ⟨List.replicate 4 0, List.replicate 7 0, rfl, rfl⟩

inductive StreamAction
  | start (serverId fd : Nat) (calls : List CreateCall) (ps : List Nat)
  | send (idx : Int) (extra : VisionIpcBufExtra)
  | connect
  | join
  | client (call : RecvCall)

/-- `get_buffer` and `send` of the running server. -/
def sendAct (G : Segment) (w : StreamWorld) (s : VisionIpcServer) (p : Nat) (idx : Int) (extra : VisionIpcBufExtra) :
    Option (StreamEvent × StreamWorld) :=
  (s.getBuffer w.frames.client.type idx).bind fun r =>
    (r.2.send r.1 extra).bind fun packet =>
      if packet.Fits then
        match msgSend G.size w.state.q (w.state.handle p) (packet.msg zeroPadding).data with
        | .sent q _ _ =>
            some (.sent packet (mustWrap G.size w.state.q (packet.msg zeroPadding).data.length),
              { w with
                frames := { w.frames with current := some r.2, sent := w.frames.sent ++ [⟨s, r.1, extra, packet⟩] }
                state := w.state.setQueue q })
        | .refused | .aborted => none
      else none

def streamAct (U : UidSource) (G : Segment) (mmap mmap' : Nat → Nat) (c fuel : Nat) (w : StreamWorld) :
    StreamAction → Option (StreamEvent × StreamWorld)
  | .start serverId fd calls ps => (createAll mmap (.new serverId fd) calls).bind fun s =>
      if (∀ s' ∈ w.frames.started, s'.serverId ≠ serverId) ∧ MakesOnce w.frames.client.type calls s ∧
          ps.length = (countsOf w.frames.client.type calls).length ∧ c ∉ ps then
        some (.started serverId,
          { w with
            frames := { w.frames with started := s :: w.frames.started, current := some s }
            state := openSockets U w.state ps
            publisher := ps.getLast? })
      else none
  | .send idx extra => w.frames.current.bind fun s => w.publisher.bind fun p => sendAct G w s p idx extra
  | .connect => w.frames.current.bind fun s => (w.frames.client.connectTo mmap' s).bind fun r =>
      match w.pc with
      | .idle => some (.connected r.1,
          { w with frames := { w.frames with client := r.2, source := some s.serverId } })
      | .absent | .polling _ _ | .died => none
  | .join =>
      match w.pc with
      | .absent => some (.joined, { w with state := initSubscriber U w.state c, pc := .idle })
      | .idle | .polling _ _ | .died => none
  | .client call => clientStep U G c call true fuel .finished w

section acts
variable {U : UidSource} {G : Segment} {mmap mmap' : Nat → Nat} {c fuel : Nat} {w w' : StreamWorld} {e : StreamEvent}

theorem sendAct_step {s : VisionIpcServer} {p : Nat} {idx : Int} {extra : VisionIpcBufExtra}
    (runs : w.frames.current = some s) (publisher : w.publisher = some p)
    (act : sendAct G w s p idx extra = some (e, w')) : StreamStep U G mmap mmap' c w e w' := by
  obtain ⟨⟨b, s'⟩, got, act⟩ := Option.bind_eq_some_iff.mp act
  obtain ⟨packet, sends, act⟩ := Option.bind_eq_some_iff.mp act
  dsimp only at act
  split_ifs at act with fits
  split at act
  · rename_i accepted
    cases act
    exact .send runs got sends fits publisher accepted
  · cases act
  · cases act

theorem streamAct_step {a : StreamAction} (act : streamAct U G mmap mmap' c fuel w a = some (e, w')) :
    StreamStep U G mmap mmap' c w e w' := by
  cases a with
  | start serverId fd calls ps =>
      obtain ⟨s, accepted, act⟩ := Option.bind_eq_some_iff.mp act
      split_ifs at act with ok
      obtain ⟨fresh, makes, count, other⟩ := ok
      cases act
      exact .start fresh accepted makes count other
  | send idx extra =>
      obtain ⟨s, runs, act⟩ := Option.bind_eq_some_iff.mp act
      obtain ⟨p, publisher, act⟩ := Option.bind_eq_some_iff.mp act
      exact sendAct_step runs publisher act
  | connect =>
      obtain ⟨s, runs, act⟩ := Option.bind_eq_some_iff.mp act
      obtain ⟨⟨ret, client⟩, connects, act⟩ := Option.bind_eq_some_iff.mp act
      split at act
      · rename_i idle
        cases act
        exact .connect idle runs connects
      · cases act
      · cases act
      · cases act
  | join =>
      rw [streamAct] at act
      split at act
      · rename_i absent
        cases act
        exact .join absent
      · cases act
      · cases act
      · cases act
  | client call => exact .client call true fuel .finished act

end acts

/-- Room for three packets. -/
def packetSegment : Segment := ⟨168, by decide⟩

def waitingCall : RecvCall := ⟨some ⟨0, 0, 0, false⟩, 100, Or.inr (by decide)⟩

/-- So many steps of the client. -/
def clientSteps (n : Nat) : List StreamAction := List.replicate n (.client waitingCall)

def oneBuffer : List CreateCall := [.createBuffersWithSizes 0 1 4 4 24 4 16]

/-- A second server evicts the client, which registers again in its next poll; the
frame sent then is dropped, the one behind a connect is not. -/
def restartedActions : List StreamAction :=
  [.start 7 3 oneBuffer [0], .join, .connect, .send 0 ⟨1, 10, 20, true⟩] ++ clientSteps 3 ++
    [.start 8 4 oneBuffer [2]] ++ clientSteps 2 ++ [.send (-1) ⟨2, 30, 40, false⟩] ++ clientSteps 3 ++
    [.connect, .send 0 ⟨3, 50, 60, true⟩] ++ clientSteps 3

def streamScript : List StreamAction → Option (List StreamEvent × StreamWorld) :=
  perform (streamAct countingUids packetSegment id id 1 4) (fun _ _ => True)
    (.start 0 fun _ => false)

theorem streamScript_shows (acts : List StreamAction) {p : List StreamEvent → StreamWorld → Prop}
    [∀ es w, Decidable (p es w)] (h : (streamScript acts).any (fun r => p r.1 r.2) = true) : ∃ past w,
      Run (StreamStep countingUids packetSegment id id 1) (.start 0 fun _ => false) past w ∧ p past w := by
  obtain ⟨⟨past, w⟩, ends, shows⟩ := (Option.any_eq_true _ _).mp h
  have run := performed ends fun _ _ _ _ => streamAct_step
  exact ⟨past, w, run.mono fun _ _ _ step => step.1, of_decide_eq_true shows⟩

theorem frames_in_order_restarted : ∃ (past : List StreamEvent) (w : StreamWorld),
    (takenOf past).map (fun k => (k.packet.extra.frameId, k.frame.isSome)) = [(1, true), (2, false), (3, true)] ∧
    (∃ taken : List Frame, taken.Sublist w.frames.sent ∧ List.Forall₂ (Carries id) taken (takenOf past)) ∧
      .died ∉ past := by
  obtain ⟨past, w, run, got, few⟩ := streamScript_shows restartedActions
    (p := fun past _ => (takenOf past).map (fun k => (k.packet.extra.frameId, k.frame.isSome)) =
      [(1, true), (2, false), (3, true)] ∧ past.countP StreamEvent.wraps < 2 ^ 32) (by decide +kernel)
  exact ⟨past, w, got, frames_in_order run few⟩

end Msgq
