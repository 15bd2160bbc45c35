import Msgq.Indexing
import Msgq.Traces

/-! Frames across server restarts. Packets travel over a queue that outlives the
servers, the buffers over a socket of one server; the server id in both tells
whether they belong together. -/
namespace Msgq
open Traces

/-- A packet with what it stands for: the buffer its server sent. -/
structure Frame where
  server : VisionIpcServer
  buf : VisionBuf
  extra : VisionIpcBufExtra
  packet : VisionIpcPacket

/-- The servers started so far, the one that runs, all frames ever sent, and the
client with the id of the server whose buffers it was handed last. -/
structure FrameWorld where
  started : List VisionIpcServer
  current : Option VisionIpcServer
  sent : List Frame
  client : VisionIpcClient
  source : Option Nat

inductive FrameEvent
  | started (serverId : Nat)
  | stopped
  | sent (p : VisionIpcPacket)
  | connected (ret : Bool)
  | received (p : Option VisionIpcPacket) (buffer : Option Nat)

/-- The creating calls make the stream once, with at most 127 buffers. -/
def MakesOnce (type : VisionStreamType) (calls : List CreateCall) (s : VisionIpcServer) : Prop :=
  ((countsOf type calls).filter (0 < ·)).length ≤ 1 ∧ (s.stream type).length < VISIONIPC_MAX_FDS

/-- A connection that leads to no buffers: nobody is there, the server shuts
down, or it closes the connection without a reply. -/
def Fruitless : Peer → Prop
  | .absent | .reset | .answers none => True
  | .answers (some _) => False

/-- One step of the servers or of the client. A server may also start where
another one was killed; the queue may deliver whatever was sent, in any order and
any number of times. -/
inductive FrameStep (mmap mmap' : Nat → Nat) : FrameWorld → FrameEvent → FrameWorld → Prop
  | start {w s calls serverId fd} : (∀ s' ∈ w.started, s'.serverId ≠ serverId) →
      createAll mmap (.new serverId fd) calls = some s → MakesOnce w.client.type calls s →
      FrameStep mmap mmap' w (.started serverId) { w with started := s :: w.started, current := some s }
  | stop {w} : FrameStep mmap mmap' w .stopped { w with current := none }
  | send {w s s' idx b extra packet} : w.current = some s → s.getBuffer w.client.type idx = some (b, s') →
      s'.send b extra = some packet → FrameStep mmap mmap' w (.sent packet)
        { w with current := some s', sent := w.sent ++ [⟨s, b, extra, packet⟩] }
  | connect {w s ret c'} : w.current = some s → w.client.connectTo mmap' s = some (ret, c') →
      FrameStep mmap mmap' w (.connected ret) { w with client := c', source := some s.serverId }
  | connectNowhere {w peer ret c'} : Fruitless peer → w.client.connect mmap' peer = some (ret, c') →
      FrameStep mmap mmap' w (.connected ret) { w with client := c', source := none }
  | recv {w f x} : f ∈ w.sent →
      FrameStep mmap mmap' w (.received f.packet (w.client.recv (some f.packet) x).1)
        { w with client := (w.client.recv (some f.packet) x).2.2 }
  | recvNothing {w} : FrameStep mmap mmap' w (.received none none) w

/-- Before any server was started. -/
def FrameWorld.start (type : VisionStreamType) : FrameWorld := ⟨[], none, [], .new type, none⟩

/-- The same instance: the counters of a server move, the buffers stay. -/
def SameInstance (s s' : VisionIpcServer) : Prop := s.serverId = s'.serverId ∧ s.buffers = s'.buffers

/-- A frame names the buffer that was sent by its place in the stream. -/
def Frame.Sound (type : VisionStreamType) (servers : List VisionIpcServer) (f : Frame) : Prop :=
  (∃ s ∈ servers, SameInstance f.server s) ∧ f.packet = ⟨f.server.serverId, f.buf.idx, f.extra⟩ ∧
    ∃ bufs, f.server.buffers.lookup type = some bufs ∧ bufs[f.buf.idx]? = some f.buf

structure FrameInvariant (mmap' : Nat → Nat) (type : VisionStreamType) (w : FrameWorld) : Prop where
  sameType : w.client.type = type
  distinct : (w.started.map VisionIpcServer.serverId).Nodup
  created : ∀ s ∈ w.started, ∃ ns, Created ns s ∧ ((ns type).filter (0 < ·)).length ≤ 1 ∧
    (s.stream type).length < VISIONIPC_MAX_FDS
  running : ∀ s, w.current = some s → ∃ s' ∈ w.started, SameInstance s s'
  frames : ∀ f ∈ w.sent, f.Sound type w.started
  holds : w.client.numBuffers = 0 ∨ ∃ s ∈ w.started, ∃ bufs, s.buffers.lookup type = some bufs ∧
    Holds mmap' s bufs w.client ∧ w.source = some s.serverId

section frames
variable {mmap mmap' : Nat → Nat} {type : VisionStreamType} {w w' : FrameWorld} {e : FrameEvent}
  {past : List FrameEvent}

/-- A receive changes at most the connected flag. -/
theorem recv_client (c : VisionIpcClient) (packet : Option VisionIpcPacket) (x : Option VisionIpcBufExtra) :
    (c.recv packet x).2.2.type = c.type ∧ (c.recv packet x).2.2.numBuffers = c.numBuffers ∧
      (c.recv packet x).2.2.buffers = c.buffers := by
  cases packet with
  | none => exact ⟨rfl, rfl, rfl⟩
  | some packet =>
      rw [VisionIpcClient.recv]
      split_ifs <;> exact ⟨rfl, rfl, rfl⟩

/-- The client counts the descriptors it was handed. -/
theorem connect_answers {c c' : VisionIpcClient} {d : Option Datagram} {ret : Bool}
    (connects : c.connect mmap' (.answers d) = some (ret, c')) :
    c'.type = c.type ∧ c'.numBuffers = ((d.map Datagram.fds).getD []).length := by
  rw [VisionIpcClient.connect] at connects
  cases arrives : ipcRecvWithFds (sizeofVisionBuf * VISIONIPC_MAX_FDS) VISIONIPC_MAX_FDS d with
  | none =>
      rw [arrives] at connects
      cases connects
  | some r =>
      rw [arrives] at connects
      dsimp only at connects
      split_ifs at connects
      cases connects
      refine ⟨rfl, ?_⟩
      cases d with
      | none => cases arrives; rfl
      | some d =>
          rw [ipcRecvWithFds] at arrives
          split_ifs at arrives
          cases arrives
          rfl

theorem connect_fruitless {c c' : VisionIpcClient} {peer : Peer} {ret : Bool} (none : Fruitless peer)
    (connects : c.connect mmap' peer = some (ret, c')) : c'.type = c.type ∧ c'.numBuffers = 0 := by
  cases peer with
  | absent | reset => cases connects; exact ⟨rfl, rfl⟩
  | answers d =>
      cases d with
      | some d => cases none
      | none => exact connect_answers connects

/-- Whatever the server answers, the client holds its buffers of the stream or none. -/
theorem connectTo_holds {c c' : VisionIpcClient} {s : VisionIpcServer} {ret : Bool}
    (connects : c.connectTo mmap' s = some (ret, c')) (few : (s.stream c.type).length < VISIONIPC_MAX_FDS) :
    c'.type = c.type ∧ (c'.numBuffers = 0 ∨
      ∃ bufs, s.buffers.lookup c.type = some bufs ∧ Holds mmap' s bufs c') := by
  by_cases reserved : c.type = VISION_STREAM_LIST
  · rw [VisionIpcClient.connectTo, VisionIpcServer.listener, if_pos reserved] at connects
    obtain ⟨type, count⟩ := connect_answers connects
    exact ⟨type, Or.inl count⟩
  · cases has : s.buffers.lookup c.type with
    | none =>
        obtain ⟨c'', connects', type, -, count⟩ := connectTo_missing mmap' reserved has
        rw [connects] at connects'
        cases connects'
        exact ⟨type, Or.inl count⟩
    | some bufs =>
        rw [stream_of_lookup has] at few
        obtain ⟨c'', connects', type, -, holds⟩ := connectTo_stream mmap' reserved has (Nat.le_of_lt few)
        rw [connects] at connects'
        cases connects'
        exact ⟨type, Or.inr ⟨bufs, rfl, holds⟩⟩

theorem SameInstance.trans {a b c : VisionIpcServer} (x : SameInstance a b) (y : SameInstance b c) :
    SameInstance a c := ⟨x.1.trans y.1, x.2.trans y.2⟩

theorem Frame.Sound.more {servers : List VisionIpcServer} {f : Frame} (sound : f.Sound type servers)
    (s : VisionIpcServer) : f.Sound type (s :: servers) := by
  obtain ⟨⟨s', mem, same⟩, rest⟩ := sound
  exact ⟨⟨s', List.mem_cons_of_mem s mem, same⟩, rest⟩

/-- A buffer that a server with a stream made once sends is at the place it names. -/
theorem sent_sound {s s₀ s' : VisionIpcServer} {servers : List VisionIpcServer} {ns : VisionStreamType → List Nat}
    {idx : Int} {b : VisionBuf} {extra : VisionIpcBufExtra} {packet : VisionIpcPacket} (mem : s₀ ∈ servers)
    (same : SameInstance s s₀) (k : Created ns s₀) (once : ((ns type).filter (0 < ·)).length ≤ 1)
    (got : s.getBuffer type idx = some (b, s')) (sends : s'.send b extra = some packet) :
    SameInstance s' s ∧ Frame.Sound type servers ⟨s, b, extra, packet⟩ := by
  cases has : s.buffers.lookup type with
  | none =>
      rw [VisionIpcServer.getBuffer, has] at got
      cases got
  | some bufs =>
      obtain ⟨⟨i, h, rfl⟩, buffers, id⟩ := getBuffer_place has got
      have has₀ : s₀.buffers.lookup type = some bufs := same.2 ▸ has
      have index := (numbered_iff k has₀).mpr once i h
      refine ⟨⟨id, buffers⟩, ⟨s₀, mem, same⟩, ?_, bufs, has, ?_⟩
      · rw [VisionIpcServer.send] at sends
        split at sends
        · cases sends
        · split_ifs at sends
          cases sends
          rw [id]
      · dsimp only
        rw [index]
        exact List.getElem?_eq_getElem h

theorem FrameInvariant.step (I : FrameInvariant mmap' type w) (step : FrameStep mmap mmap' w e w') :
    FrameInvariant mmap' type w' := by
  cases step with
  | start fresh accepted makes =>
      rename_i s calls serverId fd
      have id : s.serverId = serverId := createAll_serverId accepted
      refine ⟨I.sameType, ?_, ?_, ?_, fun f mem => (I.frames f mem).more s, ?_⟩
      · rw [List.map_cons, List.nodup_cons]
        refine ⟨fun taken => ?_, I.distinct⟩
        obtain ⟨s', mem, same⟩ := List.mem_map.mp taken
        exact fresh s' mem (same.trans id)
      · intro s' mem
        rcases List.mem_cons.mp mem with rfl | mem
        · rw [I.sameType] at makes
          exact ⟨_, created_all accepted, makes⟩
        · exact I.created s' mem
      · intro s' same
        cases same
        exact ⟨s, List.mem_cons_self, rfl, rfl⟩
      · rcases I.holds with none | ⟨s', mem, rest⟩
        · exact Or.inl none
        · exact Or.inr ⟨s', List.mem_cons_of_mem s mem, rest⟩
  | stop => exact ⟨I.sameType, I.distinct, I.created, by simp, I.frames, I.holds⟩
  | send runs got sends =>
      obtain ⟨s₀, mem, same⟩ := I.running _ runs
      obtain ⟨ns, k, once, -⟩ := I.created s₀ mem
      rw [I.sameType] at got
      obtain ⟨still, sound⟩ := sent_sound mem same k once got sends
      refine ⟨I.sameType, I.distinct, I.created, ?_, ?_, I.holds⟩
      · intro s' same'
        cases same'
        exact ⟨s₀, mem, still.trans same⟩
      · intro f mem'
        rcases List.mem_append.mp mem' with before | last
        · exact I.frames f before
        · rw [List.mem_singleton.mp last]
          exact sound
  | connect runs connects =>
      rename_i s ret c'
      obtain ⟨s₀, mem, id, buffers⟩ := I.running _ runs
      obtain ⟨ns, k, once, few⟩ := I.created s₀ mem
      have few' : (s.stream w.client.type).length < VISIONIPC_MAX_FDS := by
        rw [I.sameType, VisionIpcServer.stream, buffers]
        exact few
      obtain ⟨sameType, holds⟩ := connectTo_holds connects few'
      refine ⟨sameType.trans I.sameType, I.distinct, I.created, I.running, I.frames, ?_⟩
      rcases holds with none | ⟨bufs, has, holds⟩
      · exact Or.inl none
      · rw [I.sameType, buffers] at has
        refine Or.inr ⟨s₀, mem, bufs, has, ?_, congrArg some id⟩
        refine ⟨holds.1, fun i h => ?_⟩
        rw [holds.2 i h, VisionIpcServer.exported, VisionIpcServer.exported, id]
  | connectNowhere none connects =>
      obtain ⟨sameType, count⟩ := connect_fruitless none connects
      exact ⟨sameType.trans I.sameType, I.distinct, I.created, I.running, I.frames, Or.inl count⟩
  | recv mem =>
      rename_i f x
      obtain ⟨sameType, count, buffers⟩ := recv_client w.client (some f.packet) x
      refine ⟨sameType.trans I.sameType, I.distinct, I.created, I.running, I.frames, ?_⟩
      rcases I.holds with none | ⟨s, mem, bufs, has, holds, source⟩
      · exact Or.inl (count.trans none)
      · refine Or.inr ⟨s, mem, bufs, has, ⟨count.trans holds.1, fun i h => ?_⟩, source⟩
        rw [← holds.2 i h, ← buffers]
  | recvNothing => exact I

/-! Runs. -/

theorem frameInvariant (run : Run (FrameStep mmap mmap') (.start type) past w) :
    FrameInvariant mmap' type w := by
  refine run.invariant (I := fun _ w => FrameInvariant mmap' type w) ?_ ?_
  · exact ⟨rfl, List.nodup_nil, by simp [FrameWorld.start], by simp [FrameWorld.start], by simp [FrameWorld.start], Or.inl rfl⟩
  · intro past w e w' _ I step
    exact I.step step

/-- Instances that share an id are the same. -/
theorem FrameInvariant.instance_unique {s s' : VisionIpcServer} (I : FrameInvariant mmap' type w)
    (mem : s ∈ w.started) (mem' : s' ∈ w.started) (same : s.serverId = s'.serverId) : s = s' :=
  List.inj_on_of_nodup_map I.distinct mem mem' same

/-- An entry in use of the server a frame came from is the buffer of the frame. -/
theorem FrameInvariant.entry (I : FrameInvariant mmap' type w) {f : Frame} (mem : f ∈ w.sent)
    (used : f.buf.idx < w.client.numBuffers) (source : (w.client.buffers f.buf.idx).serverId = f.server.serverId) :
    w.client.buffers f.buf.idx = VisionIpcClient.importBuffer mmap' (f.server.exported f.buf) f.buf.fd := by
  obtain ⟨⟨s₀, mem₀, id, buffers⟩, -, bufs, has, place⟩ := I.frames f mem
  obtain ⟨s, mem', bufs', has', holds, -⟩ := I.holds.resolve_left (by omega)
  have at_index := holds.2 f.buf.idx (holds.1 ▸ used)
  have same : s.serverId = f.server.serverId := by
    rw [at_index] at source
    exact source
  obtain rfl := I.instance_unique mem' mem₀ (same.trans id)
  rw [buffers, has'] at has
  cases has
  obtain ⟨h, here⟩ := List.getElem?_eq_some_iff.mp place
  rw [at_index, here, VisionIpcServer.exported, VisionIpcServer.exported, same]

/-- Frame identity: a receive that returns a buffer returns the one imported from
the very buffer that was sent, with the frame data of that send; a packet of
another instance, or with an index out of range, is dropped. -/
theorem frame_identity (run : Run (FrameStep mmap mmap') (.start type) past w) {f : Frame} (mem : f ∈ w.sent)
    (x : Option VisionIpcBufExtra) :
    (∀ i, (w.client.recv (some f.packet) x).1 = some i → i = f.buf.idx ∧
      w.client.buffers i = VisionIpcClient.importBuffer mmap' (f.server.exported f.buf) f.buf.fd ∧
      w.client.recv (some f.packet) x = (some i, x.map fun _ => f.extra, w.client)) ∧
    (w.source ≠ some f.server.serverId ∨ w.client.numBuffers ≤ f.packet.idx →
      w.client.recv (some f.packet) x = (none, x, { w.client with connected := false })) := by
  have I := frameInvariant run
  rw [(I.frames f mem).2.1]
  constructor
  · intro i got
    obtain ⟨rfl, inside⟩ := recv_index got
    have source : (w.client.buffers f.buf.idx).serverId = f.server.serverId := by
      rw [VisionIpcClient.recv] at got
      split_ifs at got with outside differ
      exact not_not.mp differ
    refine ⟨rfl, I.entry mem inside source, ?_⟩
    rw [VisionIpcClient.recv]
    exact (if_neg (not_le.mpr inside)).trans (if_neg (not_not.mpr source))
  · intro foreign
    rw [VisionIpcClient.recv]
    dsimp only
    by_cases outside : w.client.numBuffers ≤ f.buf.idx
    · rw [if_pos outside]
    · rw [if_neg outside, if_pos]
      rcases I.holds with none | ⟨s, mem', bufs', has', holds, source⟩
      · omega
      intro same
      rw [holds.2 f.buf.idx (by rw [← holds.1]; omega)] at same
      rcases foreign with other | far
      · exact other (source.trans (congrArg some same))
      · exact outside far

end frames

/-- A frame of one server meets the buffers of the next. -/
theorem frame_identity_restarted : ∃ past w f, Run (FrameStep id id) (.start 0) past w ∧ f ∈ w.sent ∧
    w.source ≠ some f.server.serverId ∧ ∀ x,
    (∀ i, (w.client.recv (some f.packet) x).1 = some i → i = f.buf.idx ∧
      w.client.buffers i = VisionIpcClient.importBuffer id (f.server.exported f.buf) f.buf.fd ∧
      w.client.recv (some f.packet) x = (some i, x.map fun _ => f.extra, w.client)) ∧
    (w.source ≠ some f.server.serverId ∨ w.client.numBuffers ≤ f.packet.idx →
      w.client.recv (some f.packet) x = (none, x, { w.client with connected := false })) := by
  have first : Run (FrameStep id id) (.start 0) _ _ := Run.nil.snoc
    (@FrameStep.start id id _ _ [.createBuffers 0 2 4 4] 7 3 (by simp [FrameWorld.start]) rfl ⟨by decide, by decide⟩)
  have connected := first.snoc (.connect rfl rfl)
  have sent := connected.snoc (@FrameStep.send id id _ _ _ 1 _ ⟨5, 0, 0, true⟩ _ rfl rfl rfl)
  have second := sent.snoc
    (@FrameStep.start id id _ _ [.createBuffers 0 2 4 4] 8 3 (by simp; decide) rfl ⟨by decide, by decide⟩)
  have reconnected := second.snoc (.connect rfl rfl)
  exact ⟨_, _, _, reconnected, List.mem_singleton_self _, by decide,
    frame_identity reconnected (List.mem_singleton_self _)⟩

end Msgq
