import Msgq.VisionIpc

/-! What a connected client knows. Success is told from byte and descriptor
counts alone, and a server that has no such stream closes the connection. -/
namespace Msgq

/-- The client holds the server's buffers of a stream, in order, with the
descriptors it was handed. -/
def Holds (mmap : Nat → Nat) (s : VisionIpcServer) (bufs : List VisionBuf) (c : VisionIpcClient) : Prop :=
  c.numBuffers = bufs.length ∧ ∀ i (h : i < bufs.length),
    c.buffers i = VisionIpcClient.importBuffer mmap (s.exported bufs[i]) bufs[i].fd

/-- A connect returns true exactly for a stream the server has, with its buffers
imported; otherwise the client is left unconnected and without buffers. -/
def Truthful (mmap : Nat → Nat) (s : VisionIpcServer) (type : VisionStreamType)
    (result : Option (Bool × VisionIpcClient)) : Prop :=
  ∃ ret c, result = some (ret, c) ∧ (ret = true ↔ (s.buffers.lookup type).isSome = true) ∧
    (∀ bufs, s.buffers.lookup type = some bufs → c.connected = true ∧ Holds mmap s bufs c) ∧
    (s.buffers.lookup type = none → c.connected = false ∧ c.numBuffers = 0)

/-- The connect of a client while the server stays up. -/
def VisionIpcClient.connectTo (mmap : Nat → Nat) (c : VisionIpcClient) (s : VisionIpcServer) :
    Option (Bool × VisionIpcClient) :=
  (s.listener c.type).peer.bind (c.connect mmap)

section connects
variable {mmap : Nat → Nat} {s : VisionIpcServer} {c : VisionIpcClient} {bufs : List VisionBuf}

/-- A buffer that was imported carries what the server's buffer did. -/
theorem importBuffer_exported (mmap : Nat → Nat) (s : VisionIpcServer) (b : VisionBuf) (fd : Nat) :
    VisionIpcClient.importBuffer mmap (s.exported b) fd =
      { b with
        handle := 0
        serverId := s.serverId
        fd := fd
        addr := mmap fd
        frameId := mmap fd + b.len
        y := mmap fd
        uv := mmap fd + b.uvOffset } := rfl

theorem listener_stream (ne : type ≠ VISION_STREAM_LIST) (has : s.buffers.lookup type = some bufs)
    (few : bufs.length ≤ VISIONIPC_MAX_FDS) :
    s.listener type = .datagram ⟨.bufs (bufs.map s.exported), bufs.map VisionBuf.fd⟩ := by
  rw [VisionIpcServer.listener, if_neg ne, has]
  exact if_neg few.not_gt

/-- A stream the server has, is imported. -/
theorem connectTo_stream (mmap : Nat → Nat) (ne : c.type ≠ VISION_STREAM_LIST) (has : s.buffers.lookup c.type = some bufs)
    (few : bufs.length ≤ VISIONIPC_MAX_FDS) : ∃ c', c.connectTo mmap s = some (true, c') ∧
      c'.type = c.type ∧ c'.connected = true ∧ Holds mmap s bufs c' := by
  have bytes : (Payload.bufs (bufs.map s.exported)).bytes = sizeofVisionBuf * (bufs.map VisionBuf.fd).length := by
    rw [Payload.bytes, List.length_map, List.length_map]
  have fits : ¬ (sizeofVisionBuf * VISIONIPC_MAX_FDS < (Payload.bufs (bufs.map s.exported)).bytes ∨
      VISIONIPC_MAX_FDS < (bufs.map VisionBuf.fd).length) := by
    rw [bytes, List.length_map]
    rintro (long | long)
    · exact absurd (Nat.mul_le_mul_left sizeofVisionBuf few) long.not_ge
    · exact absurd few long.not_ge
  have arrives : ipcRecvWithFds (sizeofVisionBuf * VISIONIPC_MAX_FDS) VISIONIPC_MAX_FDS
      (some ⟨.bufs (bufs.map s.exported), bufs.map VisionBuf.fd⟩) =
      some (sizeofVisionBuf * (bufs.map VisionBuf.fd).length, some (.bufs (bufs.map s.exported)),
        bufs.map VisionBuf.fd) := by
    rw [ipcRecvWithFds, if_neg fits, bytes]
  rw [VisionIpcClient.connectTo, listener_stream ne has few]
  simp only [Reply.peer, Option.bind_some, VisionIpcClient.connect, arrives, if_true]
  refine ⟨_, rfl, rfl, rfl, ?_, ?_⟩
  · exact List.length_map ..
  · intro i h
    simp [VisionIpcClient.importBuffers, VisionIpcClient.received, h]

/-- A stream the server does not have: the connect succeeds without buffers. -/
theorem connectTo_missing (mmap : Nat → Nat) (ne : c.type ≠ VISION_STREAM_LIST) (missing : s.buffers.lookup c.type = none) :
    ∃ c', c.connectTo mmap s = some (true, c') ∧ c'.type = c.type ∧ c'.connected = true ∧ c'.numBuffers = 0 := by
  refine ⟨c.disconnected.importBuffers mmap none [], ?_, rfl, rfl, rfl⟩
  simp [VisionIpcClient.connectTo, VisionIpcServer.listener, ne, missing, Reply.peer, VisionIpcClient.connect,
    ipcRecvWithFds]

/-- Connect tells the truth exactly about the streams a server has. -/
theorem connect_truthful_iff (ne : c.type ≠ VISION_STREAM_LIST)
    (few : ∀ bufs, s.buffers.lookup c.type = some bufs → bufs.length < VISIONIPC_MAX_FDS) :
    Truthful mmap s c.type (c.connectTo mmap s) ↔ (s.buffers.lookup c.type).isSome = true := by
  cases has : s.buffers.lookup c.type with
  | none =>
      obtain ⟨c', result, -⟩ := connectTo_missing mmap ne has
      constructor
      · rintro ⟨ret, c'', same, truth, _⟩
        rw [result] at same
        cases same
        rw [← has]
        exact truth.mp rfl
      · intro some_stream
        cases some_stream
  | some bufs =>
      obtain ⟨c', result, -, connected, holds⟩ := connectTo_stream mmap ne has (Nat.le_of_lt (few _ has))
      refine ⟨fun _ => rfl, fun _ => ⟨true, c', result, ?_, ?_, ?_⟩⟩
      · simp [has]
      · intro bufs' has'
        rw [has] at has'
        cases has'
        exact ⟨connected, holds⟩
      · intro missing
        rw [has] at missing
        cases missing

end connects

/-- A server with two buffers in stream 0. -/
def onlyStreamZero : Option VisionIpcServer := createAll id (.new 7 3) [.createBuffers 0 2 4 4]

theorem connect_truthful_iff_zero : ∃ s, onlyStreamZero = some s ∧
    (Truthful id s 0 ((VisionIpcClient.new 0).connectTo id s) ↔ (s.buffers.lookup 0).isSome = true) ∧
    (s.buffers.lookup 0).isSome = true := by
  refine ⟨_, rfl, connect_truthful_iff (c := .new 0) (by decide) ?_, rfl⟩
  intro bufs has
  cases has
  decide

/-- A new client asks for stream 1: the server closes the connection, and connect
returns true with no buffers. -/
theorem missing_stream_connects : ∃ s, onlyStreamZero = some s ∧ s.buffers.lookup 1 = none ∧
    (((VisionIpcClient.new 1).connectTo id s).map fun r => (r.1, r.2.connected, r.2.numBuffers)) =
      some (true, true, 0) ∧
    ¬ Truthful id s 1 ((VisionIpcClient.new 1).connectTo id s) := by
  refine ⟨_, rfl, rfl, rfl, ?_⟩
  rintro ⟨ret, c, same, truth, _⟩
  cases same
  cases truth.mp rfl

end Msgq
