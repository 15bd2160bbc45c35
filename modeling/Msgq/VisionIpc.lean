import Mathlib.Algebra.Group.Nat.Defs
import Mathlib.Data.List.AList
import Mathlib.Logic.Function.Basic

/-! Frames in shared memory. A server creates buffers and hands their descriptors
to a client over a socket; the frames it sends later are packets that name a
buffer by its index. -/
namespace Msgq

def VISIONIPC_MAX_FDS : Nat := 128

abbrev VisionStreamType := UInt32

/-- Reserved to request the list of available streams. -/
def VISION_STREAM_LIST : VisionStreamType := 0xffffffff

/-- Pointers are addresses in the process that holds the buffer. A descriptor
stands for the open file it refers to, which passing it over a socket keeps. -/
structure VisionBuf where
  len : Nat := 0
  mmapLen : Nat := 0
  addr : Nat := 0
  frameId : Nat := 0
  fd : Nat := 0
  width : Nat := 0
  height : Nat := 0
  stride : Nat := 0
  uvOffset : Nat := 0
  y : Nat := 0
  uv : Nat := 0
  serverId : Nat := 0
  idx : Nat := 0
  type : VisionStreamType := 0
  handle : Nat := 0
  deriving DecidableEq

/-- `sizeof(VisionBuf)` with 64-bit pointers. -/
def sizeofVisionBuf : Nat := 112

def sizeofVisionStreamType : Nat := 4

namespace VisionBuf

/-- `fd` is the file opened for the buffer, `mmap` where this process maps a file. -/
def allocate (mmap : Nat → Nat) (b : VisionBuf) (length fd : Nat) : VisionBuf :=
  { b with
    len := length
    mmapLen := (length + 8) % 2 ^ 64
    fd := fd
    addr := mmap fd
    frameId := mmap fd + length }

/-- The source's `import`. -/
def importFd (mmap : Nat → Nat) (b : VisionBuf) : VisionBuf :=
  { b with addr := mmap b.fd, frameId := mmap b.fd + b.len }

def initYuv (b : VisionBuf) (width height stride uvOffset : Nat) : VisionBuf :=
  { b with
    width := width
    height := height
    stride := stride
    uvOffset := uvOffset
    y := b.addr
    uv := b.addr + uvOffset }

end VisionBuf

structure VisionIpcBufExtra where
  frameId : Nat
  timestampSof : Nat
  timestampEof : Nat
  valid : Bool
  deriving DecidableEq

structure VisionIpcPacket where
  serverId : Nat
  idx : Nat
  extra : VisionIpcBufExtra
  deriving DecidableEq

/-! The server. -/

structure VisionIpcServer where
  serverId : Nat
  curIdx : VisionStreamType → Nat
  buffers : AList fun _ : VisionStreamType => List VisionBuf
  nextFd : Nat            -- the file opened next

namespace VisionIpcServer

def new (serverId fd : Nat) : VisionIpcServer := ⟨serverId, fun _ => 0, ∅, fd⟩

/-- The buffers of one stream; `operator[]` of a map makes a missing one empty. -/
def stream (s : VisionIpcServer) (type : VisionStreamType) : List VisionBuf :=
  (s.buffers.lookup type).getD []

def newBuffer (mmap : Nat → Nat) (type : VisionStreamType) (width height size stride uvOffset fd i : Nat) :
    VisionBuf :=
  let buf := VisionBuf.allocate mmap {} size fd
  let buf := { buf with idx := i, type := type }
  buf.initYuv width height stride uvOffset

/-- One turn of the creation loop. -/
def pushBuffer (mmap : Nat → Nat) (type : VisionStreamType) (width height size stride uvOffset : Nat)
    (s : VisionIpcServer) (i : Nat) : VisionIpcServer :=
  let buf := newBuffer mmap type width height size stride uvOffset s.nextFd i
  { s with buffers := s.buffers.insert type (s.stream type ++ [buf]), nextFd := s.nextFd + 1 }

def createBuffersWithSizes (mmap : Nat → Nat) (s : VisionIpcServer) (type : VisionStreamType)
    (numBuffers width height size stride uvOffset : Nat) : VisionIpcServer :=
  let s := (List.range numBuffers).foldl (pushBuffer mmap type width height size stride uvOffset) s
  { s with curIdx := Function.update s.curIdx type 0 }

/-- None when the assertion on the number of buffers fails. -/
def createBuffers (mmap : Nat → Nat) (s : VisionIpcServer) (type : VisionStreamType)
    (numBuffers width height : Nat) : Option VisionIpcServer :=
  if numBuffers < VISIONIPC_MAX_FDS then
    some (createBuffersWithSizes mmap s type numBuffers width height (width * height * 3 % 2 ^ 64 / 2) width
      (width * height % 2 ^ 64))
  else none

/-- None when an assertion fails. A negative index takes the next buffer in turn. -/
def getBuffer (s : VisionIpcServer) (type : VisionStreamType) (idx : Int) :
    Option (VisionBuf × VisionIpcServer) :=
  match s.buffers.lookup type with
  | none => none
  | some b =>
      if idx < 0 then
        (b[s.curIdx type % b.length]?).map fun buf =>
          (buf, { s with curIdx := Function.update s.curIdx type ((s.curIdx type + 1) % 2 ^ 64) })
      else
        (b[idx.toNat]?).map fun buf => (buf, { s with curIdx := Function.update s.curIdx type idx.toNat })

/-- The packet for a buffer; none when an assertion fails. -/
def send (s : VisionIpcServer) (buf : VisionBuf) (extra : VisionIpcBufExtra) : Option VisionIpcPacket :=
  match s.buffers.lookup buf.type with
  | none => none
  | some b => if buf.idx < b.length then some ⟨s.serverId, buf.idx, extra⟩ else none

end VisionIpcServer

/-- A call that creates buffers. -/
inductive CreateCall
  | createBuffers (type : VisionStreamType) (numBuffers width height : Nat)
  | createBuffersWithSizes (type : VisionStreamType) (numBuffers width height size stride uvOffset : Nat)

namespace CreateCall

def type : CreateCall → VisionStreamType
  | .createBuffers type _ _ _ | .createBuffersWithSizes type _ _ _ _ _ _ => type

def numBuffers : CreateCall → Nat
  | .createBuffers _ n _ _ | .createBuffersWithSizes _ n _ _ _ _ _ => n

def run (mmap : Nat → Nat) (s : VisionIpcServer) : CreateCall → Option VisionIpcServer
  | .createBuffers type n width height => s.createBuffers mmap type n width height
  | .createBuffersWithSizes type n width height size stride uvOffset =>
      some (s.createBuffersWithSizes mmap type n width height size stride uvOffset)

end CreateCall

/-- The calls one after the other; none when an assertion fails. -/
def createAll (mmap : Nat → Nat) : VisionIpcServer → List CreateCall → Option VisionIpcServer
  | s, [] => some s
  | s, c :: cs => (c.run mmap s).bind fun s => createAll mmap s cs

/-! The socket between the two. Message boundaries are kept. -/

inductive Payload
  | streams (ts : List VisionStreamType)
  | bufs (bs : List VisionBuf)

def Payload.bytes : Payload → Nat
  | .streams ts => sizeofVisionStreamType * ts.length
  | .bufs bs => sizeofVisionBuf * bs.length

structure Datagram where
  payload : Payload
  fds : List Nat

/-- How the listener treats one request. -/
inductive Reply
  | closed
  | overrun                   -- more buffers than its arrays hold
  | datagram (d : Datagram)

namespace VisionIpcServer

/-- What goes out for a buffer. -/
def exported (s : VisionIpcServer) (b : VisionBuf) : VisionBuf :=
  { b with handle := 0, serverId := s.serverId }

/-- One request; the connection is closed behind the reply. -/
def listener (s : VisionIpcServer) (type : VisionStreamType) : Reply :=
  if type = VISION_STREAM_LIST then .datagram ⟨.streams (s.buffers.keys.mergeSort (· ≤ ·)), []⟩
  else
    match s.buffers.lookup type with
    | none => .closed
    | some b =>
        if VISIONIPC_MAX_FDS < b.length then .overrun
        else .datagram ⟨.bufs (b.map s.exported), b.map VisionBuf.fd⟩

end VisionIpcServer

/-- `ipc_sendrecv_with_fds` on the receiving side: the bytes, what they are and
the descriptors. Nothing arrives when the peer has closed without sending; a
message that is cut short is flagged and gives `-1`. -/
def ipcRecvWithFds (bufSize numFds : Nat) : Option Datagram → Option (Nat × Option Payload × List Nat)
  | none => some (0, none, [])
  | some d =>
      if bufSize < d.payload.bytes ∨ numFds < d.fds.length then none
      else some (d.payload.bytes, some d.payload, d.fds)

/-! The client. -/

structure VisionIpcClient where
  type : VisionStreamType
  connected : Bool
  numBuffers : Nat
  buffers : Nat → VisionBuf

def VisionIpcClient.new (type : VisionStreamType) : VisionIpcClient := ⟨type, false, 0, fun _ => {}⟩

/-- What a connecting client meets. -/
inductive Peer
  | absent                              -- no socket to connect to
  | reset                               -- the server shut down: ECONNRESET
  | answers (d : Option Datagram)       -- a reply, or closed without one

def Reply.peer : Reply → Option Peer
  | .closed => some (.answers none)
  | .overrun => none
  | .datagram d => some (.answers (some d))

namespace VisionIpcClient

/-- The `i`-th buffer of a received message; what no message filled is zero. -/
def received (payload : Option Payload) (i : Nat) : VisionBuf :=
  match payload with
  | some (.bufs bs) => bs.getD i {}
  | some (.streams _) | none => {}

def importBuffer (mmap : Nat → Nat) (buf : VisionBuf) (fd : Nat) : VisionBuf :=
  let buf := { buf with fd := fd }
  let buf := buf.importFd mmap
  buf.initYuv buf.width buf.height buf.stride buf.uvOffset

/-- The client once its old buffers are freed. -/
def disconnected (c : VisionIpcClient) : VisionIpcClient := { c with connected := false, numBuffers := 0 }

/-- The client behind the import of all buffers. -/
def importBuffers (mmap : Nat → Nat) (c : VisionIpcClient) (payload : Option Payload) (fds : List Nat) :
    VisionIpcClient :=
  { c with
    numBuffers := fds.length
    buffers := fun i => if h : i < fds.length then importBuffer mmap (received payload i) fds[i] else c.buffers i
    connected := true }

/-- None when an assertion fails. -/
def connect (mmap : Nat → Nat) (c : VisionIpcClient) (peer : Peer) : Option (Bool × VisionIpcClient) :=
  match peer with
  | .absent | .reset => some (false, c.disconnected)
  | .answers d =>
      match ipcRecvWithFds (sizeofVisionBuf * VISIONIPC_MAX_FDS) VISIONIPC_MAX_FDS d with
      | none => none
      | some (r, payload, fds) =>
          if r = sizeofVisionBuf * fds.length then some (true, c.disconnected.importBuffers mmap payload fds) else none

/-- A receive that dequeues `packet`, or nothing: the index of the buffer it
returns, the frame data behind `extra` and the client. -/
def recv (c : VisionIpcClient) (packet : Option VisionIpcPacket) (extra : Option VisionIpcBufExtra) :
    Option Nat × Option VisionIpcBufExtra × VisionIpcClient :=
  match packet with
  | none => (none, extra, c)
  | some packet =>
      if c.numBuffers ≤ packet.idx then (none, extra, { c with connected := false })
      else if (c.buffers packet.idx).serverId ≠ packet.serverId then
        (none, extra, { c with connected := false })
      else (some packet.idx, extra.map fun _ => packet.extra, c)

end VisionIpcClient

end Msgq
