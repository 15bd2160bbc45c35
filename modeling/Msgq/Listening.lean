import Mathlib.Algebra.GroupWithZero.Nat
import Mathlib.Data.Finset.Card
import Mathlib.Data.Finset.Dedup
import Msgq.Indexing

/-! What fits the arrays of a connection. The listener fills one buffer and one
descriptor for every buffer of a stream, or lists every stream; the client takes
either reply in arrays of fixed length. -/
namespace Msgq

def VISIONIPC_MAX_STREAMS : Nat := 64

def ECONNRESET : Nat := 104

namespace VisionIpcServer

/-- The indices of `fds` and `bufs` that the listener writes for a request. -/
def filled (s : VisionIpcServer) (type : VisionStreamType) : List Nat :=
  if type = VISION_STREAM_LIST then []
  else
    match s.buffers.lookup type with
    | none => []
    | some b => List.range b.length

/-- The bytes and the descriptors of the reply to a request. -/
def replySize (s : VisionIpcServer) (type : VisionStreamType) : Nat × Nat :=
  if type = VISION_STREAM_LIST then (sizeofVisionStreamType * s.buffers.keys.length, 0)
  else
    match s.buffers.lookup type with
    | none => (0, 0)
    | some b => (sizeofVisionBuf * b.length, b.length)

end VisionIpcServer

/-- The listener writes inside its arrays, and the reply fits those of `connect`. -/
def ReplyFits (s : VisionIpcServer) (type : VisionStreamType) : Prop :=
  (∀ i ∈ s.filled type, i < VISIONIPC_MAX_FDS) ∧
    (s.replySize type).1 ≤ sizeofVisionBuf * VISIONIPC_MAX_FDS ∧ (s.replySize type).2 ≤ VISIONIPC_MAX_FDS

/-- `available_streams[0 .. n]` behind a receive; what no message filled is zero. -/
def availableStreams (payload : Option Payload) (n : Nat) : List VisionStreamType :=
  (List.range n).map fun i =>
    match payload with
    | some (.streams ts) => ts.getD i 0
    | some (.bufs _) | none => 0

/-- None when an assertion fails. A truncated reply is an error that leaves `errno`
as it was. -/
def VisionIpcClient.getAvailableStreams (errno : Nat) : Peer → Option (Finset VisionStreamType)
  | .absent | .reset => some ∅
  | .answers d =>
      match ipcRecvWithFds (sizeofVisionStreamType * VISIONIPC_MAX_STREAMS) 0 d with
      | none => if errno = ECONNRESET then some ∅ else none
      | some (r, payload, _) =>
          if r % sizeofVisionStreamType = 0 then
            some (availableStreams payload (r / sizeofVisionStreamType)).toFinset
          else none

/-- The streams that the calls put at least one buffer in. -/
def createdStreams (calls : List CreateCall) : Finset VisionStreamType :=
  ((calls.filter fun c => 0 < c.numBuffers).map CreateCall.type).toFinset

section created
variable {mmap : Nat → Nat} {serverId fd : Nat} {calls : List CreateCall} {s : VisionIpcServer}
  {type : VisionStreamType} {bufs : List VisionBuf}

theorem Created.length {ns : VisionStreamType → List Nat} (k : Created ns s) (type : VisionStreamType) :
    (s.stream type).length = (ns type).sum := by
  have numbers := congrArg List.length (k.numbers type)
  rw [List.length_map, List.length_flatMap] at numbers
  simpa using numbers

theorem Created.missing {ns : VisionStreamType → List Nat} (k : Created ns s) :
    s.buffers.lookup type = none ↔ (ns type).sum = 0 := by
  rw [← k.length type, List.length_eq_zero_iff]
  cases has : s.buffers.lookup type with
  | none => simp [VisionIpcServer.stream, has]
  | some bufs =>
      rw [stream_of_lookup has]
      simpa using k.nonempty type bufs has

theorem mem_createdStreams : type ∈ createdStreams calls ↔ ∃ n ∈ countsOf type calls, n ≠ 0 := by
  simp only [createdStreams, countsOf, List.mem_toFinset, List.mem_map, List.mem_filter, decide_eq_true_iff]
  constructor
  · rintro ⟨c, ⟨mem, some_buffer⟩, rfl⟩
    exact ⟨c.numBuffers, ⟨c, ⟨mem, rfl⟩, rfl⟩, some_buffer.ne'⟩
  · rintro ⟨n, ⟨c, ⟨mem, rfl⟩, rfl⟩, some_buffer⟩
    exact ⟨c, ⟨mem, Nat.pos_of_ne_zero some_buffer⟩, rfl⟩

/-- The keys of the map are the created streams. -/
theorem keys_created (accepted : createAll mmap (.new serverId fd) calls = some s) :
    s.buffers.keys.toFinset = createdStreams calls := by
  ext type
  rw [List.mem_toFinset, ← AList.mem_keys, ← not_iff_not, ← AList.lookup_eq_none, (created_all accepted).missing,
    List.sum_eq_zero_iff_forall_eq_nat, mem_createdStreams]
  simp only [not_exists, not_and, not_not]

theorem keys_length (accepted : createAll mmap (.new serverId fd) calls = some s) :
    s.buffers.keys.length = (createdStreams calls).card := by
  rw [← keys_created accepted]
  exact (List.toFinset_card_of_nodup s.buffers.nodupKeys).symm

theorem filled_stream (unreserved : type ≠ VISION_STREAM_LIST) :
    s.filled type = List.range (s.stream type).length := by
  rw [VisionIpcServer.filled, if_neg unreserved, VisionIpcServer.stream]
  cases s.buffers.lookup type <;> rfl

theorem replySize_stream (unreserved : type ≠ VISION_STREAM_LIST) :
    s.replySize type = (sizeofVisionBuf * (s.stream type).length, (s.stream type).length) := by
  rw [VisionIpcServer.replySize, if_neg unreserved, VisionIpcServer.stream]
  cases s.buffers.lookup type <;> rfl

end created

/-- A request is answered inside all arrays exactly where the calls for its stream
made at most 128 buffers; the reserved id asks for the list of streams. -/
theorem reply_in_bounds_iff {mmap : Nat → Nat} {serverId fd : Nat} {calls : List CreateCall} {s : VisionIpcServer}
    (accepted : createAll mmap (.new serverId fd) calls = some s) (type : VisionStreamType) :
    ReplyFits s type ↔
      if type = VISION_STREAM_LIST then
        sizeofVisionStreamType * (createdStreams calls).card ≤ sizeofVisionBuf * VISIONIPC_MAX_FDS
      else (countsOf type calls).sum ≤ VISIONIPC_MAX_FDS := by
  rw [ReplyFits]
  split_ifs with reserved
  · rw [VisionIpcServer.filled, VisionIpcServer.replySize, if_pos reserved, if_pos reserved, keys_length accepted]
    simp
  · rw [filled_stream reserved, replySize_stream reserved, (created_all accepted).length type]
    constructor
    · rintro ⟨-, -, few⟩
      exact few
    · intro few
      refine ⟨fun i mem => Nat.lt_of_lt_of_le (List.mem_range.mp mem) few, ?_, few⟩
      exact Nat.mul_le_mul_left sizeofVisionBuf few

/-- Two streams, of two buffers and of one. -/
def twoStreams : List CreateCall := [.createBuffers 0 2 4 4, .createBuffers 1 1 4 4]

theorem reply_in_bounds_iff_two : ∃ s, createAll id (.new 7 3) twoStreams = some s ∧
    (ReplyFits s 0 ↔
      if (0 : VisionStreamType) = VISION_STREAM_LIST then
        sizeofVisionStreamType * (createdStreams twoStreams).card ≤ sizeofVisionBuf * VISIONIPC_MAX_FDS
      else (countsOf 0 twoStreams).sum ≤ VISIONIPC_MAX_FDS) := by
  have accepted : createAll id (.new 7 3) twoStreams = some _ := rfl
  exact ⟨_, accepted, reply_in_bounds_iff accepted 0⟩

/-- A call made twice, each time with a number of buffers that its assertion lets through. -/
def hundredTwice : List CreateCall := [.createBuffers 0 100 4 4, .createBuffers 0 100 4 4]

theorem listener_overruns : ∃ s, createAll id (.new 7 3) hundredTwice = some s ∧
    128 ∈ s.filled 0 ∧ ¬ ReplyFits s 0 := by
  obtain ⟨s, accepted⟩ : ∃ s, createAll id (.new 7 3) hundredTwice = some s := ⟨_, rfl⟩
  have filled : 128 ∈ s.filled 0 := by
    rw [filled_stream (by decide), (created_all accepted).length 0]
    decide
  refine ⟨s, accepted, filled, ?_⟩
  rintro ⟨inside, -, -⟩
  exact absurd (inside 128 filled) (by decide)

section lists
variable {mmap : Nat → Nat} {serverId fd : Nat} {calls : List CreateCall} {s : VisionIpcServer} {errno : Nat}

theorem availableStreams_streams (ts : List VisionStreamType) :
    availableStreams (some (.streams ts)) ts.length = ts := by
  refine List.ext_getElem (by simp [availableStreams]) ?_
  intro i inside inside'
  simp [availableStreams, inside']

/-- What a list of streams comes to at a client. -/
theorem getAvailableStreams_answers (errno : Nat) (ts : List VisionStreamType) :
    VisionIpcClient.getAvailableStreams errno (.answers (some ⟨.streams ts, []⟩)) =
      if ts.length ≤ VISIONIPC_MAX_STREAMS then some ts.toFinset
      else if errno = ECONNRESET then some ∅ else none := by
  have truncated : (sizeofVisionStreamType * VISIONIPC_MAX_STREAMS < sizeofVisionStreamType * ts.length ∨
      0 < ([] : List Nat).length) ↔ ¬ ts.length ≤ VISIONIPC_MAX_STREAMS := by
    rw [Nat.mul_lt_mul_left (by decide), Nat.not_le]
    exact or_iff_left (lt_irrefl 0)
  rw [VisionIpcClient.getAvailableStreams, ipcRecvWithFds, Payload.bytes]
  simp only [truncated]
  by_cases few : ts.length ≤ VISIONIPC_MAX_STREAMS
  · rw [if_neg (not_not.mpr few), if_pos few]
    dsimp only
    rw [if_pos (Nat.mul_mod_right _ _), Nat.mul_div_cancel_left _ (by decide), availableStreams_streams]
  · rw [if_pos few, if_neg few]

/-- A client that asks while the server is up. -/
theorem getAvailableStreams_listener (accepted : createAll mmap (.new serverId fd) calls = some s) (errno : Nat) :
    (s.listener VISION_STREAM_LIST).peer.bind (VisionIpcClient.getAvailableStreams errno) =
      if (createdStreams calls).card ≤ VISIONIPC_MAX_STREAMS then some (createdStreams calls)
      else if errno = ECONNRESET then some ∅ else none := by
  have sorted : (s.buffers.keys.mergeSort (· ≤ ·)).toFinset = createdStreams calls := by
    rw [← keys_created accepted]
    exact List.toFinset_eq_of_perm _ _ (List.mergeSort_perm _ _)
  rw [VisionIpcServer.listener, if_pos rfl, Reply.peer, Option.bind_some, getAvailableStreams_answers,
    List.length_mergeSort, keys_length accepted, sorted]

end lists

/-- The set of streams arrives exactly where there are at most 64, whatever `errno`
was before. -/
theorem stream_list_iff {mmap : Nat → Nat} {serverId fd : Nat} {calls : List CreateCall} {s : VisionIpcServer}
    (accepted : createAll mmap (.new serverId fd) calls = some s) (errno : Nat) :
    (s.listener VISION_STREAM_LIST).peer.bind (VisionIpcClient.getAvailableStreams errno) =
        some (createdStreams calls) ↔
      (createdStreams calls).card ≤ VISIONIPC_MAX_STREAMS := by
  rw [getAvailableStreams_listener accepted]
  split_ifs with few reset
  · exact ⟨fun _ => few, fun _ => rfl⟩
  · refine ⟨fun none => absurd ?_ few, fun small => absurd small few⟩
    rw [← Option.some.inj none]
    exact Nat.zero_le _
  · exact ⟨fun none => absurd none (by simp), fun small => absurd small few⟩

theorem stream_list_iff_two : ∃ s, createAll id (.new 7 3) twoStreams = some s ∧
    ((s.listener VISION_STREAM_LIST).peer.bind (VisionIpcClient.getAvailableStreams 0) =
        some (createdStreams twoStreams) ↔
      (createdStreams twoStreams).card ≤ VISIONIPC_MAX_STREAMS) := by
  have accepted : createAll id (.new 7 3) twoStreams = some _ := rfl
  exact ⟨_, accepted, stream_list_iff accepted 0⟩

/-- One buffer in each of the streams 0 to 64. -/
def sixtyFive : List CreateCall := (List.range 65).map fun i => .createBuffers (.ofNat i) 1 4 4

/-- With 65 streams the assertion of the client fails, or it returns no streams where
`errno` happens to be that of a reset. -/
theorem stream_list_truncated : VISION_STREAM_LIST ∉ createdStreams sixtyFive ∧
    ∃ s, createAll id (.new 7 3) sixtyFive = some s ∧
      (s.listener VISION_STREAM_LIST).peer.bind (VisionIpcClient.getAvailableStreams 0) = none ∧
      (s.listener VISION_STREAM_LIST).peer.bind (VisionIpcClient.getAvailableStreams ECONNRESET) = some ∅ ∧
      createdStreams sixtyFive ≠ ∅ := by
  obtain ⟨s, accepted⟩ : ∃ s, createAll id (.new 7 3) sixtyFive = some s := ⟨_, rfl⟩
  have many : ¬ (createdStreams sixtyFive).card ≤ VISIONIPC_MAX_STREAMS := by decide +kernel
  refine ⟨by decide +kernel, s, accepted, ?_, ?_, by decide +kernel⟩
  · rw [getAvailableStreams_listener accepted, if_neg many, if_neg (by decide)]
  · rw [getAvailableStreams_listener accepted, if_neg many, if_pos rfl]

end Msgq
