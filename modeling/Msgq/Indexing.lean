import Msgq.Connecting

/-! Whether a buffer's index is its place in the stream. The packet, the
listener's table and the client's table each use the index, and each creating
call numbers its own buffers from 0. -/
namespace Msgq

/-- The counts of the calls that created buffers for a stream, in order. -/
def countsOf (type : VisionStreamType) (calls : List CreateCall) : List Nat :=
  (calls.filter fun c => c.type = type).map CreateCall.numBuffers

/-- Whatever buffer `getBuffer` returns, with any state of the counters, a client
that connects receives it as the buffer imported from that very descriptor. -/
def Delivers (mmap : Nat → Nat) (s : VisionIpcServer) (c : VisionIpcClient) : Prop :=
  ∀ counters idx b s' extra, VisionIpcServer.getBuffer { s with curIdx := counters } c.type idx = some (b, s') →
    ∃ c' packet i, c.connectTo mmap s = some (true, c') ∧ s'.send b extra = some packet ∧
      (c'.recv (some packet) (some extra)).1 = some i ∧ (c'.buffers i).fd = b.fd

/-! Lists numbered anew from 0 in every piece. -/

section lists

/-- The pieces together are numbered through when at most one of them is not empty. -/
theorem ranges_numbered_iff (ns : List Nat) :
    (∀ i (h : i < (ns.flatMap List.range).length), (ns.flatMap List.range)[i] = i) ↔
      (ns.filter (0 < ·)).length ≤ 1 := by
  have head : ∀ ns : List Nat, ∀ h : 0 < (ns.flatMap List.range).length, (ns.flatMap List.range)[0] = 0 := by
    intro ns
    induction ns with
    | nil => simp
    | cons n ns ih =>
        cases n with
        | zero => simpa using ih
        | succ n => simp
  induction ns with
  | nil => simp
  | cons n ns ih =>
      cases n with
      | zero => simpa using ih
      | succ n =>
          have empty : (ns.flatMap List.range).length = 0 ↔ ns.filter (0 < ·) = [] := by
            rw [List.length_eq_zero_iff, List.flatMap_eq_nil_iff, List.filter_eq_nil_iff]
            simp
          have counted : (((n + 1) :: ns).filter (0 < ·)).length ≤ 1 ↔ ns.filter (0 < ·) = [] := by
            simp
          rw [counted, ← empty, List.flatMap_cons]
          constructor
          · intro numbered
            by_contra some_left
            -- the first number of the second piece is 0 and not its place
            have room : n + 1 < (List.range (n + 1) ++ ns.flatMap List.range).length := by
              rw [List.length_append, List.length_range]
              omega
            have here := numbered (n + 1) room
            rw [List.getElem_append_right (by simp)] at here
            simp only [List.length_range, Nat.sub_self] at here
            rw [head ns (Nat.pos_of_ne_zero some_left)] at here
            cases here
          · intro none i h
            rw [List.length_append, List.length_range, none] at h
            rw [List.getElem_append_left (by simpa using h), List.getElem_range]

end lists

/-! What the creating calls leave behind. -/

/-- The streams hold what the calls created: numbered call by call, of their own
type, and each in a file of its own. -/
structure Created (ns : VisionStreamType → List Nat) (s : VisionIpcServer) : Prop where
  numbers : ∀ type, (s.stream type).map VisionBuf.idx = (ns type).flatMap List.range
  types : ∀ type, ∀ b ∈ s.stream type, b.type = type
  files : ∀ type, ((s.stream type).map VisionBuf.fd).Pairwise (· < ·)
  opened : ∀ type, ∀ b ∈ s.stream type, b.fd < s.nextFd
  nonempty : ∀ type bufs, s.buffers.lookup type = some bufs → bufs ≠ []

section creation
variable {mmap : Nat → Nat} {s s' : VisionIpcServer} {type type' : VisionStreamType}
  {width height size stride uvOffset i : Nat}

theorem stream_of_lookup {bufs : List VisionBuf} (has : s.buffers.lookup type = some bufs) :
    s.stream type = bufs := by
  rw [VisionIpcServer.stream, has]
  rfl

theorem pushBuffer_stream :
    (VisionIpcServer.pushBuffer mmap type width height size stride uvOffset s i).stream type =
      s.stream type ++ [VisionIpcServer.newBuffer mmap type width height size stride uvOffset s.nextFd i] := by
  rw [VisionIpcServer.stream, VisionIpcServer.pushBuffer, AList.lookup_insert]
  rfl

theorem pushBuffer_stream_ne (ne : type' ≠ type) :
    (VisionIpcServer.pushBuffer mmap type width height size stride uvOffset s i).stream type' =
      s.stream type' := by
  rw [VisionIpcServer.stream, VisionIpcServer.pushBuffer, AList.lookup_insert_ne ne]
  rfl

theorem created_new (serverId fd : Nat) : Created (fun _ => []) (.new serverId fd) where
  numbers _ := rfl
  types _ _ mem := (List.not_mem_nil mem).elim
  files _ := List.Pairwise.nil
  opened _ _ mem := (List.not_mem_nil mem).elim
  nonempty _ _ has := by cases has

/-- The buffers numbered up to `i` by a call that is under way, `ns` by those before. -/
def underWay (ns : VisionStreamType → List Nat) (type : VisionStreamType) (i : Nat) :
    VisionStreamType → List Nat :=
  Function.update ns type (ns type ++ [i])

theorem Created.push {ns : VisionStreamType → List Nat} (k : Created (underWay ns type i) s) :
    Created (underWay ns type (i + 1)) (s.pushBuffer mmap type width height size stride uvOffset i) where
  numbers type' := by
    have before := k.numbers type'
    by_cases same : type' = type
    · subst same
      rw [underWay, Function.update_self, List.flatMap_append, List.flatMap_singleton] at before ⊢
      rw [pushBuffer_stream, List.map_append, before, List.append_assoc, List.range_succ]
      rfl
    · rw [underWay, Function.update_of_ne same] at before ⊢
      rw [pushBuffer_stream_ne same]
      exact before
  types type' b mem := by
    by_cases same : type' = type
    · subst same
      rw [pushBuffer_stream, List.mem_append, List.mem_singleton] at mem
      rcases mem with mem | rfl
      · exact k.types type' b mem
      · rfl
    · rw [pushBuffer_stream_ne same] at mem
      exact k.types type' b mem
  files type' := by
    by_cases same : type' = type
    · subst same
      rw [pushBuffer_stream, List.map_append, List.pairwise_append]
      refine ⟨k.files type', List.pairwise_singleton _ _, ?_⟩
      intro fd before fd' last
      obtain ⟨b, mem, rfl⟩ := List.mem_map.mp before
      rw [List.mem_singleton.mp last]
      exact k.opened type' b mem
    · rw [pushBuffer_stream_ne same]
      exact k.files type'
  opened type' b mem := by
    by_cases same : type' = type
    · subst same
      rw [pushBuffer_stream, List.mem_append, List.mem_singleton] at mem
      rcases mem with mem | rfl
      · exact Nat.lt_succ_of_lt (k.opened type' b mem)
      · exact Nat.lt_succ_self _
    · rw [pushBuffer_stream_ne same] at mem
      exact Nat.lt_succ_of_lt (k.opened type' b mem)
  nonempty type' bufs has := by
    by_cases same : type' = type
    · subst same
      rw [VisionIpcServer.pushBuffer, AList.lookup_insert] at has
      cases has
      simp
    · rw [VisionIpcServer.pushBuffer, AList.lookup_insert_ne same] at has
      exact k.nonempty type' bufs has

theorem Created.pushes {ns : VisionStreamType → List Nat} (n : Nat) (k : Created (underWay ns type 0) s) :
    Created (underWay ns type n)
      ((List.range n).foldl (VisionIpcServer.pushBuffer mmap type width height size stride uvOffset) s) := by
  induction n with
  | zero => exact k
  | succ n ih =>
      rw [List.range_succ, List.foldl_append]
      exact ih.push

theorem Created.withSizes {ns : VisionStreamType → List Nat} (n : Nat) (k : Created ns s) :
    Created (underWay ns type n) (s.createBuffersWithSizes mmap type n width height size stride uvOffset) := by
  have start : Created (underWay ns type 0) s := by
    refine ⟨?_, k.types, k.files, k.opened, k.nonempty⟩
    intro type'
    rw [k.numbers type', underWay]
    by_cases same : type' = type
    · subst same
      simp
    · rw [Function.update_of_ne same]
  have made : Created (underWay ns type n)
      ((List.range n).foldl (VisionIpcServer.pushBuffer mmap type width height size stride uvOffset) s) :=
    start.pushes n
  exact ⟨made.numbers, made.types, made.files, made.opened, made.nonempty⟩

theorem Created.run {ns : VisionStreamType → List Nat} {c : CreateCall} (k : Created ns s)
    (accepts : c.run mmap s = some s') : Created (underWay ns c.type c.numBuffers) s' := by
  cases c with
  | createBuffers type n width height =>
      rw [CreateCall.run, VisionIpcServer.createBuffers] at accepts
      split_ifs at accepts
      cases accepts
      exact k.withSizes n
  | createBuffersWithSizes type n width height size stride uvOffset =>
      cases accepts
      exact k.withSizes n

theorem underWay_countsOf (done : List CreateCall) (c : CreateCall) :
    underWay (countsOf · done) c.type c.numBuffers = (countsOf · (done ++ [c])) := by
  funext type
  by_cases same : type = c.type
  · subst same
    simp [underWay, countsOf]
  · rw [underWay, Function.update_of_ne same]
    simp [countsOf, Ne.symm same]

theorem Created.all {done calls : List CreateCall} (k : Created (countsOf · done) s)
    (accepts : createAll mmap s calls = some s') : Created (countsOf · (done ++ calls)) s' := by
  induction calls generalizing s done with
  | nil =>
      cases accepts
      rwa [List.append_nil]
  | cons c cs ih =>
      obtain ⟨t, one, rest⟩ := Option.bind_eq_some_iff.mp accepts
      have next := k.run one
      rw [underWay_countsOf] at next
      rw [List.append_cons]
      exact ih next rest

theorem created_all {serverId fd : Nat} {calls : List CreateCall}
    (accepts : createAll mmap (.new serverId fd) calls = some s) : Created (countsOf · calls) s := by
  have start : Created (countsOf · []) (.new serverId fd) := created_new serverId fd
  exact start.all accepts

theorem withSizes_serverId (s : VisionIpcServer) (type : VisionStreamType) (n width height size stride uvOffset : Nat) :
    (s.createBuffersWithSizes mmap type n width height size stride uvOffset).serverId = s.serverId := by
  rw [VisionIpcServer.createBuffersWithSizes]
  induction n with
  | zero => rfl
  | succ n ih =>
      rw [List.range_succ, List.foldl_append]
      exact ih

theorem createAll_serverId {calls : List CreateCall} (accepts : createAll mmap s calls = some s') :
    s'.serverId = s.serverId := by
  induction calls generalizing s with
  | nil => cases accepts; rfl
  | cons c cs ih =>
      obtain ⟨t, one, rest⟩ := Option.bind_eq_some_iff.mp accepts
      refine (ih rest).trans ?_
      cases c with
      | createBuffers type n width height =>
          rw [CreateCall.run, VisionIpcServer.createBuffers] at one
          split_ifs at one
          cases one
          exact withSizes_serverId s ..
      | createBuffersWithSizes =>
          cases one
          exact withSizes_serverId s ..

theorem Created.stream_eq_nil {ns : VisionStreamType → List Nat} (k : Created ns s) :
    s.stream type = [] ↔ (ns type).filter (0 < ·) = [] := by
  rw [← List.map_eq_nil_iff (f := VisionBuf.idx), k.numbers, List.flatMap_eq_nil_iff, List.filter_eq_nil_iff]
  simp

theorem Created.lookup_none {ns : VisionStreamType → List Nat} (k : Created ns s) :
    s.buffers.lookup type = none ↔ (ns type).filter (0 < ·) = [] := by
  rw [← k.stream_eq_nil]
  cases has : s.buffers.lookup type with
  | none => simp [VisionIpcServer.stream, has]
  | some bufs =>
      rw [stream_of_lookup has]
      simp [k.nonempty type bufs has]

/-- Different places of a stream are different files. -/
theorem Created.place {ns : VisionStreamType → List Nat} {bufs : List VisionBuf} {i j : Nat} (k : Created ns s)
    (has : s.buffers.lookup type = some bufs) (hi : i < bufs.length) (hj : j < bufs.length)
    (same : bufs[i].fd = bufs[j].fd) : i = j := by
  have files := k.files type
  rw [stream_of_lookup has, List.pairwise_map] at files
  have ordered := List.pairwise_iff_getElem.mp files
  rcases Nat.lt_trichotomy i j with before | eq | behind
  · exact absurd same (Nat.ne_of_lt (ordered i j hi hj before))
  · exact eq
  · exact absurd same (Nat.ne_of_gt (ordered j i hj hi behind))

end creation

/-! Buffers on their way to a client. -/

section delivery
variable {mmap : Nat → Nat} {s s' : VisionIpcServer} {c c' : VisionIpcClient} {type : VisionStreamType}
  {bufs : List VisionBuf} {b : VisionBuf}

/-- The buffer comes from some place of the stream, and only a counter changes. -/
theorem getBuffer_place {idx : Int} (has : s.buffers.lookup type = some bufs)
    (got : s.getBuffer type idx = some (b, s')) :
    (∃ i, ∃ h : i < bufs.length, bufs[i] = b) ∧ s'.buffers = s.buffers ∧ s'.serverId = s.serverId := by
  rw [VisionIpcServer.getBuffer, has] at got
  dsimp only at got
  split_ifs at got
  · obtain ⟨b', at_place, same⟩ := Option.map_eq_some_iff.mp got
    cases same
    exact ⟨⟨_, List.getElem?_eq_some_iff.mp at_place⟩, rfl, rfl⟩
  · obtain ⟨b', at_place, same⟩ := Option.map_eq_some_iff.mp got
    cases same
    exact ⟨⟨_, List.getElem?_eq_some_iff.mp at_place⟩, rfl, rfl⟩

theorem getBuffer_explicit {i : Nat} (has : s.buffers.lookup type = some bufs) (h : i < bufs.length) :
    ∃ s', s.getBuffer type i = some (bufs[i], s') := by
  rw [VisionIpcServer.getBuffer, has]
  dsimp only
  rw [if_neg (by omega), Int.toNat_natCast, List.getElem?_eq_getElem h]
  exact ⟨_, rfl⟩

theorem send_packet {extra : VisionIpcBufExtra} (has : s.buffers.lookup b.type = some bufs)
    (below : b.idx < bufs.length) : s.send b extra = some ⟨s.serverId, b.idx, extra⟩ := by
  rw [VisionIpcServer.send, has]
  exact if_pos below

/-- A packet of the server whose buffers the client holds. -/
theorem recv_own {i : Nat} {extra : VisionIpcBufExtra} {x : Option VisionIpcBufExtra}
    (holds : Holds mmap s bufs c) (below : i < bufs.length) :
    c.recv (some ⟨s.serverId, i, extra⟩) x = (some i, x.map fun _ => extra, c) := by
  have id : (c.buffers i).serverId = s.serverId := by
    rw [holds.2 i below]
    rfl
  have inside : ¬ c.numBuffers ≤ i := by
    rw [holds.1]
    exact below.not_ge
  rw [VisionIpcClient.recv]
  simp only [if_neg inside, id, ne_eq, not_true_eq_false, if_false]

theorem recv_index {packet : VisionIpcPacket} {x : Option VisionIpcBufExtra} {i : Nat}
    (got : (c.recv (some packet) x).1 = some i) : i = packet.idx ∧ packet.idx < c.numBuffers := by
  rw [VisionIpcClient.recv] at got
  split_ifs at got with outside
  cases got
  exact ⟨rfl, Nat.lt_of_not_le outside⟩

/-- The reserved id is answered with the list of streams, which connect cannot read. -/
theorem connectTo_reserved (reserved : c.type = VISION_STREAM_LIST)
    (has : s.buffers.lookup VISION_STREAM_LIST = some bufs) : c.connectTo mmap s = none := by
  have listed : s.buffers.keys ≠ [] := by
    have present : (s.buffers.lookup VISION_STREAM_LIST).isSome = true := by
      rw [has]
      rfl
    exact List.ne_nil_of_mem (AList.mem_keys.mp (AList.lookup_isSome.mp present))
  have length : 0 < (s.buffers.keys.mergeSort (· ≤ ·)).length := by
    rw [List.length_mergeSort]
    exact List.length_pos_iff.mpr listed
  rw [VisionIpcClient.connectTo, VisionIpcServer.listener, if_pos reserved]
  simp only [Reply.peer, Option.bind_some, VisionIpcClient.connect]
  cases arrives : ipcRecvWithFds (sizeofVisionBuf * VISIONIPC_MAX_FDS) VISIONIPC_MAX_FDS
      (some ⟨.streams (s.buffers.keys.mergeSort (· ≤ ·)), []⟩) with
  | none => rfl
  | some r =>
      rw [ipcRecvWithFds] at arrives
      split_ifs at arrives
      cases arrives
      apply if_neg
      rw [Payload.bytes, sizeofVisionStreamType, List.length_nil]
      omega

end delivery

/-! The agreement. -/

section agreement
variable {mmap mmap' : Nat → Nat} {s : VisionIpcServer} {c : VisionIpcClient} {calls : List CreateCall}
  {serverId fd : Nat} {bufs : List VisionBuf}

/-- With the stream numbered through, every buffer arrives as itself. -/
theorem delivers_of_numbered {ns : VisionStreamType → List Nat} (k : Created ns s)
    (has : s.buffers.lookup c.type = some bufs) (few : bufs.length < VISIONIPC_MAX_FDS)
    (unreserved : c.type ≠ VISION_STREAM_LIST)
    (numbered : ∀ i (h : i < bufs.length), bufs[i].idx = i) : Delivers mmap' s c := by
  intro counters idx b s' extra got
  obtain ⟨⟨i, h, rfl⟩, buffers, id⟩ := getBuffer_place (s := { s with curIdx := counters }) has got
  obtain ⟨c', connects, -, -, holds⟩ := connectTo_stream mmap' unreserved has (Nat.le_of_lt few)
  have type : bufs[i].type = c.type := by
    have mem : bufs[i] ∈ s.stream c.type := by
      rw [stream_of_lookup has]
      exact List.getElem_mem h
    exact k.types c.type _ mem
  have sends : s'.send bufs[i] extra = some ⟨s.serverId, i, extra⟩ := by
    have has' : s'.buffers.lookup bufs[i].type = some bufs := by
      rw [type, buffers]
      exact has
    rw [send_packet has' (by rw [numbered i h]; exact h), numbered i h, id]
  refine ⟨c', _, i, connects, sends, ?_, ?_⟩
  · rw [recv_own holds h]
  · rw [holds.2 i h]
    rfl

/-- Where every buffer arrives as itself, the stream is numbered through. -/
theorem numbered_of_delivers {ns : VisionStreamType → List Nat} (k : Created ns s)
    (has : s.buffers.lookup c.type = some bufs) (few : bufs.length < VISIONIPC_MAX_FDS)
    (unreserved : c.type ≠ VISION_STREAM_LIST) (delivers : Delivers mmap' s c) :
    ∀ i (h : i < bufs.length), bufs[i].idx = i := by
  intro i h
  obtain ⟨s', got⟩ := getBuffer_explicit (s := s) has h
  obtain ⟨c', packet, j, connects, sends, returns, same⟩ := delivers s.curIdx i bufs[i] s' ⟨0, 0, 0, true⟩ got
  obtain ⟨c'', connects', -, -, holds⟩ := connectTo_stream mmap' unreserved has (Nat.le_of_lt few)
  rw [connects] at connects'
  cases connects'
  obtain ⟨rfl, inside⟩ := recv_index returns
  have index : packet.idx = bufs[i].idx := by
    rw [VisionIpcServer.send] at sends
    split at sends
    · cases sends
    · split_ifs at sends
      cases sends
      rfl
  rw [holds.1] at inside
  rw [holds.2 _ inside] at same
  rw [← index]
  exact k.place has inside h same

theorem numbered_iff {ns : VisionStreamType → List Nat} (k : Created ns s)
    (has : s.buffers.lookup type = some bufs) :
    (∀ i (h : i < bufs.length), bufs[i].idx = i) ↔ ((ns type).filter (0 < ·)).length ≤ 1 := by
  have numbers := k.numbers type
  rw [stream_of_lookup has] at numbers
  rw [← ranges_numbered_iff, ← numbers]
  simp

/-- Index agreement: every buffer of a stream reaches the client as itself exactly
when at most one call created buffers for the stream, and none if its id is reserved. -/
theorem delivers_iff (accepted : createAll mmap (.new serverId fd) calls = some s)
    (few : ∀ bufs, s.buffers.lookup c.type = some bufs → bufs.length < VISIONIPC_MAX_FDS) :
    Delivers mmap' s c ↔ ((countsOf c.type calls).filter (0 < ·)).length ≤
      if c.type = VISION_STREAM_LIST then 0 else 1 := by
  have k := created_all accepted
  cases has : s.buffers.lookup c.type with
  | none =>
      have nothing := k.lookup_none.mp has
      rw [nothing]
      refine ⟨fun _ => Nat.zero_le _, fun _ => ?_⟩
      intro counters idx b s' extra got
      rw [VisionIpcServer.getBuffer] at got
      simp only [has] at got
      cases got
  | some bufs =>
      by_cases reserved : c.type = VISION_STREAM_LIST
      · rw [if_pos reserved, Nat.le_zero, List.length_eq_zero_iff, ← k.lookup_none, has]
        refine ⟨fun delivers => ?_, fun none => by cases none⟩
        have some_buffer : 0 < bufs.length := List.length_pos_iff.mpr (k.nonempty _ _ has)
        obtain ⟨s', got⟩ := getBuffer_explicit (s := s) has some_buffer
        obtain ⟨c', -, -, connects, -⟩ := delivers s.curIdx 0 bufs[0] s' ⟨0, 0, 0, true⟩ got
        rw [connectTo_reserved reserved (reserved ▸ has)] at connects
        cases connects
      · rw [if_neg reserved, ← numbered_iff k has]
        exact ⟨numbered_of_delivers k has (few _ has) reserved, delivers_of_numbered k has (few _ has) reserved⟩

end agreement

theorem delivers_iff_once : ∃ s, createAll id (.new 7 3) [.createBuffers 0 2 4 4, .createBuffers 1 1 4 4] = some s ∧
    (Delivers id s (.new 0) ↔
      ((countsOf 0 [.createBuffers 0 2 4 4, .createBuffers 1 1 4 4]).filter (0 < ·)).length ≤
        if (0 : VisionStreamType) = VISION_STREAM_LIST then 0 else 1) := by
  refine ⟨_, rfl, delivers_iff (c := .new 0) rfl ?_⟩
  intro bufs has
  cases has
  decide

/-- One stream created twice: the second buffer is sent, and the client receives the first. -/
theorem stream_created_twice : ∃ s b s' c packet,
    createAll id (.new 7 3) [.createBuffers 0 1 4 4, .createBuffers 0 1 4 4] = some s ∧
    (s.getBuffer 0 1 = some (b, s') ∧ (VisionIpcClient.new 0).connectTo id s = some (true, c) ∧
      s'.send b ⟨1, 0, 0, true⟩ = some packet ∧ (c.recv (some packet) none).1 = some 0 ∧
      b.fd = 4 ∧ (c.buffers 0).fd = 3) ∧ ¬ Delivers id s (.new 0) := by
  refine ⟨_, _, _, _, _, rfl, ⟨rfl, rfl, rfl, rfl, rfl, rfl⟩, ?_⟩
  intro delivers
  have accepts : createAll id (.new 7 3) [.createBuffers 0 1 4 4, .createBuffers 0 1 4 4] = some _ := rfl
  cases numbered_of_delivers (created_all accepts) rfl (by decide) (by decide) delivers 1 (by decide)

end Msgq
