import Msgq.Descriptors
import Msgq.Listening
import Msgq.Traces

/-! Who closes the descriptors of a client. A connection has a socket, and a reply
brings descriptors that pass to the buffer table, where the next connect or the
destructor closes them. -/
namespace Msgq
open Traces Descriptors

inductive DescriptorKind
  | socket
  | delivered

/-- How one `ipc_connect` goes; the sockets are the numbers that the kernel chose. -/
inductive Attempt
  | noSocket
  | refused (socket : Nat)
  | connected (socket : Nat)

/-- How the request and the reply go. The descriptors of a datagram are here the
numbers under which it delivers them; without a datagram the peer has closed. -/
inductive Exchange
  | unsent
  | failed
  | received (d : Option Datagram) (flagged : Bool)

/-- A call of `connect` with all that it meets; `errno` is what a failed or truncated
receive leaves there. -/
structure ConnectCall where
  blocking : Bool
  attempts : List Attempt
  exchange : Exchange
  errno : Nat

/-- A client and the descriptors of its process. -/
structure ClientProcess where
  client : VisionIpcClient
  table : Table DescriptorKind

/-- The descriptors of the buffers in use. -/
def VisionIpcClient.fds (c : VisionIpcClient) : List Nat := (List.range c.numBuffers).map fun i => (c.buffers i).fd

/-- `connect_to_vipc_server`: none when it still waits behind the last attempt, or a
number was not free. -/
def connectToVipcServer (blocking : Bool) :
    List Attempt → Table DescriptorKind → Option (Option Nat × Table DescriptorKind)
  | [], _ => none
  | .noSocket :: more, t => if blocking then connectToVipcServer blocking more t else some (none, t)
  | .refused fd :: more, t => (t.openAt .socket fd).bind fun t =>
      if blocking then connectToVipcServer blocking more (t.close fd) else some (none, t.close fd)
  | .connected fd :: _, t => (t.openAt .socket fd).map fun t => (some fd, t)

/-- The descriptors behind `recvmsg`; a flagged message closes them all and gives -1.
None when an assertion fails. -/
def ipcDeliver (numFds : Nat) (t : Table DescriptorKind) (d : Option Datagram) (flagged : Bool) :
    Option (Option (Nat × Option Payload × List Nat) × Table DescriptorKind) :=
  match d with
  | none => some (if flagged then none else some (0, none, []), t)
  | some d =>
      if numFds < d.fds.length then none
      else (t.openAll .delivered d.fds).map fun t =>
        if flagged then (none, t.closeAll d.fds) else (some (d.payload.bytes, some d.payload, d.fds), t)

namespace ClientProcess

/-- Before any call. -/
def new (type : VisionStreamType) : ClientProcess := ⟨.new type, .empty⟩

/-- `free` on every buffer in use, as `connect` and the destructor do. -/
def freeBuffers (p : ClientProcess) : Table DescriptorKind := p.table.closeAll p.client.fds

/-- The descriptors that the destructor leaves. -/
def destroy (p : ClientProcess) : Table DescriptorKind := p.freeBuffers

/-- None when an assertion fails, or the call does not return. -/
def connect (mmap : Nat → Nat) (p : ClientProcess) (call : ConnectCall) : Option (Bool × ClientProcess) :=
  let c := p.client.disconnected
  (connectToVipcServer call.blocking call.attempts p.freeBuffers).bind fun
    | (none, t) => some (false, ⟨c, t⟩)
    | (some socket, t) =>
        match call.exchange with
        | .unsent => none
        | .failed => if call.errno = ECONNRESET then some (false, ⟨c, t.close socket⟩) else none
        | .received d flagged =>
            (ipcDeliver VISIONIPC_MAX_FDS t d flagged).bind fun
              | (none, t) => if call.errno = ECONNRESET then some (false, ⟨c, t.close socket⟩) else none
              | (some (r, payload, fds), t) =>
                  if r = sizeofVisionBuf * fds.length then
                    some (true, ⟨c.importBuffers mmap payload fds, t.close socket⟩)
                  else none

end ClientProcess

/-- The ways in which a connect returns. -/
inductive ConnectEnd (mmap : Nat → Nat) (p : ClientProcess) (call : ConnectCall) : Bool → ClientProcess → Prop
  | absent {t} : connectToVipcServer call.blocking call.attempts p.freeBuffers = some (none, t) →
      ConnectEnd mmap p call false ⟨p.client.disconnected, t⟩
  | reset {socket t} : connectToVipcServer call.blocking call.attempts p.freeBuffers = some (some socket, t) →
      call.exchange = .failed → call.errno = ECONNRESET →
      ConnectEnd mmap p call false ⟨p.client.disconnected, t.close socket⟩
  | truncated {socket t d flagged u} :
      connectToVipcServer call.blocking call.attempts p.freeBuffers = some (some socket, t) →
      call.exchange = .received d flagged → ipcDeliver VISIONIPC_MAX_FDS t d flagged = some (none, u) →
      call.errno = ECONNRESET → ConnectEnd mmap p call false ⟨p.client.disconnected, u.close socket⟩
  | imported {socket t d flagged r payload fds u} :
      connectToVipcServer call.blocking call.attempts p.freeBuffers = some (some socket, t) →
      call.exchange = .received d flagged →
      ipcDeliver VISIONIPC_MAX_FDS t d flagged = some (some (r, payload, fds), u) →
      r = sizeofVisionBuf * fds.length →
      ConnectEnd mmap p call true ⟨p.client.disconnected.importBuffers mmap payload fds, u.close socket⟩

/-- A connect that returns. -/
inductive ConnectStep (mmap : Nat → Nat) : ClientProcess → ConnectCall × Bool → ClientProcess → Prop
  | connect {p call ret p'} : p.connect mmap call = some (ret, p') → ConnectStep mmap p (call, ret) p'

/-- Every delivered descriptor has one buffer in use or was closed once; every socket
was closed once, and no close missed. -/
structure Conserved (p : ClientProcess) : Prop where
  delivered : ∀ d, p.table.opened[d]? = some .delivered →
    (p.table.closes.count (some d) = 0 ∧
        ∃! i, i < p.client.numBuffers ∧ p.table.slot (p.client.buffers i).fd = some d) ∨
      (p.table.closes.count (some d) = 1 ∧ ∀ i < p.client.numBuffers, p.table.slot (p.client.buffers i).fd ≠ some d)
  sockets : ∀ d, p.table.opened[d]? = some .socket → p.table.closes.count (some d) = 1
  hits : none ∉ p.table.closes

/-- Between the calls exactly the descriptors of the buffers in use are open. -/
def Owning (p : ClientProcess) : Prop := Accounts (p.client.fds.map (·, .delivered)) p.table

section owning
variable {mmap : Nat → Nat} {p p' : ClientProcess} {t t' : Table DescriptorKind} {blocking : Bool}
  {held : List (Nat × DescriptorKind)} {call : ConnectCall} {ret : Bool} {type : VisionStreamType}
  {past : List (ConnectCall × Bool)}

theorem importBuffers_fds (mmap : Nat → Nat) (c : VisionIpcClient) (payload : Option Payload) (fds : List Nat) :
    (c.importBuffers mmap payload fds).fds = fds := by
  refine List.ext_getElem (by simp [VisionIpcClient.fds, VisionIpcClient.importBuffers]) ?_
  intro i inside inside'
  simp [VisionIpcClient.fds, VisionIpcClient.importBuffers, VisionIpcClient.importBuffer, VisionBuf.importFd,
    VisionBuf.initYuv, inside']

theorem Owning.freeBuffers (O : Owning p) : Accounts [] p.freeBuffers := by
  have held : Accounts (p.client.fds.map (·, .delivered) ++ []) p.table := by
    rw [List.append_nil]
    exact O
  exact held.closeAll

/-- At most the socket that connected stays open. -/
theorem connectToVipcServer_accounts {attempts : List Attempt} {socket : Option Nat} (A : Accounts held t)
    (returns : connectToVipcServer blocking attempts t = some (socket, t')) :
    Accounts (socket.toList.map (·, .socket) ++ held) t' := by
  induction attempts generalizing t with
  | nil => cases returns
  | cons a more ih =>
      cases a with
      | noSocket =>
          rw [connectToVipcServer] at returns
          split_ifs at returns
          · exact ih A returns
          · cases returns
            exact A
      | refused fd =>
          obtain ⟨u, opens, rest⟩ := Option.bind_eq_some_iff.mp returns
          have closed : Accounts held (u.close fd) := (A.openAt opens).close
          split_ifs at rest
          · exact ih closed rest
          · cases rest
            exact closed
      | connected fd =>
          obtain ⟨u, opens, same⟩ := Option.map_eq_some_iff.mp returns
          cases same
          exact A.openAt opens

/-- What is handed out is open, and nothing else of the message. -/
theorem ipcDeliver_accounts {numFds : Nat} {d : Option Datagram} {flagged : Bool}
    {r : Option (Nat × Option Payload × List Nat)} (A : Accounts held t)
    (delivers : ipcDeliver numFds t d flagged = some (r, t')) :
    Accounts (((r.elim [] fun r => r.2.2).map (·, .delivered)) ++ held) t' := by
  cases d with
  | none =>
      rw [ipcDeliver] at delivers
      cases delivers
      cases flagged <;> exact A
  | some d =>
      rw [ipcDeliver] at delivers
      split_ifs at delivers with many cut
      · obtain ⟨u, opens, same⟩ := Option.map_eq_some_iff.mp delivers
        cases same
        exact (A.openAll opens).closeAll
      · obtain ⟨u, opens, same⟩ := Option.map_eq_some_iff.mp delivers
        cases same
        exact A.openAll opens

theorem connect_ends (connects : p.connect mmap call = some (ret, p')) : ConnectEnd mmap p call ret p' := by
  obtain ⟨⟨socket, t⟩, reached, rest⟩ := Option.bind_eq_some_iff.mp connects
  cases socket with
  | none =>
      cases rest
      exact .absent reached
  | some socket =>
      dsimp only at rest
      split at rest
      · cases rest
      · rename_i failed
        split_ifs at rest with errno
        cases rest
        exact .reset reached failed errno
      · rename_i d flagged received
        obtain ⟨⟨r, u⟩, delivers, ends⟩ := Option.bind_eq_some_iff.mp rest
        cases r with
        | none =>
            dsimp only at ends
            split_ifs at ends with errno
            cases ends
            exact .truncated reached received delivers errno
        | some r =>
            obtain ⟨r, payload, fds⟩ := r
            dsimp only at ends
            split_ifs at ends with counts
            cases ends
            exact .imported reached received delivers counts

theorem Owning.connect (O : Owning p) (connects : p.connect mmap call = some (ret, p')) : Owning p' := by
  cases connect_ends connects with
  | absent reached => exact connectToVipcServer_accounts O.freeBuffers reached
  | reset reached failed errno => exact (connectToVipcServer_accounts O.freeBuffers reached).close
  | truncated reached received delivers errno =>
      exact (ipcDeliver_accounts (connectToVipcServer_accounts O.freeBuffers reached) delivers).close
  | imported reached received delivers counts =>
      have A := ipcDeliver_accounts (connectToVipcServer_accounts O.freeBuffers reached) delivers
      rw [Owning, importBuffers_fds]
      exact Accounts.close (A.perm (List.perm_append_singleton _ _))

theorem Owning.run (run : Run (ConnectStep mmap) (.new type) past p) : Owning p := by
  induction run with
  | nil => exact accounts_empty
  | snoc _ one ih =>
      cases one with
      | connect connects => exact ih.connect connects

/-- The buffers in use have different descriptors. -/
theorem Owning.distinct (O : Owning p) {i j : Nat} (hi : i < p.client.numBuffers) (hj : j < p.client.numBuffers)
    (same : p.table.slot (p.client.buffers i).fd = p.table.slot (p.client.buffers j).fd) : i = j := by
  have names := O.names_nodup.of_append_right
  rw [VisionIpcClient.fds, List.map_map, List.map_map] at names
  exact List.inj_on_of_nodup_map names (List.mem_range.mpr hi) (List.mem_range.mpr hj) same

theorem Owning.conserved (O : Owning p) : Conserved p := by
  refine ⟨?_, ?_, O.hits⟩
  · intro d opened
    rcases O.once opened with ⟨open_still, fd, mem, used⟩ | closed
    · obtain ⟨fd', inside, same⟩ := List.mem_map.mp mem
      cases same
      obtain ⟨i, place, rfl⟩ := List.mem_map.mp inside
      refine Or.inl ⟨open_still, i, ⟨List.mem_range.mp place, used⟩, ?_⟩
      rintro j ⟨place', used'⟩
      exact O.distinct place' (List.mem_range.mp place) (used'.trans used.symm)
    · exact Or.inr ⟨closed.1, fun i _ => closed.2 _⟩
  · intro d opened
    rcases O.once opened with ⟨_, fd, mem, -⟩ | closed
    · obtain ⟨fd', -, same⟩ := List.mem_map.mp mem
      cases same
    · exact closed.1

theorem Owning.released (O : Owning p) : p.destroy.Shut := O.freeBuffers.shut

end owning

/-- Over every run of connects, between the calls and behind the destructor. -/
theorem descriptors_conserved {mmap : Nat → Nat} {type : VisionStreamType} {past : List (ConnectCall × Bool)}
    {p : ClientProcess} (run : Run (ConnectStep mmap) (.new type) past p) : Conserved p ∧ p.destroy.Shut :=
  ⟨(Owning.run run).conserved, (Owning.run run).released⟩

/-- No server, two buffers, a truncated reply where `errno` is at a reset, two buffers
under the numbers that are free again, and an early close. -/
def reconnects : List ConnectCall :=
  let two : List VisionBuf := [{}, {}]
  [⟨false, [.refused 3], .failed, 0⟩,
    ⟨true, [.noSocket, .refused 3, .connected 3], .received (some ⟨.bufs two, [4, 5]⟩) false, 0⟩,
    ⟨false, [.connected 3], .received (some ⟨.bufs two, [4]⟩) true, ECONNRESET⟩,
    ⟨false, [.connected 4], .received (some ⟨.bufs two, [3, 5]⟩) false, 0⟩,
    ⟨false, [.connected 4], .received none false, 0⟩]

def connectAct (p : ClientProcess) (call : ConnectCall) : Option ((ConnectCall × Bool) × ClientProcess) :=
  (p.connect id call).map fun (ret, p') => ((call, ret), p')

theorem descriptors_conserved_reconnects : ∃ past p, Run (ConnectStep id) (.new 0) past p ∧
    past.map Prod.snd = [false, true, false, true, true] ∧ p.table.opened.length = 11 ∧
      Conserved p ∧ p.destroy.Shut := by
  have ends : perform connectAct (fun _ _ => True) (.new 0) reconnects = some _ := rfl
  have steps : ∀ call p e p', connectAct p call = some (e, p') → ConnectStep id p e p' := by
    intro call p e p' act
    obtain ⟨⟨ret, p''⟩, connects, same⟩ := Option.map_eq_some_iff.mp act
    cases same
    exact .connect connects
  have run := (performed ends steps).mono fun _ _ _ step => step.1
  exact ⟨_, _, run, rfl, rfl, descriptors_conserved run⟩

end Msgq
