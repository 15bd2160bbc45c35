import Msgq.Conserving
import Msgq.Events

/-! The descriptors of a server. The main thread creates the buffers and destroys
the server, the listener answers one connection after the other, and the two
share a flag that ends the listener. -/
namespace Msgq
open Traces Descriptors

inductive ServerDescriptor
  | buffer
  | queue
  | listening
  | accepted
  | wake
  deriving DecidableEq

/-- What one `poll` of the listening socket comes to. -/
inductive PollResult
  | failed (errno : Nat)
  | returned (revents : Bool)

/-- Where the listener stands, with its socket and the connection it answers. -/
inductive ListenerPc
  | none
  | bind
  | head (sock : Nat)
  | poll (sock : Nat)
  | polled (sock : Nat) (revents : Bool)
  | accept (sock : Nat)
  | request (sock fd : Nat)
  | reply (sock fd : Nat) (type : VisionStreamType)
  | refused (sock : Nat)
  | closing (sock : Nat)
  | returned
  | died
  deriving DecidableEq

/-- Where the main thread stands: `live` until the destructor sets the flag. -/
inductive MainPc
  | live
  | exiting
  | woken (sock : Nat)
  | joining
  | freeing (rest : List VisionBuf)
  | destroyed
  deriving DecidableEq

/-- `bound` says that the socket's file is there. -/
structure ServerProcess where
  server : VisionIpcServer
  table : Table ServerDescriptor
  shouldExit : Bool
  main : MainPc
  listener : ListenerPc
  bound : Bool

/-- What the listener meets; a number is one that the kernel chose. -/
inductive ListenerInput
  | go
  | socket (fd : Nat)
  | polled (r : PollResult)
  | accepted (fd : Nat)
  | received (type : Option VisionStreamType)
  | replied (whole : Bool)

/-- What the main thread does next, and what it meets. -/
inductive MainInput
  | create (call : CreateCall) (fds : List Nat) (queue : Option Nat)
  | startListener
  | destroy
  | wake (a : Attempt)
  | go

/-- Every buffer, in the order the destructor frees them. -/
def VisionIpcServer.allBuffers (s : VisionIpcServer) : List VisionBuf :=
  (s.buffers.keys.mergeSort (· ≤ ·)).flatMap s.stream

namespace ServerProcess

def new (serverId : Nat) : ServerProcess := ⟨.new serverId 0, .empty, false, .live, .none, false⟩

/-- One turn of the creation loop, which opens the file `fd`. -/
def pushBuffer (mmap : Nat → Nat) (type : VisionStreamType) (width height size stride uvOffset : Nat)
    (p : ServerProcess) (x : Nat × Nat) : Option ServerProcess :=
  (p.table.openAt .buffer x.1).map fun t =>
    { p with
      server := VisionIpcServer.pushBuffer mmap type width height size stride uvOffset { p.server with nextFd := x.1 } x.2
      table := t }

/-- `PubSocket::create` closes the file of the queue once it is mapped. -/
def openQueue (t : Table ServerDescriptor) : Option Nat → Option (Table ServerDescriptor)
  | none => some t
  | some fd => (t.openAt .queue fd).map fun t => t.close fd

def createBuffersWithSizes (mmap : Nat → Nat) (p : ServerProcess) (type : VisionStreamType)
    (width height size stride uvOffset : Nat) (fds : List Nat) (queue : Option Nat) : Option ServerProcess :=
  (fds.zipIdx.foldlM (pushBuffer mmap type width height size stride uvOffset) p).bind fun p =>
    (openQueue p.table queue).map fun t =>
      { p with server := { p.server with curIdx := Function.update p.server.curIdx type 0 }, table := t }

/-- A creating call whose buffers are opened at `fds`; none when an assertion fails. -/
def create (mmap : Nat → Nat) (p : ServerProcess) (call : CreateCall) (fds : List Nat) (queue : Option Nat) :
    Option ServerProcess :=
  if fds.length = call.numBuffers then
    match call with
    | .createBuffers type n width height =>
        if n < VISIONIPC_MAX_FDS then
          p.createBuffersWithSizes mmap type width height (width * height * 3 % 2 ^ 64 / 2) width
            (width * height % 2 ^ 64) fds queue
        else none
    | .createBuffersWithSizes type _ width height size stride uvOffset =>
        p.createBuffersWithSizes mmap type width height size stride uvOffset fds queue
  else none

/-- The end of a request: the connection is closed. -/
def hangUp (p : ServerProcess) (fd : Nat) (pc : ListenerPc) : ServerProcess :=
  { p with table := p.table.close fd, listener := pc }

/-- The next step of the listener; none where it does not meet `input`. -/
def listenerStep (p : ServerProcess) (input : ListenerInput) : Option ServerProcess :=
  match p.listener, input with
  | .bind, .socket sock => (p.table.openAt .listening sock).map fun t =>
      { p with table := t, listener := .head sock, bound := true }
  | .head sock, .go => some { p with listener := if p.shouldExit then .closing sock else .poll sock }
  | .poll sock, .polled (.failed errno) =>
      some { p with listener := if errno = EINTR ∨ errno = EAGAIN then .head sock else .closing sock }
  | .poll sock, .polled (.returned revents) => some { p with listener := .polled sock revents }
  | .polled sock revents, .go =>
      some { p with
        listener := if p.shouldExit then .closing sock else if revents then .accept sock else .head sock }
  | .accept sock, .accepted fd => (p.table.openAt .accepted fd).map fun t =>
      { p with table := t, listener := .request sock fd }
  | .request sock fd, .received none => some (p.hangUp fd (.refused sock))
  | .request sock fd, .received (some type) => some { p with listener := .reply sock fd type }
  | .reply sock fd type, .replied whole =>
      match p.server.listener type with
      | .closed => some (p.hangUp fd (.head sock))
      | .overrun => some { p with listener := .died }
      -- only the list of streams has its size asserted
      | .datagram _ =>
          if type = VISION_STREAM_LIST ∧ whole = false then some { p with listener := .died }
          else some (p.hangUp fd (.head sock))
  | .refused sock, .go => some { p with listener := if p.shouldExit then .closing sock else .head sock }
  | .closing sock, .go => some { p with table := p.table.close sock, listener := .returned, bound := false }
  | _, _ => none

/-- The next step of the main thread. The map of buffers has no lock: streams are
created before the listener is started. -/
def mainStep (mmap : Nat → Nat) (p : ServerProcess) (input : MainInput) : Option ServerProcess :=
  match p.main, input with
  | .live, .create call fds queue => if p.listener = .none then p.create mmap call fds queue else none
  | .live, .startListener => if p.listener = .none then some { p with listener := .bind } else none
  | .live, .destroy => some { p with shouldExit := true, main := .exiting }
  | .exiting, .go =>
      if p.listener = .none then some { p with main := .freeing p.server.allBuffers } else none
  | .exiting, .wake a =>
      if p.listener = .none then none
      else
        match a with
        | .noSocket => some { p with main := .joining }
        | .refused sock => (p.table.openAt .wake sock).map fun t => { p with table := t.close sock, main := .joining }
        | .connected sock => (p.table.openAt .wake sock).map fun t => { p with table := t, main := .woken sock }
  | .woken sock, .go => some { p with table := p.table.close sock, main := .joining }
  | .joining, .go =>
      if p.listener = .returned then some { p with main := .freeing p.server.allBuffers } else none
  | .freeing (b :: rest), .go => some { p with table := p.table.close b.fd, main := .freeing rest }
  | .freeing [], .go => some { p with main := .destroyed }
  | _, _ => none

end ServerProcess

inductive ServerEvent
  | listener (input : ListenerInput)
  | main (input : MainInput)

/-- One thread goes on; a failed assertion ends both. -/
inductive ServerStep (mmap : Nat → Nat) : ServerProcess → ServerEvent → ServerProcess → Prop
  | listener {p input p'} : p.listenerStep input = some p' → ServerStep mmap p (.listener input) p'
  | main {p input p'} : p.listener ≠ .died → p.mainStep mmap input = some p' → ServerStep mmap p (.main input) p'

/-- The step that an event names. -/
def ServerProcess.step (mmap : Nat → Nat) (p : ServerProcess) : ServerEvent → Option ServerProcess
  | .listener input => p.listenerStep input
  | .main input => if p.listener = .died then none else p.mainStep mmap input

theorem steps_run {mmap : Nat → Nat} {p p' : ServerProcess} {es : List ServerEvent}
    (steps : es.foldlM (ServerProcess.step mmap) p = some p') : Run (ServerStep mmap) p es p' := by
  induction es generalizing p with
  | nil =>
      cases steps
      exact .nil
  | cons e es ih =>
      obtain ⟨q, one, rest⟩ := Option.bind_eq_some_iff.mp steps
      have step : ServerStep mmap p e q := by
        cases e with
        | listener input => exact .listener one
        | main input =>
            rw [ServerProcess.step] at one
            split_ifs at one with died
            exact .main died one
      exact (Run.nil.snoc step).append (ih rest)

/-! What is open. -/

def ListenerPc.held : ListenerPc → List (Nat × ServerDescriptor)
  | .none | .bind | .returned => []
  | .head sock | .poll sock | .polled sock _ | .accept sock | .refused sock | .closing sock => [(sock, .listening)]
  | .request sock fd | .reply sock fd _ => [(fd, .accepted), (sock, .listening)]
  | .died => []

def VisionBuf.held (b : VisionBuf) : Nat × ServerDescriptor := (b.fd, .buffer)

/-- The buffers that are not freed yet. -/
def ServerProcess.unfreed (p : ServerProcess) : List VisionBuf :=
  match p.main with
  | .freeing rest => rest
  | .destroyed => []
  | .live | .exiting | .woken _ | .joining => p.server.allBuffers

def ServerProcess.wakeHeld (p : ServerProcess) : List (Nat × ServerDescriptor) :=
  match p.main with
  | .woken sock => [(sock, .wake)]
  | .live | .exiting | .joining | .freeing _ | .destroyed => []

def ServerProcess.held (p : ServerProcess) : List (Nat × ServerDescriptor) :=
  p.listener.held ++ (p.wakeHeld ++ p.unfreed.map VisionBuf.held)

section buffers
variable {mmap : Nat → Nat} {s : VisionIpcServer} {type : VisionStreamType} {width height size stride uvOffset i : Nat}

/-- The buffers of one stream and those of all others. -/
theorem allBuffers_split (s : VisionIpcServer) (type : VisionStreamType) :
    s.allBuffers.Perm (s.stream type ++ (s.buffers.keys.erase type).flatMap s.stream) := by
  refine ((List.mergeSort_perm _ _).flatMap_right s.stream).trans ?_
  by_cases has : type ∈ s.buffers.keys
  · exact ((List.perm_cons_erase has).flatMap_right s.stream).trans (by rw [List.flatMap_cons])
  · have none : s.buffers.lookup type = none := AList.lookup_eq_none.mpr has
    rw [List.erase_of_not_mem has, VisionIpcServer.stream, none]
    exact List.Perm.refl _

theorem allBuffers_push :
    (VisionIpcServer.pushBuffer mmap type width height size stride uvOffset s i).allBuffers.Perm
      (VisionIpcServer.newBuffer mmap type width height size stride uvOffset s.nextFd i :: s.allBuffers) := by
  have others : ((VisionIpcServer.pushBuffer mmap type width height size stride uvOffset s i).buffers.keys.erase
      type).flatMap (VisionIpcServer.pushBuffer mmap type width height size stride uvOffset s i).stream =
      (s.buffers.keys.erase type).flatMap s.stream := by
    have keys : (VisionIpcServer.pushBuffer mmap type width height size stride uvOffset s i).buffers.keys.erase type =
        s.buffers.keys.erase type := by
      rw [VisionIpcServer.pushBuffer, AList.keys_insert, List.erase_cons_head]
    rw [keys]
    exact List.flatMap_congr fun type' mem =>
      pushBuffer_stream_ne (List.Nodup.mem_erase_iff s.buffers.keys_nodup |>.mp mem).1
  refine (allBuffers_split _ type).trans ?_
  rw [others, pushBuffer_stream, List.append_assoc, List.singleton_append]
  exact List.perm_middle.trans ((allBuffers_split s type).symm.cons _)

end buffers

section creation
variable {mmap : Nat → Nat} {p p' : ServerProcess} {type : VisionStreamType}
  {width height size stride uvOffset : Nat} {fds : List Nat} {queue : Option Nat} {call : CreateCall}

/-- The buffers of a process, each at its own number. -/
def ServerProcess.Stocked (p : ServerProcess) : Prop := Accounts (p.server.allBuffers.map VisionBuf.held) p.table

/-- What a creating call leaves alone. -/
structure SameThreads (p p' : ServerProcess) : Prop where
  shouldExit : p'.shouldExit = p.shouldExit
  main : p'.main = p.main
  listener : p'.listener = p.listener
  bound : p'.bound = p.bound

theorem SameThreads.trans {p'' : ServerProcess} (a : SameThreads p p') (b : SameThreads p' p'') : SameThreads p p'' :=
  ⟨b.shouldExit.trans a.shouldExit, b.main.trans a.main, b.listener.trans a.listener, b.bound.trans a.bound⟩

namespace ServerProcess

theorem Stocked.push {x : Nat × Nat} (S : p.Stocked)
    (pushes : pushBuffer mmap type width height size stride uvOffset p x = some p') : p'.Stocked ∧ SameThreads p p' := by
  obtain ⟨t, opens, rfl⟩ := Option.map_eq_some_iff.mp pushes
  refine ⟨?_, rfl, rfl, rfl, rfl⟩
  have grown : (VisionIpcServer.pushBuffer mmap type width height size stride uvOffset { p.server with nextFd := x.1 }
      x.2).allBuffers.Perm _ := allBuffers_push
  exact (S.openAt opens).perm (grown.symm.map VisionBuf.held)

theorem Stocked.pushAll {xs : List (Nat × Nat)} (S : p.Stocked)
    (pushes : xs.foldlM (pushBuffer mmap type width height size stride uvOffset) p = some p') :
    p'.Stocked ∧ SameThreads p p' := by
  induction xs generalizing p with
  | nil =>
      cases pushes
      exact ⟨S, rfl, rfl, rfl, rfl⟩
  | cons x xs ih =>
      obtain ⟨q, one, rest⟩ := Option.bind_eq_some_iff.mp pushes
      obtain ⟨S', same⟩ := S.push one
      obtain ⟨S'', same'⟩ := ih S' rest
      exact ⟨S'', same.trans same'⟩

theorem openQueue_accounts {held : List (Nat × ServerDescriptor)} {t t' : Table ServerDescriptor} (A : Accounts held t)
    (opens : openQueue t queue = some t') : Accounts held t' := by
  cases queue with
  | none =>
      cases opens
      exact A
  | some fd =>
      obtain ⟨u, opened, rfl⟩ := Option.map_eq_some_iff.mp opens
      exact (A.openAt opened).close

theorem Stocked.createWithSizes (S : p.Stocked)
    (creates : p.createBuffersWithSizes mmap type width height size stride uvOffset fds queue = some p') :
    p'.Stocked ∧ SameThreads p p' := by
  obtain ⟨q, pushed, rest⟩ := Option.bind_eq_some_iff.mp creates
  obtain ⟨t, opened, rfl⟩ := Option.map_eq_some_iff.mp rest
  obtain ⟨S', same⟩ := S.pushAll pushed
  exact ⟨openQueue_accounts S' opened, same.shouldExit, same.main, same.listener, same.bound⟩

theorem Stocked.create (S : p.Stocked) (creates : p.create mmap call fds queue = some p') :
    p'.Stocked ∧ SameThreads p p' := by
  unfold ServerProcess.create at creates
  split_ifs at creates
  cases call with
  | createBuffers type n width height =>
      dsimp only at creates
      split_ifs at creates
      exact S.createWithSizes creates
  | createBuffersWithSizes => exact S.createWithSizes creates

end ServerProcess

end creation

/-! Runs. -/

def ListenerPc.up : ListenerPc → Bool
  | .none | .bind | .returned | .died => false
  | .head _ | .poll _ | .polled _ _ | .accept _ | .request _ _ | .reply _ _ _ | .refused _ | .closing _ => true

/-- What is open is what the threads hold, and the main thread frees the buffers
behind the listener only. -/
structure Served (p : ServerProcess) : Prop where
  accounts : Accounts p.held p.table
  flag : p.shouldExit = false ↔ p.main = .live
  joined : (∀ rest, p.main ≠ .freeing rest) ∧ p.main ≠ .destroyed ∨ p.listener = .none ∨ p.listener = .returned
  waits : p.main = .joining ∨ (∃ sock, p.main = .woken sock) → p.listener ≠ .none
  bound : p.bound = p.listener.up

section serving
variable {mmap : Nat → Nat} {p p' : ServerProcess} {e : ServerEvent} {past : List ServerEvent} {serverId : Nat}

theorem served_new (serverId : Nat) : Served (.new serverId) where
  accounts := by
    have none : (ServerProcess.new serverId).held = [] := by
      simp [ServerProcess.held, ServerProcess.wakeHeld, ServerProcess.unfreed, ServerProcess.new, ListenerPc.held,
        VisionIpcServer.allBuffers, VisionIpcServer.new]
    rw [none]
    exact accounts_empty
  flag := ⟨fun _ => rfl, fun _ => rfl⟩
  joined := Or.inr (Or.inl rfl)
  waits := by simp [ServerProcess.new]
  bound := rfl

/-- A step of the listener, by what it holds behind it. -/
theorem Served.move {pc : ListenerPc} {t : Table ServerDescriptor} {b : Bool} (S : Served p)
    (here : p.listener ≠ .none ∧ p.listener ≠ .returned ∧ pc ≠ .none)
    (A : Accounts (pc.held ++ (p.wakeHeld ++ p.unfreed.map VisionBuf.held)) t) (up : b = pc.up) :
    Served { p with table := t, listener := pc, bound := b } where
  accounts := A
  flag := S.flag
  joined := Or.inl (S.joined.resolve_right (not_or.mpr ⟨here.1, here.2.1⟩))
  waits _ := here.2.2
  bound := up

theorem Served.listener {input : ListenerInput} (S : Served p) (step : p.listenerStep input = some p') :
    p'.listener = .died ∨ Served p' := by
  have A := S.accounts
  have bound := S.bound
  rw [ServerProcess.held] at A
  unfold ServerProcess.listenerStep at step
  split at step
  · rename_i pc
    rw [pc] at A
    obtain ⟨t, opens, rfl⟩ := Option.map_eq_some_iff.mp step
    exact Or.inr (S.move (by simp [pc]) (A.openAt opens) rfl)
  · rename_i pc
    rw [pc] at A bound
    split_ifs at step <;> cases step <;> exact Or.inr (S.move (by simp [pc]) A bound)
  · rename_i pc
    rw [pc] at A bound
    split_ifs at step <;> cases step <;> exact Or.inr (S.move (by simp [pc]) A bound)
  · rename_i pc
    rw [pc] at A bound
    cases step
    exact Or.inr (S.move (by simp [pc]) A bound)
  · rename_i pc
    rw [pc] at A bound
    split_ifs at step <;> cases step <;> exact Or.inr (S.move (by simp [pc]) A bound)
  · rename_i pc
    rw [pc] at A bound
    obtain ⟨t, opens, rfl⟩ := Option.map_eq_some_iff.mp step
    exact Or.inr (S.move (by simp [pc]) (A.openAt opens) bound)
  · rename_i pc
    rw [pc] at A bound
    cases step
    exact Or.inr (S.move (by simp [pc]) (Accounts.close A) bound)
  · rename_i pc
    rw [pc] at A bound
    cases step
    exact Or.inr (S.move (by simp [pc]) A bound)
  · rename_i pc
    rw [pc] at A bound
    split at step
    · cases step
      exact Or.inr (S.move (by simp [pc]) (Accounts.close A) bound)
    · cases step
      exact Or.inl rfl
    · split_ifs at step
      · cases step
        exact Or.inl rfl
      · cases step
        exact Or.inr (S.move (by simp [pc]) (Accounts.close A) bound)
  · rename_i pc
    rw [pc] at A bound
    split_ifs at step <;> cases step <;> exact Or.inr (S.move (by simp [pc]) A bound)
  · rename_i pc
    rw [pc] at A
    cases step
    exact Or.inr (S.move (by simp [pc]) (Accounts.close A) rfl)
  · cases step

/-- A step of the main thread, by what it holds behind it. -/
theorem Served.proceed {pc : MainPc} {t : Table ServerDescriptor} {flag : Bool} (S : Served p)
    (A : Accounts (({ p with table := t, main := pc } : ServerProcess).held) t) (flagged : flag = false ↔ pc = .live)
    (joined : (∀ rest, pc ≠ .freeing rest) ∧ pc ≠ .destroyed ∨ p.listener = .none ∨ p.listener = .returned)
    (waits : pc = .joining ∨ (∃ sock, pc = .woken sock) → p.listener ≠ .none) :
    Served { p with table := t, shouldExit := flag, main := pc } where
  accounts := A
  flag := flagged
  joined := joined
  waits := waits
  bound := S.bound

theorem Served.create {call : CreateCall} {fds : List Nat} {queue : Option Nat} (S : Served p) (live : p.main = .live)
    (unstarted : p.listener = .none) (creates : p.create mmap call fds queue = some p') : Served p' := by
  have stocked : p.Stocked := by
    have A := S.accounts
    rwa [ServerProcess.held, unstarted, ServerProcess.wakeHeld, ServerProcess.unfreed, live] at A
  obtain ⟨stocked', same⟩ := ServerProcess.Stocked.create stocked creates
  have main := same.main.trans live
  have listener := same.listener.trans unstarted
  refine ⟨?_, ?_, Or.inr (Or.inl listener), by simp [main], ?_⟩
  · rw [ServerProcess.held, listener, ServerProcess.wakeHeld, ServerProcess.unfreed, main]
    exact stocked'
  · rw [same.shouldExit, same.main]
    exact S.flag
  · rw [same.bound, same.listener]
    exact S.bound

theorem Served.main {input : MainInput} (S : Served p) (step : p.mainStep mmap input = some p') : Served p' := by
  have A := S.accounts
  have flag := S.flag
  have joined := S.joined
  rw [ServerProcess.held, ServerProcess.wakeHeld, ServerProcess.unfreed] at A
  unfold ServerProcess.mainStep at step
  split at step
  · rename_i live
    split_ifs at step with unstarted
    exact S.create live unstarted step
  · rename_i live
    split_ifs at step with unstarted
    cases step
    rw [live, unstarted] at A
    refine ⟨?_, flag, Or.inl (by simp [live]), by simp [live], ?_⟩
    · rw [ServerProcess.held, ServerProcess.wakeHeld, ServerProcess.unfreed, live]
      exact A
    · exact S.bound.trans (by rw [unstarted]; rfl)
  · rename_i live
    cases step
    rw [live] at A
    exact S.proceed A (by simp) (Or.inl (by simp)) (by simp)
  · rename_i exiting
    split_ifs at step with unstarted
    cases step
    rw [exiting] at A flag
    exact S.proceed A (flag.trans (by simp)) (Or.inr (Or.inl unstarted)) (by simp)
  · rename_i a exiting
    split_ifs at step with unstarted
    rw [exiting] at A flag
    cases a with
    | noSocket =>
        cases step
        exact S.proceed A (flag.trans (by simp)) (Or.inl (by simp)) fun _ => unstarted
    | refused sock =>
        obtain ⟨t, opens, rfl⟩ := Option.map_eq_some_iff.mp step
        exact S.proceed (A.openAt opens).close (flag.trans (by simp)) (Or.inl (by simp)) fun _ => unstarted
    | connected sock =>
        obtain ⟨t, opens, rfl⟩ := Option.map_eq_some_iff.mp step
        exact S.proceed ((A.openAt opens).perm List.perm_middle.symm) (flag.trans (by simp)) (Or.inl (by simp))
          fun _ => unstarted
  · rename_i sock woken
    cases step
    have waits := S.waits (Or.inr ⟨sock, woken⟩)
    rw [woken] at A flag
    exact S.proceed (Accounts.close (A.perm List.perm_middle)) (flag.trans (by simp)) (Or.inl (by simp)) fun _ => waits
  · rename_i joining
    split_ifs at step with ended
    cases step
    rw [joining] at A flag
    exact S.proceed A (flag.trans (by simp)) (Or.inr (Or.inr ended)) (by simp)
  · rename_i b rest freeing
    cases step
    rw [freeing] at A flag joined
    exact S.proceed (Accounts.close (A.perm List.perm_middle)) (flag.trans (by simp))
      (Or.inr (joined.resolve_left (by simp))) (by simp)
  · rename_i freeing
    cases step
    rw [freeing] at A flag joined
    exact S.proceed A (flag.trans (by simp)) (Or.inr (joined.resolve_left (by simp))) (by simp)
  · cases step

theorem served (run : Run (ServerStep mmap) (.new serverId) past p) : p.listener = .died ∨ Served p := by
  induction run with
  | nil => exact Or.inr (served_new serverId)
  | snoc _ one ih =>
      cases one with
      | listener step =>
          rcases ih with died | S
          · simp [ServerProcess.listenerStep, died] at step
          · exact S.listener step
      | main alive step => exact Or.inr ((ih.resolve_left alive).main step)

/-- The descriptors of a server process, over every interleaving of its threads and
as long as no assertion fails: whatever was opened is held by the one who uses it,
at one number, or was closed once; at most the listening socket, one connection and
the wake-up are open beside the buffers; and the destructor leaves nothing open and
no socket file behind. -/
theorem server_descriptors (run : Run (ServerStep mmap) (.new serverId) past p) (alive : p.listener ≠ .died) :
    (∀ d kind, p.table.opened[d]? = some kind →
      (p.table.closes.count (some d) = 0 ∧ ∃ fd, (fd, kind) ∈ p.held ∧ p.table.slot fd = some d) ∨
        (p.table.closes.count (some d) = 1 ∧ ∀ fd, p.table.slot fd ≠ some d)) ∧
      none ∉ p.table.closes ∧ p.held.length ≤ p.unfreed.length + 3 ∧
      (p.main = .destroyed → p.table.Shut ∧ p.bound = false) := by
  have S := (served run).resolve_left alive
  refine ⟨fun d kind opened => S.accounts.once opened, S.accounts.hits, ?_, ?_⟩
  · have listener : p.listener.held.length ≤ 2 := by
      cases p.listener <;> simp [ListenerPc.held]
    have wake : p.wakeHeld.length ≤ 1 := by
      unfold ServerProcess.wakeHeld
      split <;> simp
    rw [ServerProcess.held, List.length_append, List.length_append, List.length_map]
    omega
  · intro destroyed
    have ended := S.joined.resolve_left (by simp [destroyed])
    have A := S.accounts
    rw [ServerProcess.held, ServerProcess.wakeHeld, ServerProcess.unfreed, destroyed] at A
    have bound := S.bound
    rcases ended with none | returned
    · rw [none] at A bound
      exact ⟨A.shut, bound⟩
    · rw [returned] at A bound
      exact ⟨A.shut, bound⟩

end serving

/-- Two buffers, a poll that is interrupted, and a client that is being answered while
the server is destroyed. -/
def servedThrough : List ServerEvent :=
  [.main (.create (.createBuffers 0 2 4 4) [3, 4] (some 5)), .main .startListener, .listener (.socket 5),
    .listener .go, .listener (.polled (.failed EINTR)), .listener .go, .listener (.polled (.returned true)),
    .listener .go, .listener (.accepted 6), .listener (.received (some 0))]

def destroyedAfter : List ServerEvent :=
  [.main (.wake (.connected 7)), .listener (.replied true), .main .go, .listener .go, .listener .go,
    .main .go, .main .go, .main .go, .main .go]

theorem server_descriptors_served : ∃ p,
    Run (ServerStep id) (.new 7) (servedThrough ++ .main .destroy :: destroyedAfter) p ∧
      p.table.opened = [.buffer, .buffer, .queue, .listening, .accepted, .wake] ∧ p.table.Shut ∧ p.bound = false := by
  have ends : ((servedThrough ++ ServerEvent.main .destroy :: destroyedAfter).foldlM (ServerProcess.step id)
      (.new 7)).map (fun p => (p.listener, p.main, p.table.opened)) =
      some (.returned, .destroyed, [.buffer, .buffer, .queue, .listening, .accepted, .wake]) := by decide +kernel
  obtain ⟨p, steps, same⟩ := Option.map_eq_some_iff.mp ends
  simp only [Prod.mk.injEq] at same
  obtain ⟨listener, main, opened⟩ := same
  exact ⟨p, steps_run steps, opened, (server_descriptors (steps_run steps) (by simp [listener])).2.2.2 main⟩

section shutdown
variable {mmap : Nat → Nat} {p p' : ServerProcess} {e : ServerEvent} {past : List ServerEvent} {serverId : Nat}

/-! Shutting down. -/

/-- The steps that the listener has left once the flag is set. -/
def ListenerPc.left : ListenerPc → Nat
  | .none | .returned | .died => 0
  | .closing _ => 1
  | .head _ | .polled _ _ | .refused _ => 2
  | .bind | .poll _ | .reply _ _ _ => 3
  | .request _ _ => 4
  | .accept _ => 5

def ServerProcess.mainLeft (p : ServerProcess) : Nat :=
  match p.main with
  | .live => p.server.allBuffers.length + 5
  | .exiting => p.server.allBuffers.length + 4
  | .woken _ => p.server.allBuffers.length + 3
  | .joining => p.server.allBuffers.length + 2
  | .freeing rest => rest.length + 1
  | .destroyed => 0

def ServerProcess.left (p : ServerProcess) : Nat := p.listener.left + p.mainLeft

theorem listener_left {input : ListenerInput} (flag : p.shouldExit = true) (step : p.listenerStep input = some p') :
    p'.listener.left < p.listener.left ∧ p'.shouldExit = true ∧ p'.main = p.main ∧ p'.server = p.server := by
  unfold ServerProcess.listenerStep at step
  rw [flag] at step
  split at step
  · rename_i pc
    obtain ⟨t, -, rfl⟩ := Option.map_eq_some_iff.mp step
    simp [pc, ListenerPc.left]
  · rename_i pc
    cases step
    simp [pc, ListenerPc.left]
  · rename_i pc
    split_ifs at step <;> cases step <;> simp [pc, ListenerPc.left]
  · rename_i pc
    cases step
    simp [pc, ListenerPc.left]
  · rename_i pc
    cases step
    simp [pc, ListenerPc.left]
  · rename_i pc
    obtain ⟨t, -, rfl⟩ := Option.map_eq_some_iff.mp step
    simp [pc, ListenerPc.left]
  · rename_i pc
    cases step
    simp [pc, flag, ListenerPc.left, ServerProcess.hangUp]
  · rename_i pc
    cases step
    simp [pc, ListenerPc.left]
  · rename_i pc
    split at step
    · cases step
      simp [pc, flag, ListenerPc.left, ServerProcess.hangUp]
    · cases step
      simp [pc, ListenerPc.left]
    · split_ifs at step <;> cases step <;> simp [pc, flag, ListenerPc.left, ServerProcess.hangUp]
  · rename_i pc
    cases step
    simp [pc, ListenerPc.left]
  · rename_i pc
    cases step
    simp [pc, ListenerPc.left]
  · cases step

theorem main_left {input : MainInput} (flag : p.shouldExit = true) (exits : p.main ≠ .live)
    (step : p.mainStep mmap input = some p') :
    p'.mainLeft < p.mainLeft ∧ p'.shouldExit = true ∧ p'.main ≠ .live ∧ p'.listener = p.listener ∧ p'.server = p.server := by
  unfold ServerProcess.mainStep at step
  split at step
  · exact absurd ‹_› exits
  · exact absurd ‹_› exits
  · exact absurd ‹_› exits
  · rename_i exiting
    split_ifs at step
    cases step
    simp [ServerProcess.mainLeft, exiting, flag]
  · rename_i a exiting
    split_ifs at step
    cases a with
    | noSocket =>
        cases step
        simp [ServerProcess.mainLeft, exiting, flag]
    | refused sock =>
        obtain ⟨t, -, rfl⟩ := Option.map_eq_some_iff.mp step
        simp [ServerProcess.mainLeft, exiting, flag]
    | connected sock =>
        obtain ⟨t, -, rfl⟩ := Option.map_eq_some_iff.mp step
        simp [ServerProcess.mainLeft, exiting, flag]
  · rename_i woken
    cases step
    simp [ServerProcess.mainLeft, woken, flag]
  · rename_i joining
    split_ifs at step
    cases step
    simp [ServerProcess.mainLeft, joining, flag]
  · rename_i freeing
    cases step
    simp [ServerProcess.mainLeft, freeing, flag]
  · rename_i freeing
    cases step
    simp [ServerProcess.mainLeft, freeing, flag]
  · cases step

/-- Behind the flag every step leaves less to do. -/
theorem server_left (flag : p.shouldExit = true) (exits : p.main ≠ .live) (step : ServerStep mmap p e p') :
    p'.left < p.left ∧ p'.shouldExit = true ∧ p'.main ≠ .live ∧ p'.server = p.server := by
  cases step with
  | listener step =>
      obtain ⟨less, flag', main, server⟩ := listener_left flag step
      have same : p'.mainLeft = p.mainLeft := by
        rw [ServerProcess.mainLeft, ServerProcess.mainLeft, main, server]
      refine ⟨?_, flag', main ▸ exits, server⟩
      rw [ServerProcess.left, ServerProcess.left, same]
      omega
  | main _ step =>
      obtain ⟨less, flag', exits', listener, server⟩ := main_left flag exits step
      refine ⟨?_, flag', exits', server⟩
      rw [ServerProcess.left, ServerProcess.left, listener]
      omega

theorem run_left (flag : p.shouldExit = true) (exits : p.main ≠ .live) (run : Run (ServerStep mmap) p past p') :
    past.length + p'.left ≤ p.left ∧ p'.shouldExit = true ∧ p'.main ≠ .live ∧ p'.server = p.server := by
  refine run.invariant (I := fun past p' => past.length + p'.left ≤ p.left ∧ p'.shouldExit = true ∧
    p'.main ≠ .live ∧ p'.server = p.server) ⟨by simp, flag, exits, rfl⟩ ?_
  rintro past q e r - ⟨less, flag, exits, server⟩ step
  obtain ⟨less', flag', exits', server'⟩ := server_left flag exits step
  refine ⟨?_, flag', exits', server'.trans server⟩
  rw [List.length_append, List.length_singleton]
  omega

/-! Who waits for whom. -/

def ServerEvent.receives : ServerEvent → Bool
  | .listener (.received _) => true
  | .listener .go | .listener (.socket _) | .listener (.polled _) | .listener (.accepted _)
  | .listener (.replied _) | .main _ => false

/-- The steps that need nobody else: `recvmsg` waits for the client of the connection,
and `connect` for the listener as long as there is one. -/
def ServerProcess.Own (p : ServerProcess) : ServerEvent → Prop
  | .listener (.received _) => False
  | .main (.wake _) => p.listener = .returned
  | .listener .go | .listener (.socket _) | .listener (.polled _) | .listener (.accepted _)
  | .listener (.replied _) | .main (.create _ _ _) | .main .startListener | .main .destroy | .main .go => True

/-- The listener reads the request of a client, and goes on with whatever it sends and
when it hangs up. -/
def ServerProcess.Asks (mmap : Nat → Nat) (p : ServerProcess) : Prop :=
  ∃ sock fd, p.listener = .request sock fd ∧
    ∀ message, ∃ p', ServerStep mmap p (.listener (.received message)) p'

/-- The requests that the listener has yet to read once the flag is set. -/
def ListenerPc.requests : ListenerPc → Nat
  | .accept _ | .request _ _ => 1
  | .none | .bind | .head _ | .poll _ | .polled _ _ | .reply _ _ _ | .refused _ | .closing _ | .returned | .died => 0

theorem listener_requests {input : ListenerInput} (flag : p.shouldExit = true) (step : p.listenerStep input = some p') :
    p'.listener.requests + (if (ServerEvent.listener input).receives then 1 else 0) ≤ p.listener.requests := by
  unfold ServerProcess.listenerStep at step
  rw [flag] at step
  split at step
  · rename_i pc
    obtain ⟨t, -, rfl⟩ := Option.map_eq_some_iff.mp step
    simp [pc, ListenerPc.requests, ServerEvent.receives]
  · rename_i pc
    cases step
    simp [pc, ListenerPc.requests, ServerEvent.receives]
  · rename_i pc
    split_ifs at step <;> cases step <;> simp [pc, ListenerPc.requests, ServerEvent.receives]
  · rename_i pc
    cases step
    simp [pc, ListenerPc.requests, ServerEvent.receives]
  · rename_i pc
    cases step
    simp [pc, ListenerPc.requests, ServerEvent.receives]
  · rename_i pc
    obtain ⟨t, -, rfl⟩ := Option.map_eq_some_iff.mp step
    simp [pc, ListenerPc.requests, ServerEvent.receives]
  · rename_i pc
    cases step
    simp [pc, ListenerPc.requests, ServerEvent.receives, ServerProcess.hangUp]
  · rename_i pc
    cases step
    simp [pc, ListenerPc.requests, ServerEvent.receives]
  · rename_i pc
    split at step
    · cases step
      simp [pc, ListenerPc.requests, ServerEvent.receives, ServerProcess.hangUp]
    · cases step
      simp [pc, ListenerPc.requests, ServerEvent.receives]
    · split_ifs at step <;> cases step <;>
        simp [pc, ListenerPc.requests, ServerEvent.receives, ServerProcess.hangUp]
  · rename_i pc
    cases step
    simp [pc, ListenerPc.requests, ServerEvent.receives]
  · rename_i pc
    cases step
    simp [pc, ListenerPc.requests, ServerEvent.receives]
  · cases step

theorem run_requests (flag : p.shouldExit = true) (exits : p.main ≠ .live) (run : Run (ServerStep mmap) p past p') :
    past.countP ServerEvent.receives ≤ 1 := by
  have all : p'.listener.requests + past.countP ServerEvent.receives ≤ p.listener.requests ∧
      p'.shouldExit = true ∧ p'.main ≠ .live := by
    refine run.invariant (I := fun past p' => p'.listener.requests + past.countP ServerEvent.receives ≤
      p.listener.requests ∧ p'.shouldExit = true ∧ p'.main ≠ .live) ⟨le_refl _, flag, exits⟩ ?_
    rintro past q e r - ⟨less, flag, exits⟩ step
    obtain ⟨-, flag', exits', -⟩ := server_left flag exits step
    refine ⟨?_, flag', exits'⟩
    rw [List.countP_append, List.countP_singleton]
    cases step with
    | listener step =>
        have once := listener_requests flag step
        omega
    | main _ step =>
        rw [(main_left flag exits step).2.2.2.1]
        exact less
  have start : p.listener.requests ≤ 1 := by cases p.listener <;> simp [ListenerPc.requests]
  omega

/-- A listener that is up goes on by itself or reads a request. -/
theorem Served.listener_goes (S : Served p) (up : p.listener ≠ .none ∧ p.listener ≠ .returned)
    (alive : p.listener ≠ .died) : (∃ e p', p.Own e ∧ ServerStep mmap p e p') ∨ p.Asks mmap := by
  obtain ⟨server, table, shouldExit, main, listener, bound⟩ := p
  cases listener with
  | none => exact absurd rfl up.1
  | bind =>
      obtain ⟨fd, t, opens⟩ := S.accounts.opens .listening
      exact Or.inl ⟨.listener (.socket fd), _, trivial, .listener (congrArg (Option.map _) opens)⟩
  | head sock => exact Or.inl ⟨.listener .go, _, trivial, .listener rfl⟩
  | poll sock => exact Or.inl ⟨.listener (.polled (.returned false)), _, trivial, .listener rfl⟩
  | polled sock revents => exact Or.inl ⟨.listener .go, _, trivial, .listener rfl⟩
  | accept sock =>
      obtain ⟨fd, t, opens⟩ := S.accounts.opens .accepted
      exact Or.inl ⟨.listener (.accepted fd), _, trivial, .listener (congrArg (Option.map _) opens)⟩
  | request sock fd =>
      refine Or.inr ⟨sock, fd, rfl, fun message => ?_⟩
      cases message with
      | none => exact ⟨_, .listener rfl⟩
      | some type => exact ⟨_, .listener rfl⟩
  | reply sock fd type =>
      have goes : ∃ p', ServerProcess.listenerStep ⟨server, table, shouldExit, main, .reply sock fd type, bound⟩
          (.replied true) = some p' := by
        cases replies : server.listener type <;> simp [ServerProcess.listenerStep, replies]
      obtain ⟨p', step⟩ := goes
      exact Or.inl ⟨.listener (.replied true), p', trivial, .listener step⟩
  | refused sock => exact Or.inl ⟨.listener .go, _, trivial, .listener rfl⟩
  | closing sock => exact Or.inl ⟨.listener .go, _, trivial, .listener rfl⟩
  | returned => exact absurd rfl up.2
  | died => exact absurd rfl alive

theorem Served.goes (S : Served p) (flag : p.shouldExit = true) (alive : p.listener ≠ .died) :
    p.main = .destroyed ∨ (∃ e p', p.Own e ∧ ServerStep mmap p e p') ∨ p.Asks mmap := by
  obtain ⟨server, table, shouldExit, main, listener, bound⟩ := p
  cases main with
  | live =>
      have unset := S.flag.mpr rfl
      rw [flag] at unset
      cases unset
  | exiting =>
      by_cases unstarted : listener = .none
      · exact Or.inr (Or.inl ⟨.main .go, _, trivial, .main alive (if_pos unstarted)⟩)
      by_cases ended : listener = .returned
      · -- nobody listens any more, so connect fails
        obtain ⟨sock, t, opens⟩ := S.accounts.opens .wake
        have wakes : ServerProcess.mainStep mmap ⟨server, table, shouldExit, .exiting, listener, bound⟩
            (.wake (.refused sock)) = some ⟨server, t.close sock, shouldExit, .joining, listener, bound⟩ :=
          (if_neg unstarted).trans (congrArg (Option.map _) opens)
        exact Or.inr (Or.inl ⟨.main (.wake (.refused sock)), _, ended, .main alive wakes⟩)
      · exact Or.inr (S.listener_goes ⟨unstarted, ended⟩ alive)
  | woken sock => exact Or.inr (Or.inl ⟨.main .go, _, trivial, .main alive rfl⟩)
  | joining =>
      by_cases ended : listener = .returned
      · exact Or.inr (Or.inl ⟨.main .go, _, trivial, .main alive (if_pos ended)⟩)
      · exact Or.inr (S.listener_goes ⟨S.waits (Or.inl rfl), ended⟩ alive)
  | freeing rest => cases rest <;> exact Or.inr (Or.inl ⟨.main .go, _, trivial, .main alive rfl⟩)
  | destroyed => exact Or.inl rfl

theorem destroy_begins (step : ServerStep mmap p (.main .destroy) p') :
    p' = { p with shouldExit := true, main := .exiting } := by
  obtain ⟨server, table, shouldExit, main, listener, bound⟩ := p
  cases step with
  | main _ step => cases main with
    | live =>
        cases step
        rfl
    | exiting | woken | joining | destroyed => cases step
    | freeing rest => cases rest <;> cases step

/-- A destructor waits for nobody but one client, whatever the listener is doing when
the flag is set and whoever still connects: the two threads have a bounded number of
steps left, at most one of them reads a request, and until the last of them one of the
two can go on by itself or the listener reads a request. -/
theorem shutdown_ends {before after : List ServerEvent}
    (run : Run (ServerStep mmap) (.new serverId) (before ++ .main .destroy :: after) p) :
    after.length ≤ p.server.allBuffers.length + 9 ∧ after.countP ServerEvent.receives ≤ 1 ∧
      (p.listener = .died ∨ p.main = .destroyed ∨ (∃ e p', p.Own e ∧ ServerStep mmap p e p') ∨ p.Asks mmap) := by
  obtain ⟨q, -, rest⟩ := run.split
  obtain ⟨r, one, rest⟩ := Run.split (show Run _ q ([ServerEvent.main .destroy] ++ after) p from rest)
  obtain ⟨q', -, one⟩ := Run.last (show Run _ q ([] ++ [ServerEvent.main .destroy]) r from one)
  cases destroy_begins one
  obtain ⟨less, flag, -, same⟩ := run_left rfl (by simp) rest
  refine ⟨?_, run_requests rfl (by simp) rest, ?_⟩
  · have start : q'.listener.left ≤ 5 := by cases q'.listener <;> simp [ListenerPc.left]
    dsimp only [ServerProcess.left, ServerProcess.mainLeft] at less same
    rw [same]
    omega
  · rcases served run with died | S
    · exact Or.inl died
    · by_cases died : p.listener = .died
      · exact Or.inl died
      · exact Or.inr (S.goes flag died)

end shutdown

/-- A client that has connected and is silent when the server is destroyed. -/
def silentClient : List ServerEvent :=
  [.main (.create (.createBuffers 0 2 4 4) [3, 4] (some 5)), .main .startListener, .listener (.socket 5),
    .listener .go, .listener (.polled (.returned true)), .listener .go, .listener (.accepted 6)]

/-- The main thread joins and the client is silent for ever; once it hangs up, both
threads end. -/
theorem shutdown_ends_silent :
    (∃ p, Run (ServerStep id) (.new 7) (silentClient ++ .main .destroy :: [.main (.wake (.connected 7)), .main .go]) p ∧
      p.main = .joining ∧ p.listener = .request 5 6) ∧
    ∃ p, Run (ServerStep id) (.new 7) (silentClient ++ .main .destroy ::
        [.main (.wake (.connected 7)), .main .go, .listener (.received none), .listener .go, .listener .go,
          .main .go, .main .go, .main .go]) p ∧
      8 ≤ p.server.allBuffers.length + 9 ∧
      (p.listener = .died ∨ p.main = .destroyed ∨ (∃ e p', p.Own e ∧ ServerStep id p e p') ∨ p.Asks id) := by
  constructor
  · have ends : ((silentClient ++ ServerEvent.main .destroy :: [.main (.wake (.connected 7)), .main .go]).foldlM
        (ServerProcess.step id) (.new 7)).map (fun p => (p.main, p.listener)) = some (.joining, .request 5 6) := by
      decide +kernel
    obtain ⟨p, steps, same⟩ := Option.map_eq_some_iff.mp ends
    exact ⟨p, steps_run steps, congrArg Prod.fst same, congrArg Prod.snd same⟩
  · have goes : ((silentClient ++ ServerEvent.main .destroy :: [.main (.wake (.connected 7)), .main .go,
        .listener (.received none), .listener .go, .listener .go, .main .go, .main .go, .main .go]).foldlM
        (ServerProcess.step id) (.new 7)).isSome = true := by decide +kernel
    obtain ⟨p, steps⟩ := Option.isSome_iff_exists.mp goes
    obtain ⟨bound, -, ends⟩ := shutdown_ends (steps_run steps)
    exact ⟨p, steps_run steps, bound, ends⟩

end Msgq
