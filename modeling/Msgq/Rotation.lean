import Msgq.Indexing
import Msgq.Traces

/-! The order in which a server hands out the buffers of a stream. The automatic
calls take them in turn behind a counter, and an explicit one moves the counter. -/
namespace Msgq
open Traces

/-- A call of `get_buffer` with the buffer it returned. -/
structure Hand where
  type : VisionStreamType
  idx : Int
  buf : VisionBuf

inductive HandStep : VisionIpcServer → Hand → VisionIpcServer → Prop
  | hand {s s' type idx buf} : s.getBuffer type idx = some (buf, s') → HandStep s ⟨type, idx, buf⟩ s'

/-- The calls for one stream. -/
def handsOf (type : VisionStreamType) (past : List Hand) : List Hand := past.filter fun e => e.type = type

/-- A buffer comes back in an automatic call only behind each of the others. -/
def ReuseDistance (bufs : List VisionBuf) (hands : List Hand) : Prop :=
  ∀ before first between again after, hands = before ++ first :: (between ++ again :: after) → again.idx < 0 →
    again.buf = first.buf → ∀ b ∈ bufs, b ≠ first.buf → ∃ e ∈ between, e.buf = b

/-- No automatic call comes next behind an explicit one. -/
def NeverRewinds (hands : List Hand) : Prop :=
  ∀ before first next after, hands = before ++ first :: next :: after → next.idx < 0 → first.idx < 0

/-- The counter of a stream behind a call for it. -/
def advance (cur : Nat) (e : Hand) : Nat := if e.idx < 0 then (cur + 1) % 2 ^ 64 else e.idx.toNat

/-- The place of the buffer that a call takes from `n`, where the counter is `cur`. -/
def place (n cur : Nat) (e : Hand) : Nat := if e.idx < 0 then cur % n else e.idx.toNat

/-- Every call was handed what the counter says, which starts from `cur`. -/
def Serves (bufs : List VisionBuf) : Nat → List Hand → Prop
  | _, [] => True
  | cur, e :: es => bufs[place bufs.length cur e]? = some e.buf ∧ Serves bufs (advance cur e) es

/-- Between two turns of one place each of the others has a turn. -/
theorem turn_between {n i j k : Nat} (later : j < k) (same : j % n = k % n) (inside : i < n) (other : i ≠ j % n) :
    ∃ m, j < m ∧ m < k ∧ m % n = i := by
  have first : n * (j / n) + j % n = j := Nat.div_add_mod j n
  have second : n * (k / n) + k % n = k := Nat.div_add_mod k n
  have low : j % n < n := Nat.mod_lt _ (Nat.zero_lt_of_lt inside)
  have rounds : j / n < k / n := by
    by_contra back
    have := Nat.mul_le_mul_left n (Nat.not_lt.mp back)
    omega
  have whole : n * (j / n) + n ≤ n * (k / n) := by
    rw [← Nat.mul_succ]
    exact Nat.mul_le_mul_left n rounds
  rcases Nat.lt_or_gt_of_ne other with before | behind
  · refine ⟨n * (j / n) + n + i, by omega, by omega, ?_⟩
    rw [← Nat.mul_succ, Nat.mul_add_mod]
    exact Nat.mod_eq_of_lt inside
  · refine ⟨n * (j / n) + i, by omega, by omega, ?_⟩
    rw [Nat.mul_add_mod]
    exact Nat.mod_eq_of_lt inside

section serving
variable {bufs : List VisionBuf} {cur : Nat} {xs ys hands : List Hand} {e : Hand}

theorem serves_append : Serves bufs cur (xs ++ ys) ↔ Serves bufs cur xs ∧ Serves bufs (xs.foldl advance cur) ys := by
  induction xs generalizing cur with
  | nil => simp [Serves]
  | cons x xs ih => rw [List.cons_append, Serves, Serves, ih, List.foldl_cons, and_assoc]

/-- Automatic calls count. -/
theorem foldl_advance (automatic : ∀ x ∈ xs, x.idx < 0) (few : cur + xs.length < 2 ^ 64) :
    xs.foldl advance cur = cur + xs.length := by
  induction xs generalizing cur with
  | nil => rfl
  | cons x xs ih =>
      rw [List.length_cons] at few ⊢
      have one : advance cur x = cur + 1 := by
        rw [advance, if_pos (automatic x List.mem_cons_self)]
        exact Nat.mod_eq_of_lt (by omega)
      rw [List.foldl_cons, one, ih (fun y mem => automatic y (List.mem_cons_of_mem x mem)) (by omega)]
      omega

/-- The call behind some automatic ones, itself automatic. -/
theorem Serves.turn (S : Serves bufs 0 (xs ++ e :: ys)) (automatic : ∀ x ∈ xs, x.idx < 0) (auto : e.idx < 0)
    (few : xs.length < 2 ^ 64) : bufs[xs.length % bufs.length]? = some e.buf := by
  have here := (serves_append.mp S).2.1
  rwa [foldl_advance automatic (by rwa [Nat.zero_add]), Nat.zero_add, place, if_pos auto] at here

theorem automatic_before (never : NeverRewinds (xs ++ e :: ys)) (auto : e.idx < 0) : ∀ x ∈ xs, x.idx < 0 := by
  induction xs using List.reverseRecOn generalizing e ys with
  | nil => simp
  | append_singleton xs y ih =>
      rw [List.append_assoc] at never
      have last : y.idx < 0 := never xs y e ys rfl auto
      intro x mem
      rcases List.mem_append.mp mem with old | new
      · exact ih never last x old
      · exact List.mem_singleton.mp new ▸ last

/-- As long as all calls are automatic, the `i`-th takes the place `i`, counted round. -/
theorem Serves.nth {i : Nat} (S : Serves bufs 0 (xs ++ ys)) (automatic : ∀ x ∈ xs, x.idx < 0)
    (few : xs.length ≤ 2 ^ 64) (at_i : xs[i]? = some e) : bufs[i % bufs.length]? = some e.buf := by
  obtain ⟨inside, rfl⟩ := List.getElem?_eq_some_iff.mp at_i
  have split : xs ++ ys = xs.take i ++ xs[i] :: (xs.drop (i + 1) ++ ys) := by
    rw [← List.cons_append, List.getElem_cons_drop, ← List.append_assoc, List.take_append_drop]
  have length : (xs.take i).length = i := by
    rw [List.length_take]
    exact Nat.min_eq_left (Nat.le_of_lt inside)
  rw [split] at S
  have turn := S.turn (fun x mem => automatic x (List.mem_of_mem_take mem)) (automatic _ (List.getElem_mem inside))
    (by rw [length]; exact Nat.lt_of_lt_of_le inside few)
  rwa [length] at turn

/-- Without rewinding, all the buffers take turns. -/
theorem Serves.distance (S : Serves bufs 0 hands) (different : bufs.Nodup) (few : hands.length < 2 ^ 64)
    (never : NeverRewinds hands) : ReuseDistance bufs hands := by
  rintro before first between again after rfl auto same b mem ne
  have S' : Serves bufs 0 (before ++ first :: (between ++ [again]) ++ after) := by simpa using S
  have automatic : ∀ x ∈ before ++ first :: (between ++ [again]), x.idx < 0 := by
    have never' : NeverRewinds (before ++ first :: between ++ again :: after) := by
      rwa [List.append_assoc, List.cons_append]
    have early := automatic_before never' auto
    rw [← List.cons_append, ← List.append_assoc]
    exact List.forall_mem_append.mpr ⟨early, List.forall_mem_singleton.mpr auto⟩
  have short : (before ++ first :: (between ++ [again])).length ≤ 2 ^ 64 := by
    simp only [List.length_append, List.length_cons, List.length_nil] at few ⊢
    omega
  have started : bufs[before.length % bufs.length]? = some first.buf := S'.nth automatic short (by simp)
  have came_back : bufs[(before.length + (between.length + 1)) % bufs.length]? = some first.buf := by
    rw [← same]
    exact S'.nth automatic short (by simp)
  obtain ⟨i, inside, rfl⟩ := List.mem_iff_getElem.mp mem
  have room : before.length % bufs.length < bufs.length := Nat.mod_lt _ (Nat.zero_lt_of_lt inside)
  have places : before.length % bufs.length = (before.length + (between.length + 1)) % bufs.length :=
    (List.getElem?_inj room different).mp (started.trans came_back.symm)
  have other : i ≠ before.length % bufs.length := by
    rintro rfl
    rw [List.getElem?_eq_getElem inside] at started
    exact ne (Option.some.inj started)
  obtain ⟨m, later, earlier, taken⟩ := turn_between (by omega) places inside other
  -- the turn at `m` lies between the two
  obtain ⟨k, rfl⟩ := Nat.exists_eq_add_of_lt later
  have within : k < between.length := by omega
  refine ⟨between[k], List.getElem_mem within, ?_⟩
  have place : (before ++ first :: (between ++ [again]))[before.length + k + 1]? = some between[k] := by
    rw [Nat.add_assoc, List.getElem?_append_right (Nat.le_add_right _ _), Nat.add_sub_cancel_left,
      List.getElem?_cons_succ, List.getElem?_append_left within, List.getElem?_eq_getElem within]
  have here := S'.nth automatic short place
  rw [taken, List.getElem?_eq_getElem inside] at here
  exact (Option.some.inj here).symm

/-- An automatic call that comes next behind an explicit one gets the same buffer. -/
theorem Serves.rewind {first next : Hand} (S : Serves bufs cur (xs ++ first :: next :: ys)) (explicit : ¬ first.idx < 0)
    (auto : next.idx < 0) : next.buf = first.buf := by
  obtain ⟨-, taken, again, -⟩ := serves_append.mp S
  rw [place, if_neg explicit] at taken
  have inside : first.idx.toNat < bufs.length := (List.getElem?_eq_some_iff.mp taken).1
  rw [place, if_pos auto, advance, if_neg explicit, Nat.mod_eq_of_lt inside, taken] at again
  exact (Option.some.inj again).symm

/-- Buffers keep their distance exactly where the counter never falls back. -/
theorem Serves.distance_iff (S : Serves bufs 0 hands) (different : bufs.Nodup) (few : hands.length < 2 ^ 64) :
    ReuseDistance bufs hands ↔ bufs.length ≤ 1 ∨ NeverRewinds hands := by
  constructor
  · intro distance
    by_contra both
    obtain ⟨several, rewinds⟩ := not_or.mp both
    refine rewinds ?_
    rintro before first next after rfl auto
    by_contra explicit
    have same := S.rewind explicit auto
    have alone : ∀ b ∈ bufs, b = first.buf := by
      intro b mem
      by_contra ne
      obtain ⟨e, none, -⟩ := distance before first [] next after rfl auto same b mem ne
      cases none
    rw [List.eq_replicate_iff.mpr ⟨rfl, alone⟩] at different
    exact several (List.nodup_replicate.mp different)
  · rintro (one | never)
    · rintro before first between again after rfl auto same b mem ne
      have taken := (serves_append.mp S).2.1
      obtain ⟨inside, there⟩ := List.getElem?_eq_some_iff.mp taken
      obtain ⟨i, inside', rfl⟩ := List.mem_iff_getElem.mp mem
      refine absurd ?_ ne
      rw [← there]
      congr 1
      omega
    · exact S.distance different few never

end serving

section servers
variable {mmap : Nat → Nat} {s s' : VisionIpcServer} {type : VisionStreamType} {bufs : List VisionBuf} {idx : Int}
  {buf : VisionBuf} {past : List Hand} {e : Hand}

/-- A call takes the buffer that the counter or its index says, and moves the counter. -/
theorem getBuffer_counter (hands : s.getBuffer type idx = some (buf, s')) :
    ∃ bufs, s.buffers.lookup type = some bufs ∧
    bufs[place bufs.length (s.curIdx type) ⟨type, idx, buf⟩]? = some buf ∧ s'.buffers = s.buffers ∧
      s'.curIdx = Function.update s.curIdx type (advance (s.curIdx type) ⟨type, idx, buf⟩) := by
  rw [VisionIpcServer.getBuffer] at hands
  rw [advance]
  split at hands
  · cases hands
  · rename_i bufs has
    refine ⟨bufs, has, ?_⟩
    rw [place]
    split_ifs at hands ⊢
    · obtain ⟨_, taken, same⟩ := Option.map_eq_some_iff.mp hands
      cases same
      exact ⟨taken, rfl, rfl⟩
    · obtain ⟨_, taken, same⟩ := Option.map_eq_some_iff.mp hands
      cases same
      exact ⟨taken, rfl, rfl⟩

/-- The calls for other streams leave a stream alone. -/
theorem handsOf_run (has : s.buffers.lookup type = some bufs) (run : Run HandStep s past s') :
    s'.buffers.lookup type = some bufs ∧ s'.curIdx type = (handsOf type past).foldl advance (s.curIdx type) ∧
      Serves bufs (s.curIdx type) (handsOf type past) := by
  induction run with
  | nil => exact ⟨has, rfl, trivial⟩
  | @snoc past t e u run one ih =>
      obtain ⟨kept, counter, serves⟩ := ih
      cases one with
      | @hand _ type' idx buf hands =>
          obtain ⟨bufs', has', taken, buffers, moves⟩ := getBuffer_counter hands
          refine ⟨by rw [buffers]; exact kept, ?_⟩
          rw [moves, handsOf, List.filter_append, ← handsOf]
          by_cases same : type' = type
          · subst same
            have last : handsOf type' [⟨type', idx, buf⟩] = [⟨type', idx, buf⟩] := by simp [handsOf]
            obtain rfl : bufs' = bufs := Option.some.inj (has'.symm.trans kept)
            rw [← handsOf, last, Function.update_self, List.foldl_append, serves_append, ← counter]
            exact ⟨rfl, serves, taken, trivial⟩
          · have none : handsOf type [⟨type', idx, buf⟩] = [] := by simp [handsOf, same]
            rw [← handsOf, none, List.append_nil, Function.update_of_ne (Ne.symm same)]
            exact ⟨counter, serves⟩

theorem foldl_pushBuffer_curIdx {width height size stride uvOffset : Nat} (is : List Nat) :
    (is.foldl (VisionIpcServer.pushBuffer mmap type width height size stride uvOffset) s).curIdx = s.curIdx := by
  induction is generalizing s with
  | nil => rfl
  | cons i is ih => exact ih

theorem run_curIdx {c : CreateCall} (accepts : c.run mmap s = some s') (zero : ∀ type, s.curIdx type = 0) :
    ∀ type, s'.curIdx type = 0 := by
  have sizes : ∀ type n width height size stride uvOffset type',
      (s.createBuffersWithSizes mmap type n width height size stride uvOffset).curIdx type' = 0 := by
    intro type n width height size stride uvOffset type'
    rw [VisionIpcServer.createBuffersWithSizes]
    dsimp only
    rw [foldl_pushBuffer_curIdx, Function.update_apply, zero type', ite_self]
  cases c with
  | createBuffers type n width height =>
      rw [CreateCall.run, VisionIpcServer.createBuffers] at accepts
      split_ifs at accepts
      cases accepts
      exact sizes _ _ _ _ _ _ _
  | createBuffersWithSizes type n width height size stride uvOffset =>
      cases accepts
      exact sizes _ _ _ _ _ _ _

/-- The counters of a server that was only asked to create buffers are 0. -/
theorem createAll_curIdx {calls : List CreateCall} (accepts : createAll mmap s calls = some s')
    (zero : ∀ type, s.curIdx type = 0) : ∀ type, s'.curIdx type = 0 := by
  induction calls generalizing s with
  | nil =>
      cases accepts
      exact zero
  | cons c cs ih =>
      obtain ⟨t, one, rest⟩ := Option.bind_eq_some_iff.mp accepts
      exact ih rest (run_curIdx one zero)

end servers

/-- Over every run of calls for any streams, the buffers of a stream keep their
distance exactly where it has one only or never falls back. -/
theorem reuse_distance_iff {mmap : Nat → Nat} {serverId fd : Nat} {calls : List CreateCall} {s s' : VisionIpcServer}
    {type : VisionStreamType} {bufs : List VisionBuf} {past : List Hand}
    (accepted : createAll mmap (.new serverId fd) calls = some s) (has : s.buffers.lookup type = some bufs)
    (run : Run HandStep s past s') (few : past.length < 2 ^ 64) :
    ReuseDistance bufs (handsOf type past) ↔ bufs.length ≤ 1 ∨ NeverRewinds (handsOf type past) := by
  have serves := (handsOf_run has run).2.2
  rw [createAll_curIdx accepted (fun _ => rfl)] at serves
  have different : bufs.Nodup := by
    have files := (created_all accepted).files type
    rw [stream_of_lookup has] at files
    exact List.Nodup.of_map VisionBuf.fd (files.imp Nat.ne_of_lt)
  exact serves.distance_iff different (Nat.lt_of_le_of_lt (List.length_filter_le _ _) few)

/-! Executing calls. -/

def handAct (s : VisionIpcServer) (c : VisionStreamType × Int) : Option (Hand × VisionIpcServer) :=
  (s.getBuffer c.1 c.2).map fun (buf, s') => (⟨c.1, c.2, buf⟩, s')

def handAll (s : VisionIpcServer) (cs : List (VisionStreamType × Int)) : Option (List Hand × VisionIpcServer) :=
  perform handAct (fun _ _ => True) s cs

theorem handAll_run {s s' : VisionIpcServer} {cs : List (VisionStreamType × Int)} {past : List Hand}
    (ends : handAll s cs = some (past, s')) : Run HandStep s past s' := by
  have steps : ∀ c s e s', handAct s c = some (e, s') → HandStep s e s' := by
    intro c s e s' act
    obtain ⟨⟨buf, t⟩, hands, same⟩ := Option.map_eq_some_iff.mp act
    cases same
    exact .hand hands
  exact (performed ends steps).mono fun _ _ _ step => step.1

/-- Three automatic calls for a stream of two buffers, whose files are 3 and 4. -/
theorem reuse_distance_iff_automatic : ∃ s bufs past s', onlyStreamZero = some s ∧ s.buffers.lookup 0 = some bufs ∧
    Run HandStep s past s' ∧ past.map (fun e => e.buf.fd) = [3, 4, 3] ∧
      (ReuseDistance bufs (handsOf 0 past) ↔ bufs.length ≤ 1 ∨ NeverRewinds (handsOf 0 past)) := by
  have accepted : onlyStreamZero = some _ := rfl
  have ends : (onlyStreamZero.bind fun s => handAll s [(0, -1), (0, -1), (0, -1)]) = some _ := rfl
  have run := handAll_run ends
  exact ⟨_, _, _, _, accepted, rfl, run, rfl, reuse_distance_iff accepted rfl run (by decide)⟩

/-- The first buffer by its index, and then one in turn: it is the same. -/
theorem explicit_buffer_repeats : ∃ s bufs past s', onlyStreamZero = some s ∧ s.buffers.lookup 0 = some bufs ∧
    Run HandStep s past s' ∧ past.map (fun e => (e.idx, e.buf.fd)) = [(0, 3), (-1, 3)] ∧
      ¬ ReuseDistance bufs (handsOf 0 past) := by
  have accepted : onlyStreamZero = some _ := rfl
  have ends : (onlyStreamZero.bind fun s => handAll s [(0, 0), (0, -1)]) = some _ := rfl
  have run := handAll_run ends
  refine ⟨_, _, _, _, accepted, rfl, run, rfl, ?_⟩
  intro distance
  obtain ⟨e, none, -⟩ := distance [] _ [] _ [] rfl (by decide) rfl _
    (List.mem_cons_of_mem _ List.mem_cons_self) (by decide)
  cases none

end Msgq
