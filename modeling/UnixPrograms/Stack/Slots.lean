import UnixPrograms.Foundation.Contract
import UnixPrograms.Stack.Destruction
import UnixPrograms.Stack.Session

/-!
# Slots and the bytes of the segment

`attach_stack` passes its size to `shmget`, which takes it as a number of
bytes, and `push` compares COUNT with the same number as a number of elements.
Handles of any sizes are attached to one segment and used one after another,
and each access to a slot is recorded.
-/

namespace UnixPrograms
namespace Stack

open Foundation
open Ipc

/-- `sizeof(void*)`. -/
def SLOT : Int := 8

structure Memory where
  kernel : Kernel
  accesses : List Int

def touched : Op -> List Int
  | Op.store _ index _ => [index]
  | Op.load _ index => [index]
  | _ => []

def recorded (removed : Removed) (p : Pid) (op : Op) (m : Memory) :
    Option (op.Res × Memory) :=
  match m.kernel.exec removed p op with
  | none => none
  | some (answer, kernel) =>
      some
        (answer,
          { kernel := kernel
            accesses := m.accesses ++ touched op })

structure Sharing where
  memory : Memory
  handles : List (Pid × StackT)

inductive Visit where
  | attach (p : Pid) (timeoutFlag size : Int)
  /-- A call through the `n`-th handle. -/
  | call (n : Nat) (timeoutFlag : Int) (request : Request)

def visit (removed : Removed) (key : Int) (s : Sharing) :
    Visit -> Option Sharing
  | Visit.attach p timeoutFlag size =>
      match Program.eval (recorded removed p) (attachStack timeoutFlag key size)
          s.memory with
      | some (Except.ok (some handle), memory) =>
          some
            { memory := memory
              handles := s.handles ++ [(p, handle)] }
      | some (Except.ok none, memory) => some { s with memory := memory }
      | _ => none
  | Visit.call n timeoutFlag request =>
      match s.handles[n]? with
      | none => none
      | some (p, handle) =>
          match Program.eval (recorded removed p)
              (request.code timeoutFlag handle) s.memory with
          | some (Except.ok _, memory) => some { s with memory := memory }
          | _ => none

def unattached (k : Kernel) : Sharing where
  memory :=
    { kernel := k
      accesses := [] }
  handles := []

def Fits (bytes : Nat) (index : Int) : Prop :=
  0 ≤ index ∧ (index + 1) * SLOT ≤ bytes

instance (bytes : Nat) (index : Int) : Decidable (Fits bytes index) :=
  inferInstanceAs (Decidable (_ ∧ _))

/-- A push that finds the lock free and room in its handle finds room for one
more slot in the segment. -/
def RoomInSegment (bytes : Nat) (s : Sharing) : Visit -> Prop
  | Visit.attach _ _ _ => True
  | Visit.call n timeoutFlag request =>
      forall p handle, s.handles[n]? = some (p, handle) ->
        forall set, s.memory.kernel.sets handle.semId = some set ->
          ValidWait timeoutFlag -> set.val SEM_FLAG = 1 ->
            forall val, request = Request.push val ->
              set.val SEM_COUNT < handle.size ->
                (set.val SEM_COUNT + 1) * SLOT ≤ bytes

/-!
## The common objects

All processes share one segment and one set, whose COUNT and FLAG are known
between two calls.  With `IPC_PRIVATE` every process has a stack of its own, and
no call on it gets the lock.
-/

theorem recorded_eq_some {removed : Removed} {p : Pid} {op : Op}
    {m m' : Memory} {answer : op.Res}
    (h : recorded removed p op m = some (answer, m')) :
    m.kernel.exec removed p op = some (answer, m'.kernel) ∧
      m'.accesses = m.accesses ++ touched op := by
  unfold recorded at h
  split at h
  · cases h
  · rename_i answer' kernel hexec
    cases h
    exact ⟨hexec, rfl⟩

theorem recorded_call {alpha : Type} {removed : Removed} {p : Pid} {op : Op}
    {next : op.Res -> Prog alpha} {m : Memory}
    {result : Except Exit alpha × Memory}
    (hrun : Program.eval (recorded removed p) (Program.call op next) m =
      some result)
    (hquiet : touched op = []) :
    exists answer m1, m.kernel.exec removed p op = some (answer, m1.kernel) ∧
      m1.accesses = m.accesses ∧
      Program.eval (recorded removed p) (next answer) m1 = some result := by
  rcases Program.eval_call_eq_some hrun with ⟨answer, m1, hop, hrest⟩
  rcases recorded_eq_some hop with ⟨hexec, haccesses⟩
  rw [hquiet, List.append_nil] at haccesses
  exact ⟨answer, m1, hexec, haccesses, hrest⟩

structure Objects where
  shmemId : Int
  semId : Int
  bytes : Nat

/-- The objects are found by their key, and the semaphores have these values. -/
structure Common (key : Int) (objects : Objects) (k : Kernel)
    (count flag : Int) : Prop where
  shmKey : k.shmKeys key = some objects.shmemId
  semKey : k.semKeys key = some objects.semId
  segment : exists seg, k.segs objects.shmemId = some seg ∧
    seg.size = objects.bytes
  set : exists set, k.sets objects.semId = some set ∧
    set.val SEM_COUNT = count ∧ set.val SEM_FLAG = flag

def Refers (objects : Objects) (handle : StackT) : Prop :=
  handle.memory = objects.shmemId ∧ handle.semId = objects.semId

section Operations

variable {removed : Removed} {p : Pid} {key : Int} {objects : Objects}
  {k k' : Kernel} {count flag : Int}

theorem Common.fail (h : Common key objects k count flag) (e : Errno) :
    Common key objects (k.fail p e).2 count flag :=
  ⟨h.shmKey, h.semKey, h.segment, h.set⟩

theorem Common.setSem (h : Common key objects k count flag) (set : SemSet) :
    Common key objects (k.setSem objects.semId (some set))
      (set.val SEM_COUNT) (set.val SEM_FLAG) :=
  ⟨h.shmKey, h.semKey, h.segment,
    ⟨set, Kernel.setSem_sets_self _ _ _, rfl, rfl⟩⟩

theorem Common.setSeg (h : Common key objects k count flag) {seg : Segment}
    (hsize : seg.size = objects.bytes) :
    Common key objects (k.setSeg objects.shmemId (some seg)) count flag :=
  ⟨h.shmKey, h.semKey, ⟨seg, Kernel.setSeg_segs_self _ _ _, hsize⟩, h.set⟩

theorem Common.flag_semop {delta : Int} {flags : SemFlags} {answer : Answer}
    (h : Common key objects k count flag)
    (hop : k.semop removed p objects.semId SEM_FLAG delta flags =
      some (answer, k')) :
    answer.ret = 0 ∧ 0 ≤ flag + delta ∧
        Common key objects k' count (flag + delta) ∨
      answer.ret = -1 ∧ (flag + delta < 0 ∨ SEMVMX < flag + delta) ∧
        Common key objects k' count flag := by
  rcases h.set with ⟨set, hset, hcount, hflag⟩
  cases semop_result hop with
  | gone hgone =>
      rw [hset] at hgone
      cases hgone
  | refused set' e hset' _ hrange =>
      rw [hset] at hset'
      injection hset' with hset'
      rw [← hset', hflag] at hrange
      exact Or.inr ⟨rfl, hrange, h.fail e⟩
  | applied set' hset' hlow hhigh =>
      rw [hset] at hset'
      injection hset' with hset'
      rw [← hset', hflag] at hlow
      have hdone := h.setSem (set'.apply p SEM_FLAG delta flags.undo)
      rw [SemSet.apply_val_self, SemSet.apply_val_of_ne _ _ _ _ (by decide),
        ← hset', hcount, hflag] at hdone
      rw [← hset']
      exact Or.inl ⟨rfl, hlow, hdone⟩

theorem Common.count_semop {delta : Int} {flags : SemFlags} {answer : Answer}
    (h : Common key objects k count flag)
    (hop : k.semop removed p objects.semId SEM_COUNT delta flags =
      some (answer, k')) :
    Common key objects k'
      (if count + delta < 0 ∨ SEMVMX < count + delta then count
        else count + delta) flag := by
  rcases h.set with ⟨set, hset, hcount, hflag⟩
  cases semop_result hop with
  | gone hgone =>
      rw [hset] at hgone
      cases hgone
  | refused set' e hset' _ hrange =>
      rw [hset] at hset'
      injection hset' with hset'
      rw [← hset', hcount] at hrange
      rw [if_pos hrange]
      exact h.fail e
  | applied set' hset' hlow hhigh =>
      rw [hset] at hset'
      injection hset' with hset'
      rw [← hset', hcount] at hlow hhigh
      have hdone := h.setSem (set'.apply p SEM_COUNT delta flags.undo)
      rw [SemSet.apply_val_self, SemSet.apply_val_of_ne _ _ _ _ (by decide),
        ← hset', hcount, hflag] at hdone
      rw [if_neg (by lia), ← hset']
      exact hdone

theorem Common.getval {answer : Answer} (h : Common key objects k count flag)
    (hop : k.getval removed p objects.semId SEM_COUNT = (answer, k')) :
    answer.ret = count ∧ k' = k := by
  rcases h.set with ⟨set, hset, hcount, _⟩
  rw [getval_some removed p SEM_COUNT hset] at hop
  injection hop with hanswer hkernel
  rw [← hanswer]
  exact ⟨hcount, hkernel.symm⟩

theorem Common.store {index : Int} {val : Ptr} {answer : Unit}
    (h : Common key objects k count flag)
    (hexec : k.exec removed p (Op.store objects.shmemId index val) =
      some (answer, k')) : Common key objects k' count flag := by
  rcases h.segment with ⟨seg, hseg, hsize⟩
  simp only [Kernel.exec, hseg] at hexec
  cases hexec
  exact h.setSeg (by exact hsize)

theorem Common.load {index : Int} {answer : Ptr}
    (h : Common key objects k count flag)
    (hexec : k.exec removed p (Op.load objects.shmemId index) =
      some (answer, k')) : Common key objects k' count flag := by
  rcases h.segment with ⟨seg, hseg, _⟩
  simp only [Kernel.exec, hseg] at hexec
  cases hexec
  exact h

end Operations

/-!
## Whole calls
-/

def Request.Works (request : Request) (size timeoutFlag count flag : Int) :
    Prop :=
  ValidWait timeoutFlag ∧ flag = 1 ∧ request.refuses size count = false

instance (request : Request) (size timeoutFlag count flag : Int) :
    Decidable (request.Works size timeoutFlag count flag) :=
  inferInstanceAs (Decidable (_ ∧ _))

def Request.counted (request : Request) (count : Int) : Int :=
  if count + request.delta < 0 ∨ SEMVMX < count + request.delta then count
  else count + request.delta

section Calls

variable {removed : Removed} {p : Pid} {key : Int} {objects : Objects}
  {m m' : Memory} {count flag : Int} {handle : StackT} {outcome : Outcome}
  {timeoutFlag : Int} {request : Request}

theorem Common.release (h : Common key objects m.kernel count 0)
    (hrefers : Refers objects handle)
    (hrun : Program.eval (recorded removed p)
      (Point.releaseCode timeoutFlag handle outcome) m =
        some (Except.ok outcome, m')) :
    m'.accesses = m.accesses ∧ Common key objects m'.kernel count 1 := by
  rcases recorded_call hrun rfl with ⟨answer, m1, hexec, haccesses, hrest⟩
  rw [hrefers.right] at hexec
  cases hrest
  refine ⟨haccesses, ?_⟩
  rcases h.flag_semop hexec with ⟨_, _, hdone⟩ | ⟨_, hrange, _⟩
  · exact hdone
  · exact absurd hrange (by decide)

theorem Common.commit {out : Option Ptr}
    (h : Common key objects m.kernel count 0) (hrefers : Refers objects handle)
    (hrun : Program.eval (recorded removed p)
      (Point.commitCode timeoutFlag handle request out) m =
        some (Except.ok outcome, m')) :
    m'.accesses = m.accesses ∧
      Common key objects m'.kernel (request.counted count) 1 := by
  rcases recorded_call hrun rfl with ⟨answer, m1, hexec, haccesses, hrest⟩
  rw [hrefers.right] at hexec
  have houtcome : outcome = { ret := 0, out := out } := by
    rcases Program.eval_call_eq_some hrest with ⟨_, _, _, hend⟩
    cases hend
    rfl
  rw [houtcome] at hrest
  rcases (h.count_semop hexec).release hrefers hrest with ⟨hsame, hdone⟩
  exact ⟨hsame.trans haccesses, hdone⟩

theorem Common.access (h : Common key objects m.kernel count 0)
    (hrefers : Refers objects handle) {index : Int}
    (hrun : Program.eval (recorded removed p)
      (Point.accessCode timeoutFlag handle request index) m =
        some (Except.ok outcome, m')) :
    m'.accesses = m.accesses ++ [request.slot index] ∧
      Common key objects m'.kernel (request.counted count) 1 := by
  cases request with
  | push val =>
      rcases Program.eval_call_eq_some hrun with ⟨answer, m1, hop, hrest⟩
      rcases recorded_eq_some hop with ⟨hexec, haccesses⟩
      rw [hrefers.left] at hexec
      rcases (h.store hexec).commit hrefers hrest with ⟨hsame, hdone⟩
      exact ⟨hsame.trans haccesses, hdone⟩
  | pop =>
      rcases Program.eval_call_eq_some hrun with ⟨answer, m1, hop, hrest⟩
      rcases recorded_eq_some hop with ⟨hexec, haccesses⟩
      rw [hrefers.left] at hexec
      rcases (h.load hexec).commit hrefers hrest with ⟨hsame, hdone⟩
      exact ⟨hsame.trans haccesses, hdone⟩

theorem Common.check (h : Common key objects m.kernel count 0)
    (hrefers : Refers objects handle)
    (hrun : Program.eval (recorded removed p)
      (Point.checkCode timeoutFlag handle request) m =
        some (Except.ok outcome, m')) :
    if request.refuses handle.size count = true then
      m'.accesses = m.accesses ∧ Common key objects m'.kernel count 1
    else
      m'.accesses = m.accesses ++ [request.slot count] ∧
        Common key objects m'.kernel (request.counted count) 1 := by
  rcases recorded_call hrun rfl with ⟨answer, m1, hexec, haccesses, hrest⟩
  rw [hrefers.right] at hexec
  injection hexec with hexec
  rcases h.getval hexec with ⟨hret, hkernel⟩
  rw [← hkernel] at h
  rw [← haccesses]
  split at hrest
  · cases hrest
  · rw [hret] at hrest
    split at hrest
    · rename_i hrefuses
      rw [if_pos hrefuses]
      have houtcome : outcome = { ret := -1, out := none } := by
        rcases Program.eval_call_eq_some hrest with ⟨_, _, _, hend⟩
        cases hend
        rfl
      rw [houtcome] at hrest
      exact h.release hrefers hrest
    · rename_i hpasses
      rw [if_neg hpasses]
      -- the second reading of COUNT
      rcases recorded_call hrest rfl with
        ⟨answer', m2, hexec', haccesses', hlast⟩
      rw [hrefers.right] at hexec'
      injection hexec' with hexec'
      rcases h.getval hexec' with ⟨hret', hkernel'⟩
      rw [← hkernel'] at h
      rw [← haccesses']
      split at hlast
      · cases hlast
      · rw [hret'] at hlast
        exact h.access hrefers hlast

/-- A call that works accesses one slot; any other call leaves slots and
semaphores alone. -/
theorem Common.call (h : Common key objects m.kernel count flag)
    (hrefers : Refers objects handle) (hflag : flag = 0 ∨ flag = 1)
    (hrun : Program.eval (recorded removed p)
      (request.code timeoutFlag handle) m = some (Except.ok outcome, m')) :
    if request.Works handle.size timeoutFlag count flag then
      m'.accesses = m.accesses ++ [request.slot count] ∧
        Common key objects m'.kernel (request.counted count) flag
    else
      m'.accesses = m.accesses ∧ Common key objects m'.kernel count flag := by
  rw [request_code_eq, startPoint] at hrun
  by_cases hwait : ValidWait timeoutFlag
  · rw [if_pos hwait] at hrun
    rcases recorded_call hrun rfl with ⟨answer, m1, hexec, haccesses, hrest⟩
    rw [hrefers.right] at hexec
    rw [← haccesses]
    rcases h.flag_semop hexec with ⟨hret, hlow, htaken⟩ | ⟨hret, hlow, hsame⟩
    · have hone : flag = 1 := by
        lia
      rw [hone] at htaken ⊢
      rw [if_pos hret] at hrest
      have hcheck := htaken.check hrefers hrest
      split at hcheck
      · rename_i hrefuses
        rw [if_neg (by simp [Request.Works, hrefuses])]
        exact hcheck
      · rename_i hpasses
        rw [if_pos ⟨hwait, rfl, by simpa using hpasses⟩]
        exact hcheck
    · have hzero : flag ≠ 1 := by
        unfold SEMVMX at hlow
        lia
      rw [if_neg (fun hworks => hzero hworks.right.left)]
      rw [if_neg (by rw [hret]; decide)] at hrest
      cases hrest
      exact ⟨rfl, hsame⟩
  · rw [if_neg hwait] at hrun
    cases hrun
    rw [if_neg (fun hworks => hwait hworks.left)]
    exact ⟨rfl, h⟩

end Calls

/-!
## Attaching
-/

section Attaching

variable {removed : Removed} {p : Pid} {key size timeoutFlag : Int}
  {objects : Objects} {m m' : Memory} {count flag : Int}
  {result : Option StackT}

theorem Common.shmat {k k' : Kernel} {answer : Answer}
    (h : Common key objects k count flag)
    (hop : k.shmat removed p objects.shmemId = (answer, k')) :
    answer.ret = objects.shmemId ∧ Common key objects k' count flag := by
  rcases h.segment with ⟨seg, hseg, hsize⟩
  rw [shmat_some p removed hseg] at hop
  injection hop with hanswer hkernel
  rw [← hanswer, ← hkernel]
  exact ⟨rfl, h.setSeg (by exact hsize)⟩

theorem Common.probe {k k' : Kernel} {answer : Answer}
    (h : Common key objects k count flag) (hkey : key ≠ IPC_PRIVATE)
    (hop : k.shmget p key size shmgetExcl = (answer, k')) :
    Common key objects k' count flag ∧
      (answer.ret = objects.shmemId ∨
        answer.ret = -1 ∧ answer.errno = Errno.einval) := by
  rcases h.segment with ⟨seg, hseg, _⟩
  simp only [Kernel.shmget, if_neg hkey, h.shmKey, hseg, shmgetExcl] at hop
  rw [if_neg (by simp)] at hop
  split at hop
  · cases hop
    exact ⟨h.fail _, Or.inr ⟨rfl, rfl⟩⟩
  · cases hop
    exact ⟨h, Or.inl rfl⟩

theorem Common.attach (h : Common key objects m.kernel count flag)
    (hkey : key ≠ IPC_PRIVATE) (hid : 0 < objects.shmemId)
    (hrun : Program.eval (recorded removed p)
      (attachStack timeoutFlag key size) m = some (Except.ok result, m')) :
    m'.accesses = m.accesses ∧ Common key objects m'.kernel count flag ∧
      forall handle, result = some handle -> Refers objects handle := by
  rw [attachStack_code_eq] at hrun
  rcases recorded_call hrun rfl with ⟨found, m1, hexec, haccesses, hrest⟩
  injection hexec with hexec
  rw [← haccesses]
  rcases h.probe hkey hexec with ⟨h1, hfound | ⟨hrefused, herrno⟩⟩
  · rw [if_pos (by rw [hfound]; exact hid), hfound] at hrest
    rcases recorded_call hrest rfl with ⟨memory, m2, hexec', haccesses', hlast⟩
    injection hexec' with hexec'
    rw [← haccesses']
    rcases h1.shmat hexec' with ⟨hmemory, h2⟩
    rw [hmemory] at hlast
    rcases recorded_call hlast rfl with ⟨sem, m3, hexec'', haccesses'', hend⟩
    injection hexec'' with hexec''
    rw [semget_found p hkey h2.semKey rfl] at hexec''
    injection hexec'' with hsem hkernel
    rw [← haccesses'']
    split at hend
    · cases hend
      rw [← hkernel]
      exact ⟨rfl, h2, fun handle hcontra => by cases hcontra⟩
    · cases hend
      rw [← hkernel]
      refine ⟨rfl, h2, ?_⟩
      intro handle hhandle
      cases hhandle
      exact ⟨rfl, by rw [← hsem]; rfl⟩
  · rw [if_neg (by rw [hrefused]; decide), if_pos herrno] at hrest
    cases hrest
    exact ⟨rfl, h1, fun handle hcontra => by cases hcontra⟩

theorem created_set {shmemId : Int} {seg : Segment}
    (hshm : m.kernel.shmKeys key = some shmemId)
    (hsem : m.kernel.semKeys key = none) (hkey : key ≠ IPC_PRIVATE)
    (hseg : m.kernel.segs shmemId = some seg) {handle : StackT}
    (hrun : Program.eval (recorded removed p)
      (AttachPoint.createSetCode timeoutFlag key size shmemId shmemId) m =
        some (Except.ok (some handle), m')) :
    exists semId flag,
      let objects : Objects :=
        { shmemId := shmemId
          semId := semId
          bytes := seg.size }
      m'.accesses = m.accesses ∧ (flag = 0 ∨ flag = 1) ∧
        Common key objects m'.kernel 0 flag ∧ Refers objects handle := by
  rcases recorded_call hrun rfl with ⟨sem, m1, hexec, haccesses, hrest⟩
  injection hexec with hexec
  rw [semget_create p hsem rfl] at hexec
  injection hexec with hanswer hkernel
  let objects : Objects :=
    { shmemId := shmemId
      semId := m.kernel.nextSem
      bytes := seg.size }
  have hnew : Common key objects m1.kernel 0 0 := by
    rw [← hkernel]
    exact ⟨hshm, Kernel.newSem_semKeys _ hkey, ⟨seg, hseg, rfl⟩,
      ⟨_, Kernel.newSem_sets_self _ _, rfl, rfl⟩⟩
  split at hrest
  · cases hrest
  · split at hrest
    · rw [← hanswer] at hrest
      rcases recorded_call hrest rfl with ⟨raised, m2, hexec', haccesses', hend⟩
      cases hend
      rcases hnew.flag_semop hexec' with ⟨_, _, hdone⟩ | ⟨_, hrange, _⟩
      · exact ⟨m.kernel.nextSem, 1, haccesses'.trans haccesses, Or.inr rfl,
          hdone, rfl, rfl⟩
      · exact absurd hrange (by decide)
    · rw [← hanswer] at hrest
      cases hrest
      exact ⟨m.kernel.nextSem, 0, haccesses, Or.inl rfl, hnew, rfl, rfl⟩

theorem created_common (hshm : m.kernel.shmKeys key = none)
    (hsem : m.kernel.semKeys key = none) (hids : 0 < m.kernel.nextShm)
    (hkey : key ≠ IPC_PRIVATE) {handle : StackT}
    (hrun : Program.eval (recorded removed p)
      (attachStack timeoutFlag key size) m =
        some (Except.ok (some handle), m')) :
    exists objects flag, objects.bytes = sizeT size ∧ 0 < objects.shmemId ∧
      m'.accesses = m.accesses ∧ (flag = 0 ∨ flag = 1) ∧
      Common key objects m'.kernel 0 flag ∧ Refers objects handle := by
  rw [attachStack_code_eq] at hrun
  rcases recorded_call hrun rfl with ⟨found, m1, hexec, haccesses, hrest⟩
  injection hexec with hexec
  rw [shmget_missing p hkey hshm rfl] at hexec
  injection hexec with hfound hkernel
  rw [← hfound, if_neg (by simp), if_neg (by simp)] at hrest
  rcases recorded_call hrest rfl with ⟨shmem, m2, hexec', haccesses', hlast⟩
  injection hexec' with hexec'
  have hmissing : m1.kernel.shmKeys key = none := by
    rw [← hkernel]
    exact hshm
  rw [shmget_create p hmissing rfl] at hexec'
  split at hlast
  · rename_i hpos
    rw [show shmem = (m1.kernel.shmCreate p key size).1 by rw [hexec']] at hpos
    rw [shmCreate_of_pos p hpos] at hexec'
    injection hexec' with hshmem hkernel'
    have hnext : m1.kernel.nextShm = m.kernel.nextShm := by
      rw [← hkernel]
    rw [← hshmem] at hlast
    rcases recorded_call hlast rfl with ⟨memory, m3, hexec'', haccesses'', hend⟩
    injection hexec'' with hexec''
    have hseg : m2.kernel.segs m1.kernel.nextShm =
        some (Segment.new key (sizeT size)) := by
      rw [← hkernel']
      exact Kernel.newSeg_segs_self _ _ _
    rw [Kernel.ok_ret, shmat_some p removed hseg] at hexec''
    injection hexec'' with hmemory hkernel''
    rw [← hmemory] at hend
    have hshm' : m3.kernel.shmKeys key = some m1.kernel.nextShm := by
      rw [← hkernel'', ← hkernel']
      exact Kernel.newSeg_shmKeys m1.kernel (sizeT size) hkey
    have hsem' : m3.kernel.semKeys key = none := by
      rw [← hkernel'', ← hkernel', ← hkernel]
      exact hsem
    have hmapped := congrArg (fun k => k.segs m1.kernel.nextShm) hkernel''
    rw [Kernel.setSeg_segs_self] at hmapped
    rcases created_set hshm' hsem' hkey hmapped.symm hend with
      ⟨semId, flag, hsame, hflag, hcommon, hrefers⟩
    refine ⟨_, flag, ?_, ?_, ?_, hflag, hcommon, hrefers⟩
    · rfl
    · rw [← hnext] at hids
      exact hids
    · rw [hsame, haccesses'', haccesses', haccesses]
  · cases hlast

/-- With `IPC_PRIVATE` every process has a stack of its own, whose lock nobody
ever raises. -/
theorem private_attach (hkey : key = IPC_PRIVATE) (hids : 0 < m.kernel.nextShm)
    (hrun : Program.eval (recorded removed p)
      (attachStack timeoutFlag key size) m = some (Except.ok result, m')) :
    m'.accesses = m.accesses ∧ 0 < m'.kernel.nextShm ∧
      (forall handle, Closed m.kernel handle -> Closed m'.kernel handle) ∧
      forall handle, result = some handle -> Closed m'.kernel handle := by
  rw [attachStack_code_eq] at hrun
  rcases recorded_call hrun rfl with ⟨found, m1, hexec, haccesses, hrest⟩
  injection hexec with hexec
  rw [shmget_private p hkey] at hexec
  split at hrest
  · rename_i hpos
    rw [show found = (m.kernel.shmCreate p key size).1 by rw [hexec]] at hpos
    rw [shmCreate_of_pos p hpos] at hexec
    injection hexec with hfound hkernel
    rw [← hfound] at hrest
    rcases recorded_call hrest rfl with ⟨memory, m2, hexec', haccesses', hlast⟩
    injection hexec' with hexec'
    have hseg : m1.kernel.segs m.kernel.nextShm =
        some (Segment.new key (sizeT size)) := by
      rw [← hkernel]
      exact Kernel.newSeg_segs_self m.kernel key (sizeT size)
    rw [Kernel.ok_ret, shmat_some p removed hseg] at hexec'
    injection hexec' with hmemory hkernel'
    rcases recorded_call hlast rfl with ⟨sem, m3, hexec'', haccesses'', hend⟩
    injection hexec'' with hexec''
    rw [semget_private p hkey] at hexec''
    injection hexec'' with hsem hkernel''
    have hsets : m2.kernel.sets = m.kernel.sets := by
      rw [← hkernel', ← hkernel]
      rfl
    have hnew : m3.kernel.sets m2.kernel.nextSem = some (SemSet.new key) := by
      rw [← hkernel'']
      exact Kernel.newSem_sets_self m2.kernel key
    have hids' : 0 < m3.kernel.nextShm := by
      rw [← hkernel'', ← hkernel', ← hkernel]
      change 0 < m.kernel.nextShm + 1
      lia
    have hkept : forall handle, Closed m.kernel handle ->
        Closed m3.kernel handle := by
      intro handle hclosed
      by_cases hid : handle.semId = m2.kernel.nextSem
      · exact ⟨SemSet.new key, by rw [hid]; exact hnew, rfl, rfl⟩
      · rcases hclosed with ⟨set, hset, hzero⟩
        refine ⟨set, ?_, hzero⟩
        rw [← hset, ← hsets, ← hkernel'']
        exact Function.update_of_ne hid _ _
    have hall := haccesses''.trans (haccesses'.trans haccesses)
    split at hend
    · cases hend
      exact ⟨hall, hids', hkept, fun handle hcontra => by cases hcontra⟩
    · cases hend
      refine ⟨hall, hids', hkept, ?_⟩
      intro handle hhandle
      cases hhandle
      refine ⟨SemSet.new key, ?_, rfl, rfl⟩
      rw [← hnew, ← hsem]
      rfl
  · rename_i hpos
    rw [show found = (m.kernel.shmCreate p key size).1 by rw [hexec]] at hpos
    rw [shmCreate_of_not_pos p hids hpos] at hexec
    injection hexec with hfound hkernel
    rw [← hfound, if_pos rfl] at hrest
    cases hrest
    rw [← hkernel]
    exact ⟨haccesses, hids, fun handle hclosed => hclosed,
      fun handle hcontra => by cases hcontra⟩

theorem closed_call {request : Request} {handle : StackT} {outcome : Outcome}
    (hclosed : Closed m.kernel handle)
    (hrun : Program.eval (recorded removed p)
      (request.code timeoutFlag handle) m = some (Except.ok outcome, m')) :
    m'.accesses = m.accesses ∧ m'.kernel.sets = m.kernel.sets ∧
      m'.kernel.nextShm = m.kernel.nextShm := by
  rw [request_code_eq, startPoint] at hrun
  by_cases hwait : ValidWait timeoutFlag
  · rw [if_pos hwait] at hrun
    rcases recorded_call hrun rfl with ⟨answer, m1, hexec, haccesses, hrest⟩
    rcases hclosed with ⟨set, hset, _, hflag⟩
    generalize hkernel : m1.kernel = k1 at hexec
    cases semop_result hexec with
    | gone hgone =>
        rw [hset] at hgone
        cases hgone
    | refused set' e _ _ _ =>
        cases hrest
        rw [hkernel]
        exact ⟨haccesses, rfl, rfl⟩
    | applied set' hset' hlow _ =>
        rw [hset] at hset'
        injection hset' with hset'
        rw [← hset', hflag] at hlow
        exact absurd hlow (by decide)
  · rw [if_neg hwait] at hrun
    cases hrun
    exact ⟨rfl, rfl, rfl⟩

end Attaching

/-!
## Sequences of calls
-/

section Sequences

variable {removed : Removed} {key : Int} {bytes : Nat} {s s' : Sharing}

theorem visit_attach {p : Pid} {timeoutFlag size : Int}
    (h : visit removed key s (Visit.attach p timeoutFlag size) = some s') :
    exists result memory,
      Program.eval (recorded removed p) (attachStack timeoutFlag key size)
        s.memory = some (Except.ok result, memory) ∧
      s'.memory = memory ∧
      s'.handles = s.handles ++ (result.map (fun handle => (p, handle))).toList := by
  simp only [visit] at h
  split at h
  · rename_i handle memory hrun
    cases h
    exact ⟨some handle, memory, hrun, rfl, rfl⟩
  · rename_i memory hrun
    cases h
    exact ⟨none, memory, hrun, rfl, (List.append_nil _).symm⟩
  · cases h

theorem visit_call {n : Nat} {timeoutFlag : Int} {request : Request}
    (h : visit removed key s (Visit.call n timeoutFlag request) = some s') :
    exists p handle outcome memory,
      s.handles[n]? = some (p, handle) ∧
      Program.eval (recorded removed p) (request.code timeoutFlag handle)
        s.memory = some (Except.ok outcome, memory) ∧
      s' = { s with memory := memory } := by
  simp only [visit] at h
  split at h
  · cases h
  · rename_i p handle hhandle
    split at h
    · rename_i outcome memory hrun
      cases h
      exact ⟨p, handle, outcome, memory, hhandle, hrun, rfl⟩
    · cases h

/-- The processes share the objects of the key, and every access so far
fits. -/
structure Fitting (key : Int) (bytes : Nat) (s : Sharing) (objects : Objects)
    (count flag : Int) : Prop where
  real : key ≠ IPC_PRIVATE
  size : objects.bytes = bytes
  id : 0 < objects.shmemId
  lock : flag = 0 ∨ flag = 1
  low : 0 ≤ count
  high : count * SLOT ≤ bytes
  common : Common key objects s.memory.kernel count flag
  refers : forall entry, entry ∈ s.handles -> Refers objects entry.2
  fits : forall index, index ∈ s.memory.accesses -> Fits bytes index

structure Useless (key : Int) (s : Sharing) : Prop where
  own : key = IPC_PRIVATE
  ids : 0 < s.memory.kernel.nextShm
  closed : forall entry, entry ∈ s.handles ->
    Closed s.memory.kernel entry.2
  untouched : s.memory.accesses = []

def InSegment (key : Int) (bytes : Nat) (s : Sharing) : Prop :=
  Useless key s ∨ exists objects count flag,
    Fitting key bytes s objects count flag

def Overrun (bytes : Nat) (s : Sharing) : Prop :=
  exists index, index ∈ s.memory.accesses ∧ ¬ Fits bytes index

theorem InSegment.fits (h : InSegment key bytes s) :
    forall index, index ∈ s.memory.accesses -> Fits bytes index := by
  rcases h with huseless | ⟨objects, count, flag, hfitting⟩
  · intro index hindex
    rw [huseless.untouched] at hindex
    cases hindex
  · exact hfitting.fits

theorem Useless.visit {l : Visit} (h : Useless key s)
    (hstep : visit removed key s l = some s') : Useless key s' := by
  cases l with
  | attach p timeoutFlag size =>
      rcases visit_attach hstep with ⟨result, memory, hrun, hmemory, hhandles⟩
      rcases private_attach h.own h.ids hrun with ⟨hsame, hids, hkept, hnew⟩
      rw [← hmemory] at hsame hids hkept hnew
      refine ⟨h.own, hids, ?_, hsame.trans h.untouched⟩
      intro entry hentry
      rw [hhandles] at hentry
      rcases List.mem_append.mp hentry with hold | hlast
      · exact hkept _ (h.closed entry hold)
      · cases result with
        | none => cases hlast
        | some handle =>
            rw [List.mem_singleton.mp hlast]
            exact hnew handle rfl
  | call n timeoutFlag request =>
      rcases visit_call hstep with
        ⟨p, handle, outcome, memory, hhandle, hrun, heq⟩
      rcases closed_call (h.closed _ (List.mem_of_getElem? hhandle)) hrun with
        ⟨hsame, hsets, hids⟩
      rw [heq]
      refine ⟨h.own, by rw [hids]; exact h.ids, ?_, hsame.trans h.untouched⟩
      intro entry hentry
      rcases h.closed entry hentry with ⟨set, hset, hzero⟩
      exact ⟨set, by rw [← hset]; exact congrFun hsets _, hzero⟩

theorem Useless.room {l : Visit} (h : Useless key s) :
    RoomInSegment bytes s l := by
  cases l with
  | attach p timeoutFlag size => trivial
  | call n timeoutFlag request =>
      intro p handle hhandle set hset _ hflag
      rcases h.closed _ (List.mem_of_getElem? hhandle) with
        ⟨set', hset', _, hzero⟩
      rw [hset] at hset'
      injection hset' with hset'
      rw [hset', hzero] at hflag
      cases hflag

theorem Fitting.attach {objects : Objects} {count flag : Int} {p : Pid}
    {timeoutFlag size : Int} (h : Fitting key bytes s objects count flag)
    (hstep : visit removed key s (Visit.attach p timeoutFlag size) = some s') :
    Fitting key bytes s' objects count flag := by
  rcases visit_attach hstep with ⟨result, memory, hrun, hmemory, hhandles⟩
  rcases h.common.attach h.real h.id hrun with ⟨hsame, hcommon, hnew⟩
  rw [← hmemory] at hsame hcommon
  refine ⟨h.real, h.size, h.id, h.lock, h.low, h.high, hcommon, ?_, ?_⟩
  · intro entry hentry
    rw [hhandles] at hentry
    rcases List.mem_append.mp hentry with hold | hlast
    · exact h.refers entry hold
    · cases result with
      | none => cases hlast
      | some handle =>
          rw [List.mem_singleton.mp hlast]
          exact hnew handle rfl
  · rw [hsame]
    exact h.fits

theorem Fitting.idle {objects : Objects} {count flag : Int} {memory : Memory}
    (h : Fitting key bytes s objects count flag)
    (hsame : memory.accesses = s.memory.accesses)
    (hcommon : Common key objects memory.kernel count flag) :
    Fitting key bytes { s with memory := memory } objects count flag where
  real := h.real
  size := h.size
  id := h.id
  lock := h.lock
  low := h.low
  high := h.high
  common := hcommon
  refers := h.refers
  fits := by
    intro index hindex
    rw [hsame] at hindex
    exact h.fits index hindex

theorem Fitting.work {objects : Objects} {count flag : Int} {memory : Memory}
    {request : Request} (h : Fitting key bytes s objects count flag)
    (hcount : 0 ≤ request.counted count ∧
      request.counted count * SLOT ≤ bytes)
    (hslot : Fits bytes (request.slot count))
    (haccesses : memory.accesses = s.memory.accesses ++ [request.slot count])
    (hcommon : Common key objects memory.kernel (request.counted count) flag) :
    Fitting key bytes { s with memory := memory } objects
      (request.counted count) flag where
  real := h.real
  size := h.size
  id := h.id
  lock := h.lock
  low := hcount.left
  high := hcount.right
  common := hcommon
  refers := h.refers
  fits := by
    intro index hindex
    rw [haccesses] at hindex
    rcases List.mem_append.mp hindex with hold | hlast
    · exact h.fits index hold
    · rw [List.mem_singleton.mp hlast]
      exact hslot

theorem counted_cases (request : Request) (count : Int) :
    request.counted count = count ∨
      0 ≤ count + request.delta ∧
        request.counted count = count + request.delta := by
  unfold Request.counted
  split
  · exact Or.inl rfl
  · exact Or.inr ⟨by lia, rfl⟩

theorem push_fits {count : Int} {val : Ptr} (hlow : 0 ≤ count)
    (hhigh : count * SLOT ≤ bytes) (hroom : (count + 1) * SLOT ≤ bytes) :
    (0 ≤ (Request.push val).counted count ∧
        (Request.push val).counted count * SLOT ≤ bytes) ∧
      Fits bytes ((Request.push val).slot count) := by
  refine ⟨?_, hlow, hroom⟩
  rcases counted_cases (Request.push val) count with heq | ⟨hpos, heq⟩
  · rw [heq]
    exact ⟨hlow, hhigh⟩
  · rw [heq]
    exact ⟨hpos, hroom⟩

theorem pop_fits {count : Int} (hlow : 0 ≤ count)
    (hhigh : count * SLOT ≤ bytes) (hsome : count ≠ 0) :
    (0 ≤ Request.pop.counted count ∧
        Request.pop.counted count * SLOT ≤ bytes) ∧
      Fits bytes (Request.pop.slot count) := by
  constructor
  · rcases counted_cases Request.pop count with heq | ⟨hpos, heq⟩
    · rw [heq]
      exact ⟨hlow, hhigh⟩
    · rw [heq]
      refine ⟨hpos, ?_⟩
      simp only [Request.delta, SLOT] at hhigh ⊢
      lia
  · simp only [Fits, Request.slot, SLOT] at hhigh ⊢
    lia

/-- A call under the condition keeps all accesses inside the segment; a call
against it leaves the segment. -/
theorem Fitting.call {objects : Objects} {count flag : Int} {n : Nat}
    {timeoutFlag : Int} {request : Request}
    (h : Fitting key bytes s objects count flag)
    (hstep : visit removed key s (Visit.call n timeoutFlag request) =
      some s') :
    (RoomInSegment bytes s (Visit.call n timeoutFlag request) ∧
        InSegment key bytes s') ∨
      (¬ RoomInSegment bytes s (Visit.call n timeoutFlag request) ∧
        Overrun bytes s') := by
  rcases visit_call hstep with
    ⟨p, handle, outcome, memory, hhandle, hrun, heq⟩
  have hrefers := h.refers _ (List.mem_of_getElem? hhandle)
  have hcall := h.common.call hrefers h.lock hrun
  rcases h.common.set with ⟨set, hset, hcount, hflag⟩
  rw [← hrefers.right] at hset
  -- the condition, in terms of COUNT and FLAG
  have hroom : RoomInSegment bytes s (Visit.call n timeoutFlag request) <->
      (request.Works handle.size timeoutFlag count flag ->
        (exists val, request = Request.push val) ->
          (count + 1) * SLOT ≤ bytes) := by
    constructor
    · rintro hroom ⟨hwait, hfree, hpasses⟩ ⟨val, hval⟩
      have hfit := hroom p handle hhandle set hset hwait
        (hflag.trans hfree) val hval
      rw [hcount] at hfit
      apply hfit
      rw [hval] at hpasses
      simpa [Request.refuses] using hpasses
    · intro hfit p' handle' hhandle' set' hset' hwait hfree val hval hless
      rw [hhandle] at hhandle'
      cases hhandle'
      rw [hset] at hset'
      cases hset'
      rw [hcount] at hless ⊢
      apply hfit ⟨hwait, hflag.symm.trans hfree, ?_⟩ ⟨val, hval⟩
      rw [hval]
      simpa [Request.refuses] using hless
  rw [hroom, heq]
  split at hcall
  case isFalse hidle =>
    exact Or.inl ⟨fun hworks => absurd hworks hidle,
      Or.inr ⟨objects, count, flag, h.idle hcall.left hcall.right⟩⟩
  case isTrue hworks =>
    rcases hcall with ⟨haccesses, hcommon⟩
    cases request with
    | push val =>
        by_cases hfit : (count + 1) * SLOT ≤ bytes
        · rcases @push_fits bytes count val h.low h.high hfit with
            ⟨hbounds, hslot⟩
          exact Or.inl ⟨fun _ _ => hfit, Or.inr ⟨objects, _, flag,
            h.work hbounds hslot haccesses hcommon⟩⟩
        · refine Or.inr ⟨fun hall => hfit (hall hworks ⟨val, rfl⟩), count, ?_,
            fun hslot => hfit hslot.right⟩
          change count ∈ memory.accesses
          rw [haccesses]
          exact List.mem_append_right _ List.mem_cons_self
    | pop =>
        have hsome : count ≠ 0 := by
          simpa [Request.refuses] using hworks.right.right
        rcases pop_fits h.low h.high hsome with ⟨hbounds, hslot⟩
        refine Or.inl ⟨?_, Or.inr ⟨objects, _, flag,
          h.work hbounds hslot haccesses hcommon⟩⟩
        rintro _ ⟨val, hcontra⟩
        cases hcontra

theorem inSegment_step {l : Visit} (h : InSegment key bytes s)
    (hstep : visit removed key s l = some s') :
    (RoomInSegment bytes s l ∧ InSegment key bytes s') ∨
      (¬ RoomInSegment bytes s l ∧ Overrun bytes s') := by
  rcases h with huseless | ⟨objects, count, flag, hfitting⟩
  · exact Or.inl ⟨huseless.room, Or.inl (huseless.visit hstep)⟩
  · cases l with
    | attach p timeoutFlag size =>
        exact Or.inl ⟨trivial,
          Or.inr ⟨objects, count, flag, hfitting.attach hstep⟩⟩
    | call n timeoutFlag request => exact hfitting.call hstep

theorem overrun_step {l : Visit} (h : Overrun bytes s)
    (hstep : visit removed key s l = some s') : Overrun bytes s' := by
  rcases h with ⟨index, hindex, hout⟩
  have hkeep : forall {alpha : Type} {p : Pid} {code : Prog alpha}
      {result : Except Exit alpha} {memory : Memory},
      Program.eval (recorded removed p) code s.memory =
        some (result, memory) -> index ∈ memory.accesses := by
    intro alpha p code result memory hrun
    refine Program.eval_invariant (fun m : Memory => index ∈ m.accesses) ?_
      hindex hrun
    intro op m answer m' hm hop
    rw [(recorded_eq_some hop).right]
    exact List.mem_append_left _ hm
  cases l with
  | attach p timeoutFlag size =>
      rcases visit_attach hstep with ⟨result, memory, hrun, hmemory, _⟩
      rw [← hmemory] at hrun
      exact ⟨index, hkeep hrun, hout⟩
  | call n timeoutFlag request =>
      rcases visit_call hstep with ⟨_, _, _, memory, _, hrun, heq⟩
      rw [heq]
      exact ⟨index, hkeep hrun, hout⟩

end Sequences

/-!
## The law of slots

A run keeps all its accesses in the segment up to the first push that finds room
in its handle but none in the segment; that push writes behind the segment.
-/

section Law

variable {removed : Removed} {p : Pid} {timeoutFlag key size : Int}
  {k : Kernel} {s0 s : Sharing}

theorem inSegment_created (hshm : k.shmKeys key = none)
    (hsem : k.semKeys key = none) (hids : 0 < k.nextShm)
    (hcreate : visit removed key (unattached k)
      (Visit.attach p timeoutFlag size) = some s0)
    (hhandle : s0.handles ≠ []) : InSegment key (sizeT size) s0 := by
  rcases visit_attach hcreate with ⟨result, memory, hrun, hmemory, hhandles⟩
  by_cases hkey : key = IPC_PRIVATE
  · rcases private_attach hkey hids hrun with ⟨hsame, hids', _, hnew⟩
    refine Or.inl ⟨hkey, by rw [hmemory]; exact hids', ?_,
      by rw [hmemory]; exact hsame⟩
    intro entry hentry
    rw [hhandles] at hentry
    cases result with
    | none => cases hentry
    | some handle =>
        rw [List.mem_singleton.mp hentry, hmemory]
        exact hnew handle rfl
  · cases result with
    | none => exact absurd hhandles hhandle
    | some handle =>
        rcases created_common hshm hsem hids hkey hrun with
          ⟨objects, flag, hbytes, hid, hsame, hflag, hcommon, hrefers⟩
        refine Or.inr ⟨objects, 0, flag, hkey, hbytes, hid, hflag, le_refl _,
          ?_, by rw [hmemory]; exact hcommon, ?_, ?_⟩
        · rw [Int.zero_mul]
          exact Int.natCast_nonneg _
        · intro entry hentry
          rw [hhandles] at hentry
          rw [List.mem_singleton.mp hentry]
          exact hrefers
        · intro index hindex
          rw [hmemory, hsame] at hindex
          cases hindex

theorem attach_size {m m' : Memory} {handle : StackT}
    (hrun : Program.eval (recorded removed p) (attachStack timeoutFlag key size)
      m = some (Except.ok (some handle), m')) : handle.size = size := by
  have hcode : Program.Ensures (Contract.unknown Op Op.Res Memory)
      (fun _ _ => True)
      (fun _ result => forall handle, result = some handle -> handle.size = size)
      m (attachStack timeoutFlag key size) := by
    unfold attachStack
    refine ⟨trivial, fun (probe : Answer) m _ => ?_⟩
    dsimp only
    apply Program.Ensures.ite
    · intro _
      refine ⟨trivial, fun (memory : Answer) m _ =>
        ⟨trivial, fun (sem : Answer) m _ => ?_⟩⟩
      dsimp only
      apply Program.Ensures.ite
      · intro _ handle hnone
        cases hnone
      · intro _ handle hsome
        cases hsome
        rfl
    · intro _
      apply Program.Ensures.ite
      · intro _ handle hnone
        cases hnone
      · intro _
        refine ⟨trivial, fun (shmem : Answer) m _ => ?_⟩
        change Program.Ensures _ _ _ m (assertThat (0 < shmem.ret) >>= _)
        apply Program.Ensures.seq (Program.Ensures.unknown _ m)
        intro m _ _
        refine ⟨trivial, fun (memory : Answer) m _ =>
          ⟨trivial, fun (sem : Answer) m _ => ?_⟩⟩
        dsimp only
        apply Program.Ensures.ite
        · intro _ handle hnone
          cases hnone
        · intro _
          apply Program.Ensures.seq (Program.Ensures.unknown _ m)
          intro m _ _
          apply Program.Ensures.seq (Program.Ensures.unknown _ m)
          intro m _ _ handle hsome
          cases hsome
          rfl
  exact (hcode.eval (fun _ _ _ _ _ _ => trivial) hrun).left _ rfl handle rfl

def LaterFit (bytes : Nat) (s : Sharing) : Prop :=
  forall n p handle, n ≠ 0 -> s.handles[n]? = some (p, handle) ->
    handle.size * SLOT ≤ bytes

/-- `attach_stack` is given at most `bytes / 8` as a size, and nobody pushes
through the creator's handle, which has `bytes` slots. -/
def SizesFit (bytes : Nat) : Visit -> Prop
  | Visit.attach _ _ size => size * SLOT ≤ bytes
  | Visit.call n _ (Request.push _) => n ≠ 0
  | Visit.call _ _ Request.pop => True

theorem laterFit_step {bytes : Nat} {l : Visit} {s' : Sharing}
    (h : LaterFit bytes s) (hfit : SizesFit bytes l)
    (hstep : visit removed key s l = some s') : LaterFit bytes s' := by
  cases l with
  | attach p timeoutFlag size =>
      rcases visit_attach hstep with ⟨result, memory, hrun, _, hhandles⟩
      intro n q handle hn hhandle
      rw [hhandles] at hhandle
      by_cases hold : n < s.handles.length
      · rw [List.getElem?_append_left hold] at hhandle
        exact h n q handle hn hhandle
      · rw [List.getElem?_append_right (Nat.le_of_not_lt hold)] at hhandle
        cases result with
        | none => cases hhandle
        | some new =>
            have hmem := List.mem_of_getElem? hhandle
            cases List.mem_singleton.mp hmem
            rw [attach_size hrun]
            exact hfit
  | call n timeoutFlag request =>
      rcases visit_call hstep with ⟨_, _, _, _, _, _, heq⟩
      rw [heq]
      exact h

theorem roomInSegment_of_sizes {bytes : Nat} {visits : List Visit}
    (hvisits : forall l, l ∈ visits -> SizesFit bytes l)
    (h : LaterFit bytes s) :
    AllSteps (visit removed key) (RoomInSegment bytes) s visits := by
  induction visits generalizing s with
  | nil => trivial
  | cons l rest ih =>
      have hfit := hvisits l List.mem_cons_self
      constructor
      · cases l with
        | attach p timeoutFlag size => trivial
        | call n timeoutFlag request =>
            intro p handle hhandle set _ _ _ val hval hless
            rw [hval] at hfit
            have hsize := h n p handle hfit hhandle
            simp only [SLOT] at hsize ⊢
            lia
      · intro s' hstep
        exact ih (fun l' hl' => hvisits l' (List.mem_cons_of_mem l hl'))
          (laterFit_step h hfit hstep)

theorem accesses_fit_of_sizes (hshm : k.shmKeys key = none)
    (hsem : k.semKeys key = none) (hids : 0 < k.nextShm)
    (hcreate : visit removed key (unattached k)
      (Visit.attach p timeoutFlag size) = some s0)
    (hhandle : s0.handles ≠ []) {visits : List Visit}
    (hvisits : forall l, l ∈ visits -> SizesFit (sizeT size) l)
    (hrun : run (visit removed key) s0 visits = some s) :
    forall index, index ∈ s.memory.accesses -> Fits (sizeT size) index := by
  have hfirst : LaterFit (sizeT size) s0 := by
    rcases visit_attach hcreate with ⟨result, _, _, _, hhandles⟩
    intro n q handle hn hlater
    rw [hhandles] at hlater
    cases n with
    | zero => exact absurd rfl hn
    | succ n =>
        cases result with
        | none => cases hlater
        | some new => cases hlater
  have hgood := run_invariant (InSegment key (sizeT size))
    (fun _ _ _ hs hroom hstep =>
      ((inSegment_step hs hstep).resolve_right
        (fun hbad => hbad.left hroom)).right)
    (inSegment_created hshm hsem hids hcreate hhandle)
    (roomInSegment_of_sizes hvisits hfirst) hrun
  exact hgood.fits

/-- All accesses of a sequence of calls lie in the bytes that were requested
exactly when no push finds room in its handle but none in the segment. -/
theorem slots_in_segment_iff (hshm : k.shmKeys key = none)
    (hsem : k.semKeys key = none) (hids : 0 < k.nextShm)
    (hcreate : visit removed key (unattached k)
      (Visit.attach p timeoutFlag size) = some s0)
    (hhandle : s0.handles ≠ []) {visits : List Visit}
    (hrun : run (visit removed key) s0 visits = some s) :
    (forall index, index ∈ s.memory.accesses -> Fits (sizeT size) index) <->
      AllSteps (visit removed key) (RoomInSegment (sizeT size)) s0 visits := by
  have hsplit := run_splits (InSegment key (sizeT size))
    (Overrun (sizeT size))
    (fun s l s' hs _ hroom hstep =>
      ((inSegment_step hs hstep).resolve_right
        (fun hbad => hbad.left hroom)).right)
    (fun s l s' hs _ hroom hstep =>
      ((inSegment_step hs hstep).resolve_left
        (fun hgood => hroom hgood.left)).right)
    (fun s l s' hs hstep => overrun_step hs hstep)
    (inSegment_created hshm hsem hids hcreate hhandle)
    (allSteps_of_forall (fun _ _ => trivial) visits s0) hrun
  constructor
  · intro hfits
    rcases hsplit with ⟨hall, _⟩ | ⟨_, index, hindex, hout⟩
    · exact hall
    · exact absurd (hfits index hindex) hout
  · intro hall
    rcases hsplit with ⟨_, hgood⟩ | ⟨hno, _⟩
    · exact hgood.fits
    · exact absurd hall hno

theorem slots_in_segment_iff_two :
    exists s0 s,
      visit Removed.einval 5 (unattached (Kernel.empty 65536))
          (Visit.attach 1 0 16) = some s0 ∧
        run (visit Removed.einval 5) s0
          [Visit.attach 2 (-1) 2, Visit.call 1 0 (Request.push 7),
            Visit.call 1 0 (Request.push 9), Visit.call 0 0 Request.pop] =
          some s ∧
        ((forall index, index ∈ s.memory.accesses -> Fits (sizeT 16) index) <->
          AllSteps (visit Removed.einval 5) (RoomInSegment (sizeT 16)) s0
            [Visit.attach 2 (-1) 2, Visit.call 1 0 (Request.push 7),
              Visit.call 1 0 (Request.push 9), Visit.call 0 0 Request.pop]) := by
  have hcreate : exists s0,
      visit Removed.einval 5 (unattached (Kernel.empty 65536))
        (Visit.attach 1 0 16) = some s0 ∧ s0.handles ≠ [] ∧
        exists s,
          run (visit Removed.einval 5) s0
            [Visit.attach 2 (-1) 2, Visit.call 1 0 (Request.push 7),
              Visit.call 1 0 (Request.push 9), Visit.call 0 0 Request.pop] =
            some s :=
    ⟨_, rfl, by simp, _, rfl⟩
  rcases hcreate with ⟨s0, hs0, hhandle, s, hs⟩
  exact ⟨s0, s, hs0, hs,
    slots_in_segment_iff rfl rfl Int.one_pos hs0 hhandle hs⟩

/-- A segment of eight bytes has one slot; the second push writes behind it. -/
theorem second_push_overruns :
    exists s0 s,
      visit Removed.einval 5 (unattached (Kernel.empty 65536))
          (Visit.attach 1 0 8) = some s0 ∧
        run (visit Removed.einval 5) s0
          [Visit.call 0 0 (Request.push 7), Visit.call 0 0 (Request.push 9)] =
          some s ∧
        s.memory.accesses = [0, 1] ∧ ¬ Fits (sizeT 8) 1 :=
  ⟨_, _, rfl, rfl, rfl, by decide⟩

end Law

/-!
## Interleaved calls
-/

section Interleaved

variable {cfg : Config} {s0 s : State} {labels : List Label} {size : Int}
  {bytes : Nat}

/-- Handles of one size, of at most `bytes / 8` slots, and a kernel that reports
removal with `EIDRM`: whatever order the calls are made in, every slot about to
be touched lies in the segment. -/
theorem accesses_fit_of_equal_sizes (hpos : 0 ≤ size)
    (hsizes : forall p, cfg.size p = size) (hbytes : size * SLOT ≤ bytes)
    (hfresh : Fresh cfg s0) (hlabels : forall l, l ∈ labels -> ReportsEidrm l)
    (hrun : run (step cfg) s0 labels = some s) :
    forall p timeoutFlag call code locked index,
      s.status p = Status.running timeoutFlag call code locked ->
      slotIndex code = some index -> Fits bytes index := by
  intro p timeoutFlag call code locked index hstatus hindex
  have hrange := slotsInRange_of_readings hfresh
    (goodReading_of_equal_sizes hpos hsizes hfresh hlabels) hrun
  rcases hrange p timeoutFlag call code locked index hstatus hindex with
    ⟨hlow, hhigh⟩
  rw [hsizes p] at hhigh
  constructor
  · exact hlow
  · simp only [SLOT] at hbytes ⊢
    lia

end Interleaved

end Stack
end UnixPrograms
