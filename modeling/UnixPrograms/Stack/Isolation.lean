import UnixPrograms.Stack.Sequential
import UnixPrograms.Foundation.Transition

/-!
# One process with several stacks

A process calls `push`, `pop` and `get_count` on several stacks while other
processes use them and remove one of them.  What the process sees of the other
stacks is compared with the run in which it never touches the removed one.
The two agree, and the process lives, as long as no `get_count` finds `EIDRM`
in `errno`, be it of its own reading or of an earlier failure.
-/

namespace UnixPrograms
namespace Stack
namespace Isolation

open Foundation
open Ipc

variable {iota : Type}

structure Config (iota : Type) where
  pid : Pid
  handle : iota -> StackT
  mapped : forall i, (handle i).memory = (handle i).shmemId
  semApart : forall i j, i ≠ j -> (handle i).semId ≠ (handle j).semId
  memApart : forall i j, i ≠ j -> (handle i).memory ≠ (handle j).memory

inductive Asked where
  | request (request : Request)
  | getCount
deriving DecidableEq

def Asked.code (timeoutFlag : Int) (stack : StackT) : Asked -> Prog Outcome
  | Asked.request asked => asked.code timeoutFlag stack
  | Asked.getCount => do
      let count <- Stack.getCount (some stack)
      return { ret := count, out := none }

/-- `ended i` is a process that was ended inside a call on stack `i`. -/
inductive Status (iota : Type) where
  | idle
  | busy (i : iota) (asked : Asked) (code : Prog Outcome)
  | ended (i : iota)

structure State (iota : Type) where
  kernel : Kernel
  status : Status iota
  returned : List (iota × Asked × Outcome)

/-- A step of a call of the process on a stack, or a kernel call of another
process on that stack. -/
inductive Label (iota : Type) where
  | begin (i : iota) (timeoutFlag : Int) (asked : Asked)
  | atom (i : iota) (removed : Removed)
  | finish (i : iota)
  | other (i : iota) (q : Pid) (removed : Removed) (op : Op)

def Label.stack : Label iota -> iota
  | Label.begin i _ _ => i
  | Label.atom i _ => i
  | Label.finish i => i
  | Label.other i _ _ _ => i

def OnStack (stack : StackT) : Op -> Prop
  | Op.semop semid _ _ _ => semid = stack.semId
  | Op.getval semid _ => semid = stack.semId
  | Op.store memory _ _ => memory = stack.memory
  | Op.load memory _ => memory = stack.memory
  | _ => False

def Removes (stack : StackT) : Op -> Prop
  | Op.semRmid semid => semid = stack.semId
  | Op.shmRmid shmid => shmid = stack.shmemId
  | _ => False

instance (stack : StackT) : (op : Op) -> Decidable (OnStack stack op)
  | Op.shmget _ _ _ => isFalse id
  | Op.shmat _ => isFalse id
  | Op.shmdt _ => isFalse id
  | Op.shmRmid _ => isFalse id
  | Op.semget _ _ _ => isFalse id
  | Op.semop semid _ _ _ =>
      inferInstanceAs (Decidable (semid = stack.semId))
  | Op.getval semid _ => inferInstanceAs (Decidable (semid = stack.semId))
  | Op.semRmid _ => isFalse id
  | Op.store memory _ _ =>
      inferInstanceAs (Decidable (memory = stack.memory))
  | Op.load memory _ => inferInstanceAs (Decidable (memory = stack.memory))

instance (stack : StackT) : (op : Op) -> Decidable (Removes stack op)
  | Op.shmget _ _ _ => isFalse id
  | Op.shmat _ => isFalse id
  | Op.shmdt _ => isFalse id
  | Op.shmRmid shmid =>
      inferInstanceAs (Decidable (shmid = stack.shmemId))
  | Op.semget _ _ _ => isFalse id
  | Op.semop _ _ _ _ => isFalse id
  | Op.getval _ _ => isFalse id
  | Op.semRmid semid => inferInstanceAs (Decidable (semid = stack.semId))
  | Op.store _ _ _ => isFalse id
  | Op.load _ _ => isFalse id

def Status.alive : Status iota -> Bool
  | Status.ended _ => false
  | _ => true

/-- One step.  Stack `d` is the one that others may remove; a run is observed
until the process ends. -/
def step [DecidableEq iota] (cfg : Config iota) (d : iota) (s : State iota) :
    Label iota -> Option (State iota)
  | Label.begin i timeoutFlag asked =>
      match s.status with
      | Status.idle =>
          some
            { s with
              status :=
                Status.busy i asked (asked.code timeoutFlag (cfg.handle i)) }
      | _ => none
  | Label.atom i removed =>
      match s.status with
      | Status.busy j asked code =>
          if j = i then
            match code with
            | Program.ret _ => none
            | Program.halt _ => some { s with status := Status.ended i }
            | Program.call op next =>
                match s.kernel.exec removed cfg.pid op with
                | none => none
                | some (answer, kernel) =>
                    some
                      { s with
                        status := Status.busy i asked (next answer)
                        kernel := kernel }
          else none
      | _ => none
  | Label.finish i =>
      match s.status with
      | Status.busy j asked (Program.ret outcome) =>
          if j = i then
            some
              { s with
                status := Status.idle
                returned := s.returned ++ [(i, asked, outcome)] }
          else none
      | _ => none
  | Label.other i q removed op =>
      if q ≠ cfg.pid ∧ s.status.alive = true ∧
          (OnStack (cfg.handle i) op ∨ i = d ∧ Removes (cfg.handle i) op) then
        (s.kernel.exec removed q op).map
          (fun after => { s with kernel := after.2 })
      else none

inductive Moves [DecidableEq iota] (cfg : Config iota) (d : iota)
    (s : State iota) : Label iota -> State iota -> Prop where
  | begin {i : iota} {timeoutFlag : Int} {asked : Asked} :
      s.status = Status.idle ->
      Moves cfg d s (Label.begin i timeoutFlag asked)
        { s with
          status :=
            Status.busy i asked (asked.code timeoutFlag (cfg.handle i)) }
  | abort {i : iota} {removed : Removed} {asked : Asked} {reason : Exit} :
      s.status = Status.busy i asked (Program.halt reason) ->
      Moves cfg d s (Label.atom i removed) { s with status := Status.ended i }
  | call {i : iota} {removed : Removed} {asked : Asked} {op : Op}
      {next : op.Res -> Prog Outcome} {answer : op.Res}
      {kernel : Kernel} :
      s.status = Status.busy i asked (Program.call op next) ->
      s.kernel.exec removed cfg.pid op = some (answer, kernel) ->
      Moves cfg d s (Label.atom i removed)
        { s with
          status := Status.busy i asked (next answer)
          kernel := kernel }
  | finish {i : iota} {asked : Asked} {outcome : Outcome} :
      s.status = Status.busy i asked (Program.ret outcome) ->
      Moves cfg d s (Label.finish i)
        { s with
          status := Status.idle
          returned := s.returned ++ [(i, asked, outcome)] }
  | other {i : iota} {q : Pid} {removed : Removed} {op : Op}
      {answer : op.Res} {kernel : Kernel} :
      q ≠ cfg.pid -> s.status.alive = true ->
      OnStack (cfg.handle i) op ∨ i = d ∧ Removes (cfg.handle i) op ->
      s.kernel.exec removed q op = some (answer, kernel) ->
      Moves cfg d s (Label.other i q removed op) { s with kernel := kernel }

theorem Moves.of_step [DecidableEq iota] {cfg : Config iota} {d : iota}
    {s t : State iota} {l : Label iota} (hstep : step cfg d s l = some t) :
    Moves cfg d s l t := by
  cases l with
  | begin i timeoutFlag asked =>
      simp only [step] at hstep
      split at hstep
      case h_1 hidle =>
        cases hstep
        exact Moves.begin hidle
      case h_2 _ => cases hstep
  | atom i removed =>
      simp only [step] at hstep
      split at hstep
      case h_2 _ => cases hstep
      case h_1 j asked code hbusy =>
        split at hstep
        case isFalse _ => cases hstep
        case isTrue hj =>
          rw [hj] at hbusy
          cases code with
          | ret outcome => cases hstep
          | halt reason =>
              cases hstep
              exact Moves.abort hbusy
          | call op next =>
              simp only at hstep
              split at hstep
              case h_1 _ => cases hstep
              case h_2 answer kernel hexec =>
                cases hstep
                exact Moves.call hbusy hexec
  | finish i =>
      simp only [step] at hstep
      split at hstep
      case h_2 _ => cases hstep
      case h_1 j asked outcome hbusy =>
        split at hstep
        case isFalse _ => cases hstep
        case isTrue hj =>
          rw [hj] at hbusy
          cases hstep
          exact Moves.finish hbusy
  | other i q removed op =>
      simp only [step] at hstep
      split at hstep
      case isFalse _ => cases hstep
      case isTrue hallowed =>
        rcases Option.map_eq_some_iff.mp hstep with ⟨answered, hexec, heq⟩
        rw [← heq]
        exact Moves.other hallowed.left hallowed.right.left
          hallowed.right.right hexec

theorem Moves.step_eq [DecidableEq iota] {cfg : Config iota} {d : iota}
    {s t : State iota} {l : Label iota} (h : Moves cfg d s l t) :
    step cfg d s l = some t := by
  cases h with
  | begin hidle => simp only [step, hidle]
  | abort hbusy => simp only [step, hbusy, if_true]
  | call hbusy hexec => simp only [step, hbusy, if_true, hexec]
  | finish hbusy => simp only [step, hbusy, if_true]
  | other hq halive hop hexec =>
      simp only [step, hexec, Option.map_some]
      rw [if_pos ⟨hq, halive, hop⟩]

structure Start (cfg : Config iota) (s : State iota) : Prop where
  status : s.status = Status.idle
  returned : s.returned = []
  sets : forall i, (s.kernel.sets (cfg.handle i).semId).isSome = true
  errno : s.kernel.errno cfg.pid ≠ Errno.eidrm

/-- A reading of COUNT leaves no `EIDRM`: neither the one of an earlier failure,
nor one of its own where the set is gone. -/
def Unmisled (removed : Removed) (k : Kernel) (p : Pid) : Op -> Prop
  | Op.getval semid _ =>
      if (k.sets semid).isSome = true then k.errno p ≠ Errno.eidrm
      else removed ≠ Removed.eidrm
  | _ => True

def NoStaleError (cfg : Config iota) (s : State iota) : Label iota -> Prop
  | Label.atom _ removed =>
      match s.status with
      | Status.busy _ _ (Program.call op _) =>
          Unmisled removed s.kernel cfg.pid op
      | _ => True
  | _ => True

instance (removed : Removed) (k : Kernel) (p : Pid) :
    (op : Op) -> Decidable (Unmisled removed k p op)
  | Op.getval semid _ =>
      inferInstanceAs (Decidable
        (if (k.sets semid).isSome = true then k.errno p ≠ Errno.eidrm
          else removed ≠ Removed.eidrm))
  | Op.shmget _ _ _ => isTrue trivial
  | Op.shmat _ => isTrue trivial
  | Op.shmdt _ => isTrue trivial
  | Op.shmRmid _ => isTrue trivial
  | Op.semget _ _ _ => isTrue trivial
  | Op.semop _ _ _ _ => isTrue trivial
  | Op.semRmid _ => isTrue trivial
  | Op.store _ _ _ => isTrue trivial
  | Op.load _ _ => isTrue trivial

instance (cfg : Config iota) (s : State iota) (l : Label iota) :
    Decidable (NoStaleError cfg s l) := by
  unfold NoStaleError
  split
  · split
    · infer_instance
    · infer_instance
  · infer_instance

/-- What the process sees of the stacks other than `d`: the results, the calls
that run and whether they can go on; and no call on any stack has ended it. -/
structure SameOthers [DecidableEq iota] (cfg : Config iota) (d : iota)
    (s s' : State iota) : Prop where
  returned : s'.returned = s.returned.filter (fun entry => entry.1 ≠ d)
  running : forall i asked code, i ≠ d ->
    (s.status = Status.busy i asked code <->
      s'.status = Status.busy i asked code)
  goesOn : forall i removed, i ≠ d ->
    ((step cfg d s (Label.atom i removed)).isSome =
      (step cfg d s' (Label.atom i removed)).isSome)
  alive : s.status.alive = true ∧ s'.status.alive = true

/-!
## Code that looks at `errno` only behind a reading of COUNT

An `errno` of an earlier call on another stack is the only way in which one
stack can disturb another.
-/

/-- Two answers that the code of a call cannot tell apart. -/
def SameAnswer : (op : Op) -> op.Res -> op.Res -> Prop
  | Op.semop _ _ _ _, answer, answer' => answer.ret = answer'.ret
  | Op.getval _ _, answer, answer' =>
      answer.ret = answer'.ret ∧ answer.errno ≠ Errno.eidrm ∧
        answer'.errno ≠ Errno.eidrm
  | _, answer, answer' => answer = answer'

def Calm : (op : Op) -> op.Res -> Prop
  | Op.getval _ _, answer => answer.errno ≠ Errno.eidrm
  | _, _ => True

def Halted (code : Prog Outcome) : Prop :=
  exists reason, code = Program.halt reason

/-- Code that works on one stack, goes on alike behind answers it cannot tell
apart, and ends the process only behind an `EIDRM`. -/
def Local (stack : StackT) : Prog Outcome -> Prop
  | Program.ret _ => True
  | Program.halt _ => True
  | Program.call op next =>
      OnStack stack op ∧
        (forall answer answer', SameAnswer op answer answer' ->
          next answer = next answer') ∧
        forall answer, (Calm op answer -> ¬ Halted (next answer)) ∧
          Local stack (next answer)

section Code

variable (timeoutFlag : Int) (stack : StackT) (request : Request)

theorem not_halted_ret (outcome : Outcome) :
    ¬ Halted (Program.ret outcome) := by
  rintro ⟨reason, hcontra⟩
  cases hcontra

theorem not_halted_call (op : Op) (next : op.Res -> Prog Outcome) :
    ¬ Halted (Program.call op next) := by
  rintro ⟨reason, hcontra⟩
  cases hcontra

theorem local_semop {semNum : Nat} {val : Int} {flags : SemFlags}
    {rest : Int -> Prog Outcome}
    (hrest : forall ret, ¬ Halted (rest ret) ∧ Local stack (rest ret)) :
    Local stack
      (Program.call (Op.semop stack.semId semNum val flags)
        (fun answer => rest answer.ret)) := by
  refine ⟨rfl, ?_, fun answer =>
    ⟨fun _ => (hrest answer.ret).left, (hrest answer.ret).right⟩⟩
  intro answer answer' hsame
  exact congrArg rest hsame

theorem local_getval {semNum : Nat} {rest : Int -> Prog Outcome}
    (hrest : forall ret, ¬ Halted (rest ret) ∧ Local stack (rest ret)) :
    Local stack
      (Program.call (Op.getval stack.semId semNum) (fun answer =>
        if answer.errno = Errno.eidrm then Program.halt (Exit.exit 1)
        else rest answer.ret)) := by
  refine ⟨rfl, ?_, fun answer => ⟨?_, ?_⟩⟩
  · rintro answer answer' ⟨hret, hcalm, hcalm'⟩
    change (if answer.errno = Errno.eidrm then _ else rest answer.ret) =
      if answer'.errno = Errno.eidrm then _ else rest answer'.ret
    rw [if_neg hcalm, if_neg hcalm', hret]
  · intro hcalm
    change ¬ Halted (if answer.errno = Errno.eidrm then _ else rest answer.ret)
    rw [if_neg hcalm]
    exact (hrest answer.ret).left
  · change Local stack
      (if answer.errno = Errno.eidrm then _ else rest answer.ret)
    split
    · trivial
    · exact (hrest answer.ret).right

theorem local_release (outcome : Outcome) :
    Local stack (Point.releaseCode timeoutFlag stack outcome) :=
  local_semop stack (fun _ => ⟨not_halted_ret outcome, trivial⟩)

theorem local_commit (out : Option Ptr) :
    Local stack (Point.commitCode timeoutFlag stack request out) :=
  local_semop stack
    (fun _ => ⟨not_halted_call _ _, local_release timeoutFlag stack _⟩)

theorem local_access (index : Int) :
    ¬ Halted (Point.accessCode timeoutFlag stack request index) ∧
      Local stack (Point.accessCode timeoutFlag stack request index) := by
  cases request with
  | push val =>
      exact ⟨not_halted_call _ _, rfl, fun _ _ _ => rfl, fun _ =>
        ⟨fun _ => not_halted_call _ _, local_commit timeoutFlag stack _ _⟩⟩
  | pop =>
      refine ⟨not_halted_call _ _, rfl, ?_, fun val =>
        ⟨fun _ => not_halted_call _ _, local_commit timeoutFlag stack _ _⟩⟩
      intro val val' hsame
      have heq : val = val' := hsame
      rw [heq]

theorem local_slot :
    Local stack (Point.slotCode timeoutFlag stack request) :=
  local_getval stack (local_access timeoutFlag stack request)

theorem local_check :
    Local stack (Point.checkCode timeoutFlag stack request) := by
  refine @local_getval stack _ (fun count =>
    if request.refuses stack.size count = true then
      Point.releaseCode timeoutFlag stack { ret := -1, out := none }
    else Point.slotCode timeoutFlag stack request) ?_
  intro count
  by_cases hrefuses : request.refuses stack.size count = true
  · rw [if_pos hrefuses]
    exact ⟨not_halted_call _ _, local_release timeoutFlag stack _⟩
  · rw [if_neg hrefuses]
    exact ⟨not_halted_call _ _, local_slot timeoutFlag stack request⟩

theorem local_acquire :
    Local stack (Point.acquireCode timeoutFlag stack request) := by
  refine @local_semop stack _ _ _ (fun ret =>
    if ret = 0 then Point.checkCode timeoutFlag stack request
    else Program.ret { ret := ret, out := none }) ?_
  intro ret
  by_cases hzero : ret = 0
  · rw [if_pos hzero]
    exact ⟨not_halted_call _ _, local_check timeoutFlag stack request⟩
  · rw [if_neg hzero]
    exact ⟨not_halted_ret _, trivial⟩

theorem local_getCount :
    Local stack (Asked.getCount.code timeoutFlag stack) := by
  have hcode : Asked.getCount.code timeoutFlag stack =
      Program.call (Op.getval stack.semId SEM_COUNT) (fun answer =>
        if answer.errno = Errno.eidrm then Program.halt (Exit.exit 1)
        else Program.ret { ret := answer.ret, out := none }) := by
    simp [Asked.code, getCount, Program.ask, Program.ite_bind]
  rw [hcode]
  exact @local_getval stack _
    (fun ret => Program.ret { ret := ret, out := none })
    (fun _ => ⟨not_halted_ret _, trivial⟩)

theorem local_code (asked : Asked) :
    Local stack (asked.code timeoutFlag stack) ∧
      ¬ Halted (asked.code timeoutFlag stack) := by
  cases asked with
  | getCount =>
      refine ⟨local_getCount timeoutFlag stack, ?_⟩
      rintro ⟨reason, hcontra⟩
      cases hcontra
  | request request =>
      change Local stack (request.code timeoutFlag stack) ∧
        ¬ Halted (request.code timeoutFlag stack)
      rw [request_code_eq, startPoint]
      split
      · exact ⟨local_acquire timeoutFlag stack request, not_halted_call _ _⟩
      · exact ⟨trivial, not_halted_ret _⟩

end Code

/-!
## What an operation on a stack reads and writes
-/

/-- Everything outside a stack and the caller's `errno` is as it was. -/
structure Frame (stack : StackT) (q : Pid) (k k' : Kernel) : Prop where
  sets : forall id, id ≠ stack.semId -> k'.sets id = k.sets id
  segs : forall id, id ≠ stack.memory -> k'.segs id = k.segs id
  errno : forall q', q' ≠ q -> k'.errno q' = k.errno q'

section Operations

variable {removed : Removed} {q : Pid} {stack : StackT}

theorem frame_fail (k : Kernel) (e : Errno) :
    Frame stack q k (k.fail q e).2 :=
  ⟨fun _ _ => rfl, fun _ _ => rfl,
    fun _ hne => Kernel.fail_errno_of_ne k e hne⟩

theorem frame_same (k : Kernel) : Frame stack q k k :=
  ⟨fun _ _ => rfl, fun _ _ => rfl, fun _ _ => rfl⟩

theorem frame_setSem (k : Kernel) (set : Option SemSet) :
    Frame stack q k (k.setSem stack.semId set) :=
  ⟨fun _ hne => Function.update_of_ne hne _ _, fun _ _ => rfl,
    fun _ _ => rfl⟩

theorem frame_setSeg (k : Kernel) (seg : Option Segment) :
    Frame stack q k (k.setSeg stack.memory seg) :=
  ⟨fun _ _ => rfl, fun _ hne => Function.update_of_ne hne _ _,
    fun _ _ => rfl⟩

theorem exec_frame {k k' : Kernel} {op : Op} {answer : op.Res}
    (hop : OnStack stack op)
    (h : k.exec removed q op = some (answer, k')) : Frame stack q k k' := by
  cases op with
  | semop semid semNum semOp flags =>
      have hid : semid = stack.semId := hop
      rw [hid] at h
      cases semop_result h with
      | gone hgone => exact frame_fail k removed.errno
      | refused set e hset he hrange => exact frame_fail k e
      | applied set hset hlow hhigh => exact frame_setSem k _
  | getval semid semNum =>
      simp only [Kernel.exec, Kernel.getval] at h
      split at h
      · cases h
        exact frame_fail k removed.errno
      · cases h
        exact frame_same k
  | store memory index value =>
      have hid : memory = stack.memory := hop
      simp only [Kernel.exec] at h
      split at h
      · cases h
      · cases h
        rw [hid]
        exact frame_setSeg k _
  | load memory index =>
      simp only [Kernel.exec] at h
      split at h
      · cases h
      · cases h
        exact frame_same k
  | shmget key size flags => exact hop.elim
  | shmat shmid => exact hop.elim
  | shmdt memory => exact hop.elim
  | shmRmid shmid => exact hop.elim
  | semget key nsems flags => exact hop.elim
  | semRmid semid => exact hop.elim

theorem removal_frame {k k' : Kernel} {op : Op} {answer : op.Res}
    (hmapped : stack.memory = stack.shmemId) (hop : Removes stack op)
    (h : k.exec removed q op = some (answer, k')) : Frame stack q k k' := by
  cases op with
  | semRmid semid =>
      have hid : semid = stack.semId := hop
      simp only [Kernel.exec, Kernel.semRmid] at h
      split at h
      · cases h
        exact frame_fail k removed.errno
      · cases h
        rw [hid]
        exact ⟨fun _ hne => Function.update_of_ne hne _ _, fun _ _ => rfl,
          fun _ _ => rfl⟩
  | shmRmid shmid =>
      have hid : shmid = stack.memory := hmapped.symm ▸ hop
      simp only [Kernel.exec, Kernel.shmRmid] at h
      split at h
      · cases h
        exact frame_fail k removed.errno
      · cases h
        rw [hid]
        exact ⟨fun _ _ => rfl, fun _ hne => Function.update_of_ne hne _ _,
          fun _ _ => rfl⟩
  | semop semid semNum semOp flags => exact hop.elim
  | getval semid semNum => exact hop.elim
  | store memory index value => exact hop.elim
  | load memory index => exact hop.elim
  | shmget key size flags => exact hop.elim
  | shmat shmid => exact hop.elim
  | shmdt memory => exact hop.elim
  | semget key nsems flags => exact hop.elim

structure Alike (stack : StackT) (k k' : Kernel) : Prop where
  sets : k'.sets stack.semId = k.sets stack.semId
  there : (k.sets stack.semId).isSome = true
  segs : k'.segs stack.memory = k.segs stack.memory

theorem Alike.symm {k k' : Kernel} (h : Alike stack k k') :
    Alike stack k' k where
  sets := h.sets.symm
  there := by
    rw [h.sets]
    exact h.there
  segs := h.segs.symm

theorem exec_alike {k k' k1 : Kernel} {op : Op} {answer : op.Res}
    (hop : OnStack stack op) (hk : Alike stack k k')
    (h : k.exec removed q op = some (answer, k1)) :
    exists answer' k1',
      k'.exec removed q op = some (answer', k1') ∧
      Alike stack k1 k1' ∧
      (k'.errno q ≠ Errno.eidrm -> k1'.errno q ≠ Errno.eidrm) ∧
      (Unmisled removed k q op -> k'.errno q ≠ Errno.eidrm ->
        SameAnswer op answer answer') := by
  rcases Option.isSome_iff_exists.mp hk.there with ⟨set, hset⟩
  have hset' : k'.sets stack.semId = some set := hk.sets.trans hset
  cases op with
  | semop semid semNum semOp flags =>
      have hid : semid = stack.semId := hop
      subst hid
      simp only [Kernel.exec, Kernel.semop, hset] at h
      simp only [Kernel.exec, Kernel.semop, hset']
      split at h
      · rename_i hlow
        rw [if_pos hlow]
        split at h
        · rename_i hflags
          rw [if_pos hflags]
          cases h
          refine ⟨_, _, rfl, ⟨hk.sets, hk.there, hk.segs⟩, fun _ => ?_,
            fun _ _ => rfl⟩
          change Function.update k'.errno q Errno.eagain q ≠ _
          rw [Function.update_self]
          decide
        · cases h
      · rename_i hlow
        rw [if_neg hlow]
        split at h
        · rename_i hhigh
          rw [if_pos hhigh]
          cases h
          refine ⟨_, _, rfl, ⟨hk.sets, hk.there, hk.segs⟩, fun _ => ?_,
            fun _ _ => rfl⟩
          change Function.update k'.errno q Errno.erange q ≠ _
          rw [Function.update_self]
          decide
        · rename_i hhigh
          rw [if_neg hhigh]
          cases h
          refine ⟨_, _, rfl, ⟨?_, ?_, hk.segs⟩, fun hcalm => hcalm,
            fun _ _ => rfl⟩
          · rw [Kernel.setSem_sets_self, Kernel.setSem_sets_self]
          · rw [Kernel.setSem_sets_self]
            rfl
  | getval semid semNum =>
      have hid : semid = stack.semId := hop
      subst hid
      simp only [Kernel.exec, Kernel.getval, hset] at h
      simp only [Kernel.exec, Kernel.getval, hset']
      cases h
      refine ⟨_, _, rfl, hk, fun hcalm => hcalm, fun hcalm hcalm' => ?_⟩
      rw [Unmisled, if_pos hk.there] at hcalm
      exact ⟨rfl, hcalm, hcalm'⟩
  | store memory index value =>
      have hid : memory = stack.memory := hop
      subst hid
      simp only [Kernel.exec] at h
      simp only [Kernel.exec, hk.segs]
      split at h
      · cases h
      · cases h
        refine ⟨_, _, rfl, ⟨hk.sets, hk.there, ?_⟩, fun hcalm => hcalm,
          fun _ _ => rfl⟩
        rw [Kernel.setSeg_segs_self, Kernel.setSeg_segs_self]
  | load memory index =>
      have hid : memory = stack.memory := hop
      subst hid
      simp only [Kernel.exec] at h
      simp only [Kernel.exec, hk.segs]
      split at h
      · cases h
      · cases h
        exact ⟨_, _, rfl, hk, fun hcalm => hcalm, fun _ _ => rfl⟩
  | shmget key size flags => exact hop.elim
  | shmat shmid => exact hop.elim
  | shmdt memory => exact hop.elim
  | shmRmid shmid => exact hop.elim
  | semget key nsems flags => exact hop.elim
  | semRmid semid => exact hop.elim

theorem exec_calm {k k' : Kernel} {op : Op} {answer : op.Res}
    (hop : OnStack stack op) (hcalm : Unmisled removed k q op)
    (h : k.exec removed q op = some (answer, k')) : Calm op answer := by
  cases op with
  | getval semid semNum =>
      simp only [Kernel.exec, Kernel.getval] at h
      rw [Unmisled] at hcalm
      split at h
      case h_1 hgone =>
        rw [hgone, if_neg (by simp)] at hcalm
        cases h
        change removed.errno ≠ Errno.eidrm
        cases removed with
        | einval => decide
        | eidrm => exact absurd rfl hcalm
      case h_2 set hset =>
        rw [hset, if_pos Option.isSome_some] at hcalm
        cases h
        exact hcalm
  | semop _ _ _ _ | store _ _ _ | load _ _ => trivial
  | shmget _ _ _ | shmat _ | shmdt _ | shmRmid _ | semget _ _ _ | semRmid _ =>
      exact hop.elim

end Operations

theorem Alike.frame {cfg : Config iota} {i j : iota} {q : Pid}
    {k k' k1 : Kernel} (hne : j ≠ i)
    (h : Alike (cfg.handle j) k k') (hframe : Frame (cfg.handle i) q k k1) :
    Alike (cfg.handle j) k1 k' := by
  have hsets := hframe.sets (cfg.handle j).semId (cfg.semApart j i hne)
  have hsegs := hframe.segs (cfg.handle j).memory (cfg.memApart j i hne)
  exact ⟨h.sets.trans hsets.symm, by rw [hsets]; exact h.there,
    h.segs.trans hsegs.symm⟩

/-!
## The run without the removed stack

The second run makes the same operations except those on the removed stack.  The
two runs agree on the other stacks as long as no reading of COUNT leaves an
`EIDRM`.
-/

variable [DecidableEq iota]

def Status.without (d : iota) : Status iota -> Status iota
  | Status.idle => Status.idle
  | Status.busy i asked code =>
      if i = d then Status.idle else Status.busy i asked code
  | Status.ended i => if i = d then Status.idle else Status.ended i

structure Agrees (cfg : Config iota) (d : iota) (s s' : State iota) :
    Prop where
  alike : forall i, i ≠ d -> Alike (cfg.handle i) s.kernel s'.kernel
  calm : s'.kernel.errno cfg.pid ≠ Errno.eidrm
  returned : s'.returned = s.returned.filter (fun entry => entry.1 ≠ d)
  status : s'.status = s.status.without d
  code : forall i asked code, s.status = Status.busy i asked code ->
    Local (cfg.handle i) code ∧ ¬ Halted code
  alive : s.status.alive = true

section Steps

variable {cfg : Config iota} {d : iota} {s s' t : State iota}

theorem Agrees.both {i : iota} {q : Pid} {k1 k1' : Kernel}
    (h : Agrees cfg d s s') (hframe : Frame (cfg.handle i) q s.kernel k1)
    (hframe' : Frame (cfg.handle i) q s'.kernel k1')
    (hsame : Alike (cfg.handle i) k1 k1') (j : iota) (hj : j ≠ d) :
    Alike (cfg.handle j) k1 k1' := by
  by_cases hji : j = i
  · rw [hji]
    exact hsame
  · exact ((h.alike j hj).frame hji hframe).symm.frame hji hframe' |>.symm

theorem Agrees.alone {q : Pid} {k1 : Kernel} (h : Agrees cfg d s s')
    (hframe : Frame (cfg.handle d) q s.kernel k1) (j : iota) (hj : j ≠ d) :
    Alike (cfg.handle j) k1 s'.kernel :=
  (h.alike j hj).frame hj hframe

theorem Agrees.busy_iff (h : Agrees cfg d s s') {i : iota} {asked : Asked}
    {code : Prog Outcome} (hi : i ≠ d) :
    s.status = Status.busy i asked code <->
      s'.status = Status.busy i asked code := by
  rw [h.status]
  constructor
  · intro hbusy
    rw [hbusy]
    exact if_neg hi
  · intro hbusy
    cases hstatus : s.status with
    | idle =>
        rw [hstatus] at hbusy
        cases hbusy
    | busy j asked' code' =>
        rw [hstatus, Status.without] at hbusy
        split at hbusy
        · cases hbusy
        · exact hbusy
    | ended j =>
        rw [hstatus, Status.without] at hbusy
        split at hbusy
        · cases hbusy
        · cases hbusy

theorem Status.without_busy_self (asked : Asked) (code : Prog Outcome) :
    (Status.busy d asked code).without d = Status.idle :=
  if_pos rfl

theorem Status.without_alive {status : Status iota}
    (h : status.alive = true) : (status.without d).alive = true := by
  cases status with
  | idle => rfl
  | busy i asked code =>
      rw [Status.without]
      split
      · rfl
      · rfl
  | ended i => cases h

theorem agrees_step_removed {l : Label iota} (hl : l.stack = d)
    (h : Agrees cfg d s s') (hguard : NoStaleError cfg s l)
    (hstep : step cfg d s l = some t) :
    Agrees cfg d t s' := by
  have hstay : forall asked code, s.status = Status.busy d asked code ->
      s'.status = Status.idle := by
    intro asked code hbusy
    rw [h.status, hbusy, Status.without_busy_self]
  cases Moves.of_step hstep with
  | @begin i timeoutFlag asked hidle =>
      have hid : i = d := hl
      rw [hid]
      refine ⟨h.alike, h.calm, h.returned, ?_, ?_, rfl⟩
      · rw [h.status, hidle]
        exact (Status.without_busy_self _ _).symm
      · intro j asked' code hbusy
        cases hbusy
        exact local_code timeoutFlag (cfg.handle d) asked
  | @abort i removed asked reason hbusy =>
      exact absurd ⟨reason, rfl⟩ (h.code i asked _ hbusy).right
  | @call i removed asked op next answer kernel hbusy hexec =>
      have hid : i = d := hl
      have hcalm : Unmisled removed s.kernel cfg.pid op := by
        simpa only [NoStaleError, hbusy] using hguard
      rw [hid] at hbusy ⊢
      have hlocal := (h.code d asked _ hbusy).left
      refine ⟨h.alone (exec_frame hlocal.left hexec), h.calm, h.returned,
        ?_, ?_, rfl⟩
      · rw [hstay _ _ hbusy]
        exact (Status.without_busy_self _ _).symm
      · intro j asked' code hbusy
        cases hbusy
        have hnext := hlocal.right.right answer
        exact ⟨hnext.right,
          hnext.left (exec_calm hlocal.left hcalm hexec)⟩
  | @finish i asked outcome hbusy =>
      have hid : i = d := hl
      rw [hid] at hbusy ⊢
      refine ⟨h.alike, h.calm, ?_, hstay _ _ hbusy, ?_, rfl⟩
      · rw [h.returned, List.filter_append,
          List.filter_cons_of_neg (by simp)]
        simp
      · intro j asked' code hbusy
        cases hbusy
  | @other i q removed op answer kernel _ _ hop hexec =>
      have hid : i = d := hl
      rw [hid] at hop
      have hframe : Frame (cfg.handle d) q s.kernel kernel := by
        rcases hop with hop | ⟨_, hop⟩
        · exact exec_frame hop hexec
        · exact removal_frame (cfg.mapped d) hop hexec
      exact ⟨h.alone hframe, h.calm, h.returned, h.status, h.code, h.alive⟩

theorem agrees_step_other {l : Label iota} (hl : l.stack ≠ d)
    (h : Agrees cfg d s s') (hguard : NoStaleError cfg s l)
    (hstep : step cfg d s l = some t) :
    exists t', step cfg d s' l = some t' ∧ Agrees cfg d t t' := by
  cases Moves.of_step hstep with
  | @begin i timeoutFlag asked hidle =>
      have hidle' : s'.status = Status.idle := by
        rw [h.status, hidle]
        rfl
      refine ⟨_, (Moves.begin hidle').step_eq, h.alike, h.calm, h.returned,
        (if_neg hl).symm, ?_, rfl⟩
      intro j asked' code hbusy
      cases hbusy
      exact local_code timeoutFlag (cfg.handle i) asked
  | @abort i removed asked reason hbusy =>
      exact absurd ⟨reason, rfl⟩ (h.code i asked _ hbusy).right
  | @call i removed asked op next answer kernel hbusy hexec =>
      have hi : i ≠ d := hl
      have hcalm : Unmisled removed s.kernel cfg.pid op := by
        simpa only [NoStaleError, hbusy] using hguard
      rcases (h.code i asked _ hbusy).left with ⟨hop, hsame, hnext⟩
      rcases exec_alike hop (h.alike i hi) hexec with
        ⟨answer', kernel', hexec', halike, herrno, hanswer⟩
      have hanswers := hanswer hcalm h.calm
      have hgoes := exec_calm hop hcalm hexec
      have hmoves : Moves cfg d s' (Label.atom i removed)
          { s' with
            status := Status.busy i asked (next answer')
            kernel := kernel' } :=
        Moves.call ((h.busy_iff hi).mp hbusy) hexec'
      rw [← hsame answer answer' hanswers] at hmoves
      refine ⟨_, hmoves.step_eq, h.both (exec_frame hop hexec)
        (exec_frame hop hexec') halike, herrno h.calm, h.returned,
        (if_neg hi).symm, ?_, rfl⟩
      intro j asked' code hbusy
      cases hbusy
      exact ⟨(hnext answer).right, (hnext answer).left hgoes⟩
  | @finish i asked outcome hbusy =>
      have hi : i ≠ d := hl
      refine ⟨_, (Moves.finish ((h.busy_iff hi).mp hbusy)).step_eq, h.alike,
        h.calm, ?_, rfl, ?_, rfl⟩
      · rw [h.returned, List.filter_append,
          List.filter_cons_of_pos (by simpa using hi)]
        rfl
      · intro j asked' code hbusy
        cases hbusy
  | @other i q removed op answer kernel hq halive hop hexec =>
      have hi : i ≠ d := hl
      have hop' : OnStack (cfg.handle i) op :=
        hop.resolve_right (fun hboth => hi hboth.left)
      rcases exec_alike hop' (h.alike i hi) hexec with
        ⟨answer', kernel', hexec', halike, _, _⟩
      have halive' : s'.status.alive = true := by
        rw [h.status]
        exact Status.without_alive halive
      have hframe' := exec_frame hop' hexec'
      refine ⟨_, (Moves.other hq halive' hop hexec').step_eq,
        h.both (exec_frame hop' hexec) hframe' halike, ?_, h.returned,
        h.status, h.code, h.alive⟩
      change kernel'.errno cfg.pid ≠ Errno.eidrm
      rw [hframe'.errno cfg.pid hq.symm]
      exact h.calm

/-- Every run has its counterpart without the removed stack. -/
theorem agrees_run {labels : List (Label iota)} (h : Agrees cfg d s s')
    (hguard : AllSteps (step cfg d) (NoStaleError cfg) s labels)
    (hrun : run (step cfg d) s labels = some t) :
    exists t',
      run (step cfg d) s' (labels.filter (fun l => l.stack ≠ d)) = some t' ∧
      Agrees cfg d t t' := by
  induction labels generalizing s s' with
  | nil =>
      cases hrun
      exact ⟨s', rfl, h⟩
  | cons l rest ih =>
      rcases run_cons_eq_some hrun with ⟨mid, hstep, hrest⟩
      by_cases hl : l.stack = d
      · rw [List.filter_cons_of_neg (by simpa using hl)]
        exact ih (agrees_step_removed hl h hguard.left hstep)
          (hguard.right mid hstep) hrest
      · rw [List.filter_cons_of_pos (by simpa using hl)]
        rcases agrees_step_other hl h hguard.left hstep with
          ⟨mid', hstep', hagrees⟩
        rw [run_cons_of_step _ hstep']
        exact ih hagrees (hguard.right mid hstep) hrest

/-!
## The results on the other stacks
-/

theorem Agrees.goesOn (h : Agrees cfg d s s') {i : iota} {removed : Removed}
    (hi : i ≠ d) :
    (step cfg d s (Label.atom i removed)).isSome =
      (step cfg d s' (Label.atom i removed)).isSome := by
  have hgoes : forall {s1 s2 : State iota},
      (forall asked code, s1.status = Status.busy i asked code ->
        s2.status = Status.busy i asked code ∧
          Local (cfg.handle i) code ∧ ¬ Halted code) ->
      Alike (cfg.handle i) s1.kernel s2.kernel ->
      (step cfg d s1 (Label.atom i removed)).isSome = true ->
      (step cfg d s2 (Label.atom i removed)).isSome = true := by
    intro s1 s2 hcode hk hsome
    rcases Option.isSome_iff_exists.mp hsome with ⟨t1, hstep⟩
    cases Moves.of_step hstep with
    | abort hbusy =>
        exact absurd ⟨_, rfl⟩ (hcode _ _ hbusy).right.right
    | call hbusy hexec =>
        rcases hcode _ _ hbusy with ⟨hbusy', hlocal, _⟩
        rcases exec_alike hlocal.left hk hexec with ⟨_, _, hexec', _⟩
        rw [(Moves.call hbusy' hexec').step_eq]
        rfl
  apply Bool.eq_iff_iff.mpr
  constructor
  · apply hgoes _ (h.alike i hi)
    intro asked code hbusy
    have hcode := h.code i asked code hbusy
    exact ⟨(h.busy_iff hi).mp hbusy, hcode.left, hcode.right⟩
  · apply hgoes _ (h.alike i hi).symm
    intro asked code hbusy'
    have hbusy := (h.busy_iff hi).mpr hbusy'
    have hcode := h.code i asked code hbusy
    exact ⟨hbusy, hcode.left, hcode.right⟩

theorem Agrees.sameOthers (h : Agrees cfg d s s') :
    SameOthers cfg d s s' where
  returned := h.returned
  running := by
    intro i asked code hi
    exact h.busy_iff hi
  goesOn := fun _ _ hi => h.goesOn hi
  alive := by
    rw [h.status]
    exact ⟨h.alive, Status.without_alive h.alive⟩

theorem Start.agrees (h : Start cfg s) : Agrees cfg d s s where
  alike _ _ := ⟨rfl, h.sets _, rfl⟩
  calm := h.errno
  returned := by
    rw [h.returned]
    rfl
  status := by
    rw [h.status]
    rfl
  code := by
    intro i asked code hbusy
    rw [h.status] at hbusy
    cases hbusy
  alive := by
    rw [h.status]
    rfl

end Steps

/-!
## A stack that is removed under a waiting `pop`
-/

def twoStacks : Config Bool where
  pid := 1
  handle i :=
    { size := 1
      memory := if i then 1 else 0
      shmemId := if i then 1 else 0
      semId := if i then 1 else 0 }
  mapped _ := rfl
  semApart i j h := by
    cases i <;> cases j <;> first | exact absurd rfl h | decide
  memApart i j h := by
    cases i <;> cases j <;> first | exact absurd rfl h | decide

def bothEmpty : State Bool where
  kernel :=
    { Kernel.empty 65536 with
      segs := fun _ => some (Segment.new 5 8)
      sets := fun id =>
        some
          { SemSet.new 5 with
            val := fun semNum => if semNum = SEM_FLAG then id else 0 } }
  status := Status.idle
  returned := []

def poppedAndRemoved (removed : Removed) : List (Label Bool) :=
  [Label.begin false 0 (Asked.request Request.pop),
    Label.other false 2 removed (Op.semRmid 0),
    Label.atom false removed, Label.finish false,
    Label.begin true 0 Asked.getCount, Label.atom true removed]

theorem bothEmpty_start : Start twoStacks bothEmpty :=
  ⟨rfl, rfl, fun i => by cases i <;> rfl, by decide⟩

end Isolation
end Stack
end UnixPrograms
