import UnixPrograms.Stack.Points
import UnixPrograms.Ipc.Calls

/-!
# One process on a stack of its own

With nobody else acting, each call of `push`, `pop` and `get_count` runs to
its end, and what it does is a function of COUNT, the slots and the handle's
size.  The number of elements is kept in a semaphore, so one more case than
the source names appears: a push that finds COUNT at the ceiling of a
semaphore still returns 0.
-/

namespace UnixPrograms
namespace Stack

open Foundation
open Ipc

abbrev solo {alpha : Type} (removed : Removed) (p : Pid) (code : Prog alpha)
    (k : Kernel) : Option (Except Exit alpha × Kernel) :=
  Program.eval (fun op k => k.exec removed p op) code k

/-- What a stack holds: COUNT and the slots. -/
structure Contents where
  count : Int
  memory : Int -> Ptr

/-- The stack of a handle is mapped, with the given contents and FLAG value,
and its process has not yet met a removed object. -/
structure Holds (k : Kernel) (p : Pid) (h : StackT) (c : Contents)
    (flag : Int) : Prop where
  segment : exists seg, k.segs h.memory = some seg ∧ seg.memory = c.memory ∧
    seg.attached.contains p = true
  set : exists set, k.sets h.semId = some set ∧
    set.val SEM_COUNT = c.count ∧ set.val SEM_FLAG = flag
  errno : k.errno p ≠ Errno.eidrm

namespace Contents

/-- The change of COUNT, up to the ceiling of a semaphore. -/
def raise (c : Contents) : Contents :=
  { c with count := if c.count < SEMVMX then c.count + 1 else c.count }

def lower (c : Contents) : Contents :=
  { c with count := c.count - 1 }

def write (c : Contents) (val : Ptr) : Contents :=
  { c with memory := Function.update c.memory c.count val }

def call (size timeoutFlag : Int) (c : Contents) :
    Request -> Outcome × Contents
  | Request.push val =>
      if ValidWait timeoutFlag ∧ c.count < size then
        ({ ret := 0, out := none }, (c.write val).raise)
      else
        ({ ret := -1, out := none }, c)
  | Request.pop =>
      if ValidWait timeoutFlag ∧ c.count ≠ 0 then
        ({ ret := 0, out := some (c.memory (c.count - 1)) }, c.lower)
      else
        ({ ret := -1, out := none }, c)

def Legal (c : Contents) : Prop :=
  0 ≤ c.count ∧ c.count ≤ SEMVMX

theorem Legal.call {c : Contents} (hc : c.Legal) (size timeoutFlag : Int)
    (request : Request) : (c.call size timeoutFlag request).2.Legal := by
  rcases hc with ⟨hlow, hhigh⟩
  cases request with
  | push val =>
      by_cases hroom : ValidWait timeoutFlag ∧ c.count < size
      · simp only [Contents.call, if_pos hroom]
        by_cases hceiling : c.count < SEMVMX <;>
          simp only [Legal, raise, write, hceiling, if_true, if_false] <;> lia
      · simp only [Contents.call, if_neg hroom]
        exact ⟨hlow, hhigh⟩
  | pop =>
      by_cases hsome : ValidWait timeoutFlag ∧ c.count ≠ 0
      · simp only [Contents.call, if_pos hsome, Legal, lower]
        have hne := hsome.right
        lia
      · simp only [Contents.call, if_neg hsome]
        exact ⟨hlow, hhigh⟩

end Contents

/-!
## Single kernel calls
-/

section Calls

variable {p : Pid} {h : StackT} {k : Kernel} {c : Contents} {flag : Int}

theorem Holds.flag_call (hk : Holds k p h c flag) (removed : Removed)
    (flags : SemFlags) (delta : Int) (hlow : 0 ≤ flag + delta)
    (hhigh : flag + delta ≤ SEMVMX) :
    exists answer k',
      k.exec removed p (Op.semop h.semId SEM_FLAG delta flags) =
        some (answer, k') ∧
        answer.ret = 0 ∧ Holds k' p h c (flag + delta) := by
  rcases hk.set with ⟨set, hset, hcount, hflag⟩
  have hop := semop_applied removed p flags hset
    (by rw [hflag]; exact hlow) (by rw [hflag]; exact hhigh)
  refine ⟨_, _, hop, rfl, hk.segment,
    ⟨set.apply p SEM_FLAG delta flags.undo, ?_, ?_, ?_⟩, hk.errno⟩
  · exact Kernel.setSem_sets_self _ _ _
  · rw [SemSet.apply_val_of_ne _ _ _ _ (by decide), hcount]
  · rw [SemSet.apply_val_self, hflag]

theorem Holds.count_lower (hk : Holds k p h c flag) (removed : Removed)
    (hlow : 0 < c.count) (hhigh : c.count ≤ SEMVMX) :
    exists answer k',
      k.exec removed p (Op.semop h.semId SEM_COUNT (-1) countFlags) =
        some (answer, k') ∧
        Holds k' p h c.lower flag := by
  rcases hk.set with ⟨set, hset, hcount, hflag⟩
  have hop : k.semop removed p h.semId SEM_COUNT (-1) countFlags = _ :=
    semop_applied removed p countFlags hset (by rw [hcount]; lia)
      (by rw [hcount]; lia)
  refine ⟨_, _, hop, hk.segment,
    ⟨set.apply p SEM_COUNT (-1) countFlags.undo, ?_, ?_, ?_⟩, hk.errno⟩
  · exact Kernel.setSem_sets_self _ _ _
  · rw [SemSet.apply_val_self, hcount]
    rfl
  · rw [SemSet.apply_val_of_ne _ _ _ _ (by decide), hflag]

theorem Holds.count_raise (hk : Holds k p h c flag) (removed : Removed)
    (hlow : 0 ≤ c.count) :
    exists answer k',
      k.exec removed p (Op.semop h.semId SEM_COUNT 1 countFlags) =
        some (answer, k') ∧
        Holds k' p h c.raise flag := by
  rcases hk.set with ⟨set, hset, hcount, hflag⟩
  by_cases hceiling : c.count < SEMVMX
  · have hop : k.semop removed p h.semId SEM_COUNT 1 countFlags = _ :=
      semop_applied removed p countFlags hset (by rw [hcount]; lia)
        (by rw [hcount]; lia)
    refine ⟨_, _, hop, hk.segment,
      ⟨set.apply p SEM_COUNT 1 countFlags.undo, ?_, ?_, ?_⟩, hk.errno⟩
    · exact Kernel.setSem_sets_self _ _ _
    · rw [SemSet.apply_val_self, hcount, Contents.raise, if_pos hceiling]
    · rw [SemSet.apply_val_of_ne _ _ _ _ (by decide), hflag]
  · have hop : k.semop removed p h.semId SEM_COUNT 1 countFlags = _ :=
      semop_erange removed p countFlags hset (by rw [hcount]; lia)
        (by rw [hcount]; lia)
    refine ⟨_, _, hop, hk.segment, ⟨set, hset, ?_, hflag⟩, ?_⟩
    · rw [hcount, Contents.raise, if_neg hceiling]
    · simp

theorem Holds.getval (hk : Holds k p h c flag) (removed : Removed) :
    exists answer,
      k.exec removed p (Op.getval h.semId SEM_COUNT) = some (answer, k) ∧
        answer.ret = c.count ∧ answer.errno ≠ Errno.eidrm := by
  rcases hk.set with ⟨set, hset, hcount, hflag⟩
  have hop := getval_some removed p SEM_COUNT hset
  exact ⟨_, congrArg some hop, hcount, hk.errno⟩

theorem Holds.store (hk : Holds k p h c flag) (removed : Removed)
    (val : Ptr) :
    exists k',
      k.exec removed p (Op.store h.memory c.count val) = some ((), k') ∧
        Holds k' p h (c.write val) flag := by
  rcases hk.segment with ⟨seg, hseg, hmemory, hattached⟩
  let seg' : Segment :=
    { seg with memory := Function.update seg.memory c.count val }
  refine ⟨k.setSeg h.memory (some seg'), ?_,
    ⟨seg', Kernel.setSeg_segs_self _ _ _, ?_, hattached⟩, hk.set, hk.errno⟩
  · simp only [Kernel.exec, hseg]
    rfl
  · simp only [seg', hmemory]
    rfl

theorem Holds.load (hk : Holds k p h c flag) (removed : Removed)
    (index : Int) :
    k.exec removed p (Op.load h.memory index) =
      some (c.memory index, k) := by
  rcases hk.segment with ⟨seg, hseg, hmemory, _⟩
  simp only [Kernel.exec, hseg, hmemory]

end Calls

/-!
## Whole calls
-/

section Solo

variable {p : Pid} {h : StackT} {k : Kernel} {c : Contents} {flag : Int}

theorem solo_getCount (hk : Holds k p h c flag) (removed : Removed) :
    solo removed p (getCount (some h)) k = some (Except.ok c.count, k) := by
  rcases hk.getval removed with ⟨answer, hop, hret, herr⟩
  have hcode : getCount (some h) =
      Program.call (Op.getval h.semId SEM_COUNT) (fun answer =>
        if answer.errno = Errno.eidrm then Program.halt (Exit.exit 1)
        else Program.ret answer.ret) := rfl
  rw [hcode]
  unfold solo
  rw [Program.eval_call _ hop, if_neg herr, hret]
  rfl

theorem solo_release (hk : Holds k p h c 0) (removed : Removed)
    (timeoutFlag : Int) (outcome : Outcome) :
    exists k',
      solo removed p (Point.releaseCode timeoutFlag h outcome) k =
        some (Except.ok outcome, k') ∧ Holds k' p h c 1 := by
  rcases hk.flag_call removed (flagFlags timeoutFlag) 1 (by decide)
    (by decide) with ⟨answer, k', hop, _, hk'⟩
  exact ⟨k', Program.eval_call _ hop, hk'⟩

theorem solo_begin (hk : Holds k p h c 1) (removed : Removed)
    {timeoutFlag : Int} (hwait : ValidWait timeoutFlag) (request : Request) :
    exists k', Holds k' p h c 0 ∧
      solo removed p (request.code timeoutFlag h) k =
        solo removed p
          (if request.refuses h.size c.count = true then
            Point.releaseCode timeoutFlag h { ret := -1, out := none }
          else Point.slotCode timeoutFlag h request) k' := by
  rcases hk.flag_call removed (flagFlags timeoutFlag) (-1) (by decide)
    (by decide) with ⟨answer, k', hop, hret, hk'⟩
  rcases hk'.getval removed with ⟨reading, hread, hcount, herr⟩
  refine ⟨k', hk', ?_⟩
  rw [request_code_eq, startPoint, if_pos hwait]
  unfold solo
  simp only [Point.code, Point.acquireCode]
  rw [Program.eval_call _ hop, if_pos hret, Point.checkCode,
    Program.eval_call _ hread, if_neg herr, hcount]

theorem solo_slot_push (hk : Holds k p h c 0) (removed : Removed)
    (hlow : 0 ≤ c.count) (timeoutFlag : Int) (val : Ptr) :
    exists k',
      solo removed p (Point.slotCode timeoutFlag h (Request.push val)) k =
        some (Except.ok { ret := 0, out := none }, k') ∧
        Holds k' p h (c.write val).raise 1 := by
  rcases hk.getval removed with ⟨reading, hread, hcount, herr⟩
  rcases hk.store removed val with ⟨k1, hstore, hk1⟩
  rcases hk1.count_raise removed hlow with ⟨answer, k2, hraise, hk2⟩
  rcases solo_release hk2 removed timeoutFlag
    { ret := 0, out := none } with ⟨k3, hrelease, hk3⟩
  refine ⟨k3, ?_, hk3⟩
  unfold solo
  rw [Point.slotCode, Program.eval_call _ hread, if_neg herr, hcount,
    Point.accessCode, Program.eval_call _ hstore, Point.commitCode,
    Request.delta, Program.eval_call _ hraise]
  exact hrelease

theorem solo_slot_pop (hk : Holds k p h c 0) (removed : Removed)
    (hlow : 0 < c.count) (hhigh : c.count ≤ SEMVMX) (timeoutFlag : Int) :
    exists k',
      solo removed p (Point.slotCode timeoutFlag h Request.pop) k =
        some (Except.ok
          { ret := 0, out := some (c.memory (c.count - 1)) }, k') ∧
        Holds k' p h c.lower 1 := by
  rcases hk.getval removed with ⟨reading, hread, hcount, herr⟩
  have hload := hk.load removed (c.count - 1)
  rcases hk.count_lower removed hlow hhigh with ⟨answer, k1, hlower, hk1⟩
  rcases solo_release hk1 removed timeoutFlag
    { ret := 0, out := some (c.memory (c.count - 1)) } with
    ⟨k2, hrelease, hk2⟩
  refine ⟨k2, ?_, hk2⟩
  unfold solo
  rw [Point.slotCode, Program.eval_call _ hread, if_neg herr, hcount,
    Point.accessCode, Program.eval_call _ hload, Point.commitCode,
    Request.delta, Program.eval_call _ hlower]
  exact hrelease

/-- Every call of a lone process does to the stack what it does to the
contents. -/
theorem solo_request (hk : Holds k p h c 1) (removed : Removed)
    (hc : c.Legal) (timeoutFlag : Int) (request : Request) :
    exists k',
      solo removed p (request.code timeoutFlag h) k =
        some (Except.ok (c.call h.size timeoutFlag request).1, k') ∧
        Holds k' p h (c.call h.size timeoutFlag request).2 1 := by
  by_cases hwait : ValidWait timeoutFlag
  · rcases solo_begin hk removed hwait request with ⟨k1, hk1, hbegin⟩
    rw [hbegin]
    rcases hc with ⟨hlow, hhigh⟩
    cases request with
    | push val =>
        by_cases hroom : c.count < h.size
        · have href : (Request.push val).refuses h.size c.count = false := by
            simpa [Request.refuses] using hroom
          rw [href, if_neg (by decide)]
          simp only [Contents.call, if_pos (And.intro hwait hroom)]
          exact solo_slot_push hk1 removed hlow timeoutFlag val
        · have href : (Request.push val).refuses h.size c.count = true := by
            simpa [Request.refuses] using hroom
          rw [href, if_pos rfl]
          simp only [Contents.call, if_neg (not_and_of_not_right _ hroom)]
          exact solo_release hk1 removed timeoutFlag _
    | pop =>
        by_cases hzero : c.count = 0
        · have href : Request.pop.refuses h.size c.count = true := by
            simpa [Request.refuses] using hzero
          rw [href, if_pos rfl]
          have hempty : ¬ (ValidWait timeoutFlag ∧ c.count ≠ 0) :=
            fun hboth => hboth.right hzero
          simp only [Contents.call, if_neg hempty]
          exact solo_release hk1 removed timeoutFlag _
        · have href : Request.pop.refuses h.size c.count = false := by
            simpa [Request.refuses] using hzero
          rw [href, if_neg (by decide)]
          simp only [Contents.call, if_pos (And.intro hwait hzero)]
          exact solo_slot_pop hk1 removed (by lia) hhigh timeoutFlag
  · refine ⟨k, ?_, ?_⟩
    · rw [request_code_eq, startPoint, if_neg hwait]
      cases request <;> simp [Contents.call, hwait, Point.code]
    · cases request <;> simpa [Contents.call, hwait] using hk

end Solo

end Stack
end UnixPrograms
