import UnixPrograms.Stack.Leftovers

/-!
# Clearing a key

`clear_key` attaches the stack of the key before it removes it, so it can
clear only what `attach_stack` accepts: both objects of the key, the segment
large enough, or neither of them.
-/

namespace UnixPrograms
namespace Stack

open Foundation
open Ipc

/-- The objects of a key exist, know their key and have positive
identifiers, and so have the next ones. -/
structure SoundKey (k : Kernel) (key : Int) : Prop where
  shm : forall id, k.shmKeys key = some id ->
    0 < id ∧ exists seg, k.segs id = some seg ∧ seg.key = key
  sem : forall id, k.semKeys key = some id ->
    0 < id ∧ exists set, k.sets id = some set ∧ set.key = key
  nextShm : 0 < k.nextShm
  nextSem : 0 < k.nextSem

def SizeAllowed (k : Kernel) (size : Int) : Prop :=
  SHMMIN ≤ sizeT size ∧ sizeT size ≤ k.shmmax

/-- Both objects of the key exist and the segment is large enough, or neither
exists and the segment can be made. -/
def CanAttach (k : Kernel) (key size : Int) : Prop :=
  (k.shmKeys key = none ∧ k.semKeys key = none ∧ SizeAllowed k size) ∨
    exists id seg, k.shmKeys key = some id ∧ k.segs id = some seg ∧
      sizeT size ≤ seg.size ∧ k.semKeys key ≠ none

/-- What `clear_key` is for: it returns, and the next `attach_stack` gives an
empty stack whose first push succeeds. -/
structure Clears (removed : Removed) (p : Pid) (timeoutFlag key size : Int)
    (k k1 k2 : Kernel) (h : StackT) : Prop where
  clear : solo removed p (clearKey timeoutFlag key size) k =
    some (Except.ok (), k1)
  attach : solo removed p (attachStack timeoutFlag key size) k1 =
    some (Except.ok (some h), k2)
  empty : exists set, k2.sets h.semId = some set ∧ set.val SEM_COUNT = 0 ∧
    set.val SEM_FLAG = 1
  push : 1 ≤ size -> forall val, exists k3,
    solo removed p ((Request.push val).code timeoutFlag h) k2 =
      some (Except.ok { ret := 0, out := none }, k3)

def Clearable (k : Kernel) (timeoutFlag key size : Int) : Prop :=
  key ≠ IPC_PRIVATE ∧ ValidWait timeoutFlag ∧ SizeAllowed k size ∧
    CanAttach k key size

/-!
## Identifiers only grow
-/

structure Later (k k' : Kernel) : Prop where
  shmmax : k'.shmmax = k.shmmax
  nextShm : k.nextShm ≤ k'.nextShm
  nextSem : k.nextSem ≤ k'.nextSem

theorem Later.of_same {k k' : Kernel} (hmax : k'.shmmax = k.shmmax)
    (hshm : k'.nextShm = k.nextShm) (hsem : k'.nextSem = k.nextSem) :
    Later k k' :=
  ⟨hmax, Int.le_of_eq hshm.symm, Int.le_of_eq hsem.symm⟩

theorem Later.trans {k k' k'' : Kernel} (h : Later k k')
    (h' : Later k' k'') : Later k k'' :=
  ⟨h'.shmmax.trans h.shmmax, Int.le_trans h.nextShm h'.nextShm,
    Int.le_trans h.nextSem h'.nextSem⟩

section Growth

variable {removed : Removed} {p : Pid} {k : Kernel}

theorem later_shmCreate (key size : Int) :
    Later k (k.shmCreate p key size).2 := by
  unfold Kernel.shmCreate
  split
  · exact Later.of_same rfl rfl rfl
  · exact ⟨rfl, Int.le.intro 1 rfl, Int.le_refl _⟩

theorem later_shmget (key size : Int) (flags : GetFlags) :
    Later k (k.shmget p key size flags).2 := by
  unfold Kernel.shmget
  split
  · exact later_shmCreate key size
  · split
    · split
      · exact Later.of_same rfl rfl rfl
      · split
        · exact Later.of_same rfl rfl rfl
        · split
          · exact Later.of_same rfl rfl rfl
          · exact Later.of_same rfl rfl rfl
    · split
      · exact later_shmCreate key size
      · exact Later.of_same rfl rfl rfl

theorem later_newSem (key : Int) : Later k (k.newSem key) :=
  ⟨rfl, Int.le_refl _, Int.le.intro 1 rfl⟩

theorem later_semget (key : Int) (flags : GetFlags) :
    Later k (k.semget p key flags).2 := by
  unfold Kernel.semget
  split
  · exact later_newSem key
  · split
    · split
      · exact Later.of_same rfl rfl rfl
      · exact Later.of_same rfl rfl rfl
    · split
      · exact later_newSem key
      · exact Later.of_same rfl rfl rfl

theorem later_semop {k' : Kernel} {semid semOp : Int} {semNum : Nat}
    {flags : SemFlags} {answer : Answer}
    (h : k.semop removed p semid semNum semOp flags = some (answer, k')) :
    Later k k' := by
  cases semop_result h with
  | gone hgone => exact Later.of_same rfl rfl rfl
  | refused set e hset he hrange => exact Later.of_same rfl rfl rfl
  | applied set hset hlow hhigh => exact Later.of_same rfl rfl rfl

theorem later_exec {k' : Kernel} {op : Op} {answer : op.Res}
    (h : k.exec removed p op = some (answer, k')) : Later k k' := by
  cases op with
  | shmget key size flags =>
      have hk : k' = (k.shmget p key size flags).2 := by
        injection h with h
        rw [h]
      rw [hk]
      exact later_shmget key size flags
  | shmat shmid =>
      simp only [Kernel.exec, Kernel.shmat] at h
      split at h
      · cases h
        exact Later.of_same rfl rfl rfl
      · cases h
        exact Later.of_same rfl rfl rfl
  | shmdt memory =>
      simp only [Kernel.exec, Kernel.shmdt] at h
      split at h
      · cases h
        exact Later.of_same rfl rfl rfl
      · split at h
        · cases h
          exact Later.of_same rfl rfl rfl
        · cases h
          exact Later.of_same rfl rfl rfl
  | shmRmid shmid =>
      simp only [Kernel.exec, Kernel.shmRmid] at h
      split at h
      · cases h
        exact Later.of_same rfl rfl rfl
      · cases h
        exact Later.of_same rfl rfl rfl
  | semget key nsems flags =>
      have hk : k' = (k.semget p key flags).2 := by
        injection h with h
        rw [h]
      rw [hk]
      exact later_semget key flags
  | semop semid semNum semOp flags => exact later_semop h
  | getval semid semNum =>
      simp only [Kernel.exec, Kernel.getval] at h
      split at h
      · cases h
        exact Later.of_same rfl rfl rfl
      · cases h
        exact Later.of_same rfl rfl rfl
  | semRmid semid =>
      simp only [Kernel.exec, Kernel.semRmid] at h
      split at h
      · cases h
        exact Later.of_same rfl rfl rfl
      · cases h
        exact Later.of_same rfl rfl rfl
  | store memory index value =>
      simp only [Kernel.exec] at h
      split at h
      · cases h
      · cases h
        exact Later.of_same rfl rfl rfl
  | load memory index =>
      simp only [Kernel.exec] at h
      split at h
      · cases h
      · cases h
        exact Later.of_same rfl rfl rfl

theorem later_solo {alpha : Type} {code : Prog alpha} {k' : Kernel}
    {result : Except Exit alpha}
    (h : solo removed p code k = some (result, k')) : Later k k' := by
  induction code generalizing k with
  | ret value =>
      cases h
      exact Later.of_same rfl rfl rfl
  | halt reason =>
      cases h
      exact Later.of_same rfl rfl rfl
  | call op next ih =>
      cases hexec : k.exec removed p op with
      | none =>
          simp only [solo, Program.eval, hexec] at h
          cases h
      | some answered =>
          simp only [solo, Program.eval, hexec] at h
          exact (later_exec hexec).trans (ih answered.1 h)

end Growth

/-!
## Attaching

`attach_stack` gives a handle in two cases only: both objects of the key exist
and the segment is large enough, or neither exists and both are made.
-/

structure Complete (k : Kernel) (key : Int) (h : StackT) : Prop where
  shm : k.shmKeys key = some h.shmemId
  segment : exists seg, k.segs h.shmemId = some seg ∧ seg.key = key
  sem : k.semKeys key = some h.semId
  set : exists set, k.sets h.semId = some set ∧ set.key = key

section Attach

variable {removed : Removed} {p : Pid} {timeoutFlag key size : Int}
  {k k' : Kernel} {h : StackT}

theorem create_makes (hkey : key ≠ IPC_PRIVATE) (hshm : k.shmKeys key = none)
    (hsem : k.semKeys key = none) (hids : 0 < k.nextShm)
    (hsemIds : 0 < k.nextSem) (hsize : SizeAllowed k size)
    (herrno : k.errno p = Errno.enoent) :
    exists h k',
      solo removed p (AttachPoint.createCode timeoutFlag key size) k =
        some (Except.ok (some h), k') ∧
      h.size = size ∧ Complete k' key h ∧
      Holds k' p h { count := 0, memory := fun _ => 0 }
        (if ValidWait timeoutFlag then 1 else 0) := by
  let seg : Segment :=
    { Segment.new key (sizeT size) with attached := [p] }
  let k2 := (k.newSeg key (sizeT size)).setSeg k.nextShm (some seg)
  let k3 := k2.newSem key
  let h := AttachPoint.handle size k.nextShm k.nextShm k.nextSem
  have hcreate : k.exec removed p (Op.shmget key size shmgetCreatExcl) =
      some (k.ok p k.nextShm, k.newSeg key (sizeT size)) :=
    congrArg some ((shmget_create p hshm rfl).trans
      (shmCreate_ok p hsize.left hsize.right))
  have hmap : (k.newSeg key (sizeT size)).exec removed p
      (Op.shmat k.nextShm) = some (k.ok p k.nextShm, k2) :=
    congrArg some (shmat_some p removed
      (Kernel.newSeg_segs_self k key (sizeT size)))
  have hget : k2.exec removed p (Op.semget key 2 shmgetCreatExcl) =
      some (k2.ok p k.nextSem, k3) :=
    congrArg some (semget_create p hsem rfl)
  have hgood : ¬ ((k2.ok p k.nextSem).errno = Errno.eexist ∨
      (k2.ok p k.nextSem).ret ≤ 0) := by
    rintro (hcontra | hcontra)
    · change k.errno p = Errno.eexist at hcontra
      rw [herrno] at hcontra
      cases hcontra
    · rw [Kernel.ok_ret] at hcontra
      lia
  have hset := Kernel.newSem_sets_self k2 key
  have hshmKey : k3.shmKeys key = some k.nextShm :=
    Kernel.newSeg_shmKeys k (sizeT size) hkey
  have hsemKey : k3.semKeys key = some k.nextSem :=
    Kernel.newSem_semKeys k2 hkey
  have hseg : k3.segs k.nextShm = some seg :=
    Kernel.setSeg_segs_self _ k.nextShm (some seg)
  have hcalm : k3.errno p ≠ Errno.eidrm := by
    change k.errno p ≠ Errno.eidrm
    rw [herrno]
    decide
  have hrun : solo removed p (AttachPoint.createCode timeoutFlag key size) k =
      solo removed p
        (if ValidWait timeoutFlag then
          AttachPoint.raiseFlagCode timeoutFlag size k.nextShm k.nextShm
            k.nextSem
        else Program.ret (some h)) k3 := by
    unfold solo AttachPoint.createCode
    rw [Program.eval_call _ hcreate, Kernel.ok_ret, if_pos hids,
      AttachPoint.mapNewCode, Program.eval_call _ hmap,
      AttachPoint.createSetCode, Program.eval_call _ hget, if_neg hgood]
    rfl
  by_cases hwait : ValidWait timeoutFlag
  · let raised := (SemSet.new key).apply p SEM_FLAG 1 false
    have hraise : k3.exec removed p
        (Op.semop k.nextSem SEM_FLAG 1 (initFlags timeoutFlag)) =
          some (k3.ok p 0, k3.setSem k.nextSem (some raised)) :=
      semop_applied removed p (initFlags timeoutFlag) hset
        (by change (0 : Int) ≤ 0 + 1; decide)
        (by change (0 : Int) + 1 ≤ SEMVMX; decide)
    have hraised := Kernel.setSem_sets_self k3 k.nextSem (some raised)
    refine ⟨h, k3.setSem k.nextSem (some raised), ?_, rfl, ?_, ?_⟩
    · rw [hrun, if_pos hwait]
      exact Program.eval_call _ hraise
    · exact ⟨hshmKey, ⟨seg, hseg, rfl⟩, hsemKey, ⟨raised, hraised, rfl⟩⟩
    · rw [if_pos hwait]
      exact ⟨⟨seg, hseg, rfl, by simp [seg]⟩,
        ⟨raised, hraised, SemSet.apply_val_of_ne _ _ _ _ (by decide),
          SemSet.apply_val_self _ _ _ _ _⟩, hcalm⟩
  · refine ⟨h, k3, ?_, rfl, ?_, ?_⟩
    · rw [hrun, if_neg hwait]
      rfl
    · exact ⟨hshmKey, ⟨seg, hseg, rfl⟩, hsemKey, ⟨_, hset, rfl⟩⟩
    · rw [if_neg hwait]
      exact ⟨⟨seg, hseg, rfl, by simp [seg]⟩, ⟨_, hset, rfl, rfl⟩, hcalm⟩

theorem attach_missing (hkey : key ≠ IPC_PRIVATE)
    (hshm : k.shmKeys key = none) :
    solo removed p (attachStack timeoutFlag key size) k =
      solo removed p (AttachPoint.createCode timeoutFlag key size)
        (k.fail p Errno.enoent).2 := by
  have hprobe : k.exec removed p (Op.shmget key size shmgetExcl) =
      some ((k.fail p Errno.enoent).1, (k.fail p Errno.enoent).2) :=
    congrArg some (shmget_missing p hkey hshm rfl)
  rw [attachStack_code_eq]
  unfold solo AttachPoint.code AttachPoint.probeCode
  rw [Program.eval_call _ hprobe, if_neg (by simp), if_neg (by simp)]

theorem attach_makes (hkey : key ≠ IPC_PRIVATE) (hshm : k.shmKeys key = none)
    (hsem : k.semKeys key = none) (hids : 0 < k.nextShm)
    (hsemIds : 0 < k.nextSem) (hsize : SizeAllowed k size) :
    exists h k',
      solo removed p (attachStack timeoutFlag key size) k =
        some (Except.ok (some h), k') ∧
      h.size = size ∧ Complete k' key h ∧
      Holds k' p h { count := 0, memory := fun _ => 0 }
        (if ValidWait timeoutFlag then 1 else 0) := by
  rw [attach_missing hkey hshm]
  exact create_makes hkey hshm hsem hids hsemIds hsize
    (Kernel.fail_errno_self k p Errno.enoent)

theorem attach_finds (hkey : key ≠ IPC_PRIVATE) (hsound : SoundKey k key)
    {id semId : Int} {seg : Segment} (hid : k.shmKeys key = some id)
    (hseg : k.segs id = some seg) (hfits : sizeT size ≤ seg.size)
    (hsem : k.semKeys key = some semId) :
    exists h k',
      solo removed p (attachStack timeoutFlag key size) k =
        some (Except.ok (some h), k') ∧ Complete k' key h := by
  rcases hsound.shm id hid with ⟨hpos, seg', hseg', hsegKey⟩
  rw [hseg] at hseg'
  injection hseg' with hseg'
  rw [← hseg'] at hsegKey
  rcases hsound.sem semId hsem with ⟨hsemPos, set, hset, hsetKey⟩
  have hprobe : k.exec removed p (Op.shmget key size shmgetExcl) =
      some (k.ok p id, k) :=
    congrArg some (shmget_found p hkey hid hseg rfl hfits)
  have hmap : k.exec removed p (Op.shmat id) = _ :=
    congrArg some (shmat_some p removed hseg)
  let k1 := k.setSeg id (some { seg with attached := p :: seg.attached })
  have hget : k1.exec removed p (Op.semget key 2 shmgetExcl) =
      some (k1.ok p semId, k1) :=
    congrArg some (semget_found p hkey hsem rfl)
  refine ⟨AttachPoint.handle size id id semId, k1, ?_, ?_⟩
  · rw [attachStack_code_eq]
    unfold solo AttachPoint.code AttachPoint.probeCode
    rw [Program.eval_call _ hprobe, Kernel.ok_ret, if_pos hpos,
      AttachPoint.mapFoundCode, Program.eval_call _ hmap, Kernel.ok_ret,
      AttachPoint.lookupCode, Program.eval_call _ hget, Kernel.ok_ret,
      if_neg (by lia)]
    rfl
  · exact ⟨hid, ⟨_, Kernel.setSeg_segs_self _ _ _, hsegKey⟩, hsem,
      ⟨set, hset, hsetKey⟩⟩

theorem create_succeeds (hkey : key ≠ IPC_PRIVATE)
    (hshm : k.shmKeys key = none)
    (hrun : solo removed p (AttachPoint.createCode timeoutFlag key size)
      (k.fail p Errno.enoent).2 = some (Except.ok (some h), k')) :
    k.shmKeys key = none ∧ k.semKeys key = none ∧ SizeAllowed k size := by
  generalize hstart : (k.fail p Errno.enoent).2 = k1 at hrun
  have hmax : k1.shmmax = k.shmmax := by
    rw [← hstart]
    rfl
  have hshm1 : k1.shmKeys key = none := by
    rw [← hstart]
    exact hshm
  have hsem1 : k1.semKeys key = k.semKeys key := by
    rw [← hstart]
    rfl
  unfold solo AttachPoint.createCode at hrun
  by_cases hsize : SizeAllowed k1 size
  · have hcreate : k1.exec removed p (Op.shmget key size shmgetCreatExcl) =
        some (k1.ok p k1.nextShm, k1.newSeg key (sizeT size)) :=
      congrArg some ((shmget_create p hshm1 rfl).trans
        (shmCreate_ok p hsize.left hsize.right))
    have hmap : (k1.newSeg key (sizeT size)).exec removed p
        (Op.shmat k1.nextShm) = _ :=
      congrArg some (shmat_some p removed
        (Kernel.newSeg_segs_self k1 key (sizeT size)))
    rw [Program.eval_call _ hcreate, Kernel.ok_ret] at hrun
    by_cases hpos : 0 < k1.nextShm
    · rw [if_pos hpos, AttachPoint.mapNewCode, Program.eval_call _ hmap,
        Kernel.ok_ret, AttachPoint.createSetCode] at hrun
      refine ⟨hshm, ?_, by rw [SizeAllowed, ← hmax]; exact hsize⟩
      rw [← hsem1]
      cases hsem : k1.semKeys key with
      | none => rfl
      | some semId =>
          generalize hk2 : (k1.newSeg key (sizeT size)).setSeg k1.nextShm _ =
            k2 at hrun
          have hsem2 : k2.semKeys key = some semId := by
            rw [← hk2]
            exact hsem
          have hget : k2.exec removed p (Op.semget key 2 shmgetCreatExcl) =
              some ((k2.fail p Errno.eexist).1,
                (k2.fail p Errno.eexist).2) :=
            congrArg some (semget_exists p hkey hsem2 rfl rfl)
          rw [Program.eval_call _ hget, if_pos (by simp)] at hrun
          cases hrun
    · rw [if_neg hpos] at hrun
      cases hrun
  · have hcreate : k1.exec removed p (Op.shmget key size shmgetCreatExcl) =
        some ((k1.fail p Errno.einval).1, (k1.fail p Errno.einval).2) :=
      congrArg some ((shmget_create p hshm1 rfl).trans
        (shmCreate_refused p hsize))
    rw [Program.eval_call _ hcreate, if_neg (by simp)] at hrun
    cases hrun

theorem attach_succeeds (hkey : key ≠ IPC_PRIVATE) (hsound : SoundKey k key)
    (hrun : solo removed p (attachStack timeoutFlag key size) k =
      some (Except.ok (some h), k')) : CanAttach k key size := by
  rw [attachStack_code_eq] at hrun
  unfold solo AttachPoint.code AttachPoint.probeCode at hrun
  cases hprobe : k.shmget p key size shmgetExcl with
  | mk answer k1 =>
      have hexec : k.exec removed p (Op.shmget key size shmgetExcl) =
          some (answer, k1) := congrArg some hprobe
      rw [Program.eval_call _ hexec] at hrun
      cases probe_result hprobe with
      | refused hrefused =>
          rw [if_neg (by simp), if_pos (Kernel.fail_errno k p _)] at hrun
          cases hrun
      | made hkey' hlow hhigh => exact absurd hkey' hkey
      | found id seg _ hid hseg hfits =>
          right
          refine ⟨id, seg, hid, hseg, hfits, fun hsem => ?_⟩
          have hmap : k.exec removed p (Op.shmat id) = _ :=
            congrArg some (shmat_some p removed hseg)
          let k2 := k.setSeg id
            (some { seg with attached := p :: seg.attached })
          have hget : k2.exec removed p (Op.semget key 2 shmgetExcl) =
              some ((k2.fail p Errno.enoent).1, (k2.fail p Errno.enoent).2) :=
            congrArg some (semget_missing p hkey hsem rfl)
          rw [Kernel.ok_ret, if_pos (hsound.shm id hid).left,
            AttachPoint.mapFoundCode, Program.eval_call _ hmap,
            Kernel.ok_ret, AttachPoint.lookupCode, Program.eval_call _ hget,
            if_pos (by simp)] at hrun
          cases hrun
      | missing _ hid =>
          left
          rw [if_neg (by simp), if_neg (by simp)] at hrun
          exact create_succeeds hkey hid hrun

end Attach

/-!
## Clearing
-/

section Clear

variable {removed : Removed} {p : Pid} {timeoutFlag key size : Int}
  {k k' : Kernel} {h : StackT}

theorem markDestruct_eq (h : StackT) :
    markDestruct (some h) =
      Program.call (Op.shmRmid h.shmemId) (fun shmem =>
        if shmem.ret = 0 then
          Program.call (Op.semRmid h.semId) (fun sem =>
            if sem.ret = 0 then Program.ret 0 else Program.halt Exit.abort)
        else Program.halt Exit.abort) := by
  simp [markDestruct, assertThat, Program.ask, Program.ite_bind]

theorem markDestruct_frees (hc : Complete k key h) :
    exists k',
      solo removed p (markDestruct (some h)) k = some (Except.ok 0, k') ∧
      k'.shmKeys key = none ∧ k'.semKeys key = none := by
  rcases hc.segment with ⟨seg, hseg, hsegKey⟩
  rcases hc.set with ⟨set, hset, hsetKey⟩
  let k1 : Kernel :=
    { k.setSeg h.shmemId (Segment.survive { seg with marked := true }) with
      shmKeys := Function.update k.shmKeys seg.key none }
  let k2 : Kernel :=
    { k1.setSem h.semId none with
      semKeys := Function.update k1.semKeys set.key none }
  have hshm : k.exec removed p (Op.shmRmid h.shmemId) =
      some (k.ok p 0, k1) :=
    congrArg some (shmRmid_keyed p removed hseg (by rw [hsegKey]; exact hc.shm))
  have hset1 : k1.sets h.semId = some set := hset
  have hsem : k1.exec removed p (Op.semRmid h.semId) =
      some (k1.ok p 0, k2) :=
    congrArg some
      (semRmid_keyed p removed hset1 (by rw [hsetKey]; exact hc.sem))
  refine ⟨k2, ?_, ?_, ?_⟩
  case refine_2 =>
    change Function.update k.shmKeys seg.key none key = none
    rw [hsegKey, Function.update_self]
  case refine_3 =>
    change Function.update k.semKeys set.key none key = none
    rw [hsetKey, Function.update_self]
  rw [markDestruct_eq]
  unfold solo
  rw [Program.eval_call _ hshm, Kernel.ok_ret, if_pos rfl,
    Program.eval_call _ hsem, Kernel.ok_ret, if_pos rfl]
  rfl

theorem clearKey_returns (hkey : key ≠ IPC_PRIVATE) (hsound : SoundKey k key)
    (hcan : CanAttach k key size) :
    exists k1,
      solo removed p (clearKey timeoutFlag key size) k =
        some (Except.ok (), k1) ∧
      k1.shmKeys key = none ∧ k1.semKeys key = none := by
  have hattach : exists h k',
      solo removed p (attachStack timeoutFlag key size) k =
        some (Except.ok (some h), k') ∧ Complete k' key h := by
    rcases hcan with ⟨hshm, hsem, hsize⟩ | ⟨id, seg, hid, hseg, hfits, hsem⟩
    · rcases attach_makes hkey hshm hsem hsound.nextShm hsound.nextSem hsize
        with ⟨h, k', hrun, _, hc, _⟩
      exact ⟨h, k', hrun, hc⟩
    · rcases Option.ne_none_iff_exists'.mp hsem with ⟨semId, hsemId⟩
      exact attach_finds hkey hsound hid hseg hfits hsemId
  rcases hattach with ⟨h, k', hrun, hc⟩
  rcases @markDestruct_frees removed p key k' h hc with
    ⟨k1, hdestruct, hshm, hsem⟩
  refine ⟨k1, ?_, hshm, hsem⟩
  unfold solo clearKey at *
  rw [Program.eval_bind, hrun]
  simp only [assertThat, Option.isSome_some, if_true, Program.pure_eq_ret,
    Program.ret_bind]
  rw [Program.eval_bind, hdestruct]
  rfl

theorem clearKey_attached {k1 : Kernel}
    (hrun : solo removed p (clearKey timeoutFlag key size) k =
      some (Except.ok (), k1)) :
    exists h k', solo removed p (attachStack timeoutFlag key size) k =
      some (Except.ok (some h), k') := by
  unfold solo clearKey at hrun
  rw [Program.eval_bind] at hrun
  cases hattach : Program.eval (fun op k => k.exec removed p op)
      (attachStack timeoutFlag key size) k with
  | none =>
      rw [hattach] at hrun
      cases hrun
  | some answered =>
      rcases answered with ⟨result, k'⟩
      rw [hattach] at hrun
      cases result with
      | error reason => cases hrun
      | ok handle =>
          cases handle with
          | none => cases hrun
          | some h => exact ⟨h, k', hattach⟩

/-- `clear_key` really clears exactly if both objects of the key are there and
the segment is large enough, or neither is, and the size is one that a new
segment can have. -/
theorem clearKey_clears (hsound : SoundKey k key) :
    (exists k1 k2 h, Clears removed p timeoutFlag key size k k1 k2 h) <->
      Clearable k timeoutFlag key size := by
  constructor
  · rintro ⟨k1, k2, h, hclears⟩
    have hlater := later_solo hclears.clear
    have hids := Int.lt_of_lt_of_le hsound.nextShm hlater.nextShm
    have hsemIds := Int.lt_of_lt_of_le hsound.nextSem hlater.nextSem
    rcases hclears.empty with ⟨set, hset, _, hflag⟩
    have hkey : key ≠ IPC_PRIVATE := by
      intro hprivate
      rcases (attach_private hprivate hids hclears.attach).right with
        ⟨set', hset', _, hzero⟩
      rw [hset] at hset'
      injection hset' with hset'
      rw [← hset', hflag] at hzero
      cases hzero
    rcases clearKey_attached hclears.clear with ⟨h', k', hrun⟩
    have hcan := attach_succeeds hkey hsound hrun
    rcases @clearKey_returns removed p timeoutFlag key size k hkey hsound hcan
      with ⟨k1', hclear, hshm, hsem⟩
    rw [hclears.clear] at hclear
    injection hclear with hclear
    injection hclear with _ hk1
    rw [← hk1] at hshm hsem
    have hsize : SizeAllowed k1 size := by
      have hattach := hclears.attach
      rw [attach_missing hkey hshm] at hattach
      exact (create_succeeds hkey hshm hattach).right.right
    rcases @attach_makes removed p timeoutFlag key size k1 hkey hshm hsem hids
      hsemIds hsize with ⟨h1, k3, hattach, _, _, hholds⟩
    rw [hclears.attach] at hattach
    injection hattach with hattach
    injection hattach with hhandle hk3
    injection hhandle with hhandle
    injection hhandle with hhandle
    rw [← hhandle, ← hk3] at hholds
    rcases hholds.set with ⟨set', hset', _, hflag'⟩
    rw [hset] at hset'
    injection hset' with hset'
    rw [← hset', hflag] at hflag'
    refine ⟨hkey, ?_, ?_, hcan⟩
    · by_contra hwait
      rw [if_neg hwait] at hflag'
      cases hflag'
    · rw [SizeAllowed, ← hlater.shmmax]
      exact hsize
  · rintro ⟨hkey, hwait, hsize, hcan⟩
    rcases @clearKey_returns removed p timeoutFlag key size k hkey hsound hcan
      with ⟨k1, hclear, hshm, hsem⟩
    have hlater := later_solo hclear
    have hids := Int.lt_of_lt_of_le hsound.nextShm hlater.nextShm
    have hsemIds := Int.lt_of_lt_of_le hsound.nextSem hlater.nextSem
    have hsize1 : SizeAllowed k1 size := by
      rw [SizeAllowed, hlater.shmmax]
      exact hsize
    rcases @attach_makes removed p timeoutFlag key size k1 hkey hshm hsem hids
      hsemIds hsize1 with ⟨h, k2, hattach, hhandle, _, hholds⟩
    rw [if_pos hwait] at hholds
    refine ⟨k1, k2, h, ⟨hclear, hattach, ?_, ?_⟩⟩
    · rcases hholds.set with ⟨set, hset, hcount, hflag⟩
      exact ⟨set, hset, hcount, hflag⟩
    · intro hslot val
      rcases solo_request hholds removed (by simp [Contents.Legal, SEMVMX])
        timeoutFlag (Request.push val) with ⟨k3, hpush, _⟩
      have hroom : ValidWait timeoutFlag ∧ (0 : Int) < h.size := by
        rw [hhandle]
        exact ⟨hwait, by lia⟩
      simp only [Contents.call, if_pos hroom] at hpush
      exact ⟨k3, hpush⟩

def staleStack : Kernel :=
  { (Kernel.empty 65536).newSeg 5 8 with
    sets := fun id =>
      if id = 1 then
        some
          { key := 5
            val := fun semNum => if semNum = SEM_COUNT then 3 else 0
            adj := fun _ _ => 0 }
      else none
    semKeys := fun key => if key = 5 then some 1 else none
    nextSem := 2 }

theorem clearKey_clears_stale :
    exists k1 k2 h, Clears Removed.einval 1 0 5 8 staleStack k1 k2 h := by
  have hsound : SoundKey staleStack 5 := by
    refine ⟨?_, ?_, by decide, by decide⟩
    · intro id hid
      cases hid
      exact ⟨by decide, _, rfl, rfl⟩
    · intro id hid
      cases hid
      exact ⟨by decide, _, rfl, rfl⟩
  refine (clearKey_clears hsound).mpr
    ⟨by decide, Or.inr (Or.inl rfl), ⟨by decide, by decide⟩, Or.inr ?_⟩
  exact ⟨1, _, rfl, rfl, by decide, by decide⟩

/-- Of a stack only the segment is left: the assertion of `clear_key`
fails. -/
theorem clearKey_aborts :
    SoundKey halfStack 5 ∧
      exists k1,
        solo Removed.einval 1 (clearKey 0 5 8) halfStack =
          some (Except.error Exit.abort, k1) := by
  refine ⟨⟨?_, ?_, by decide, by decide⟩, ⟨_, rfl⟩⟩
  · intro id hid
    cases hid
    exact ⟨by decide, _, rfl, rfl⟩
  · intro id hid
    cases hid

end Clear

end Stack
end UnixPrograms
