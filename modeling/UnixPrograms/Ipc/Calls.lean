import UnixPrograms.Ipc.Kernel

/-!
# What single kernel calls do

One case distinction for each call, stated once, and the frame facts that say
what a call leaves alone.
-/

namespace UnixPrograms
namespace Ipc

open Foundation

namespace Kernel

@[simp] theorem fail_ret (k : Kernel) (p : Pid) (e : Errno) :
    (k.fail p e).1.ret = -1 := rfl

@[simp] theorem fail_errno (k : Kernel) (p : Pid) (e : Errno) :
    (k.fail p e).1.errno = e := rfl

@[simp] theorem fail_sets (k : Kernel) (p : Pid) (e : Errno) :
    (k.fail p e).2.sets = k.sets := rfl

theorem fail_errno_self (k : Kernel) (p : Pid) (e : Errno) :
    (k.fail p e).2.errno p = e := by
  simp [fail]

theorem fail_errno_of_ne (k : Kernel) {p q : Pid} (e : Errno) (h : q ≠ p) :
    (k.fail p e).2.errno q = k.errno q := by
  simp [fail, h]

@[simp] theorem ok_ret (k : Kernel) (p : Pid) (ret : Int) :
    (k.ok p ret).ret = ret := rfl

@[simp] theorem setSem_sets_self (k : Kernel) (id : Int)
    (set : Option SemSet) : (k.setSem id set).sets id = set := by
  simp [setSem]

@[simp] theorem setSeg_segs_self (k : Kernel) (id : Int)
    (seg : Option Segment) : (k.setSeg id seg).segs id = seg := by
  simp [setSeg]

@[simp] theorem newSeg_segs_self (k : Kernel) (key : Int) (size : Nat) :
    (k.newSeg key size).segs k.nextShm = some (Segment.new key size) := by
  simp [newSeg]

@[simp] theorem newSem_sets_self (k : Kernel) (key : Int) :
    (k.newSem key).sets k.nextSem = some (SemSet.new key) := by
  simp [newSem]

theorem newSeg_shmKeys (k : Kernel) {key : Int} (size : Nat)
    (hkey : key ≠ IPC_PRIVATE) :
    (k.newSeg key size).shmKeys key = some k.nextShm := by
  simp [newSeg, hkey]

theorem newSem_semKeys (k : Kernel) {key : Int} (hkey : key ≠ IPC_PRIVATE) :
    (k.newSem key).semKeys key = some k.nextSem := by
  simp [newSem, hkey]

@[simp] theorem exit_sets (k : Kernel) (p : Pid) (id : Int) :
    (k.exit p).sets id = (k.sets id).map (fun set => set.undo p) := rfl

end Kernel

/-!
## Semaphore calls
-/

inductive SemResult (removed : Removed) (k : Kernel) (p : Pid) (semid : Int)
    (semNum : Nat) (semOp : Int) (flags : SemFlags) :
    Answer -> Kernel -> Prop where
  /-- The set is gone. -/
  | gone : k.sets semid = none ->
      SemResult removed k p semid semNum semOp flags
        (k.fail p removed.errno).1 (k.fail p removed.errno).2
  /-- The value would leave its range, and the call does not sleep. -/
  | refused (set : SemSet) (e : Errno) : k.sets semid = some set ->
      e ≠ Errno.eidrm ->
      (set.val semNum + semOp < 0 ∨ SEMVMX < set.val semNum + semOp) ->
      SemResult removed k p semid semNum semOp flags
        (k.fail p e).1 (k.fail p e).2
  /-- The operation is done. -/
  | applied (set : SemSet) : k.sets semid = some set ->
      0 ≤ set.val semNum + semOp -> set.val semNum + semOp ≤ SEMVMX ->
      SemResult removed k p semid semNum semOp flags (k.ok p 0)
        (k.setSem semid (some (set.apply p semNum semOp flags.undo)))

theorem semop_result {removed : Removed} {k k' : Kernel} {p : Pid}
    {semid : Int} {semNum : Nat} {semOp : Int} {flags : SemFlags}
    {answer : Answer}
    (h : k.semop removed p semid semNum semOp flags = some (answer, k')) :
    SemResult removed k p semid semNum semOp flags answer k' := by
  unfold Kernel.semop at h
  cases hset : k.sets semid with
  | none =>
      rw [hset] at h
      cases h
      exact SemResult.gone hset
  | some set =>
      simp only [hset] at h
      by_cases hlow : set.val semNum + semOp < 0
      · rw [if_pos hlow] at h
        by_cases hflags : flags.nowait = true ∨ flags.timed = true
        · rw [if_pos hflags] at h
          cases h
          exact SemResult.refused set _ hset (by decide) (Or.inl hlow)
        · rw [if_neg hflags] at h
          cases h
      · rw [if_neg hlow] at h
        by_cases hhigh : SEMVMX < set.val semNum + semOp
        · rw [if_pos hhigh] at h
          cases h
          exact SemResult.refused set _ hset (by decide) (Or.inr hhigh)
        · rw [if_neg hhigh] at h
          cases h
          exact SemResult.applied set hset (by lia) (by lia)

theorem semop_applied (removed : Removed) {k : Kernel} (p : Pid)
    {semid : Int} {semNum : Nat} {semOp : Int} (flags : SemFlags)
    {set : SemSet} (hset : k.sets semid = some set)
    (hlow : 0 ≤ set.val semNum + semOp)
    (hhigh : set.val semNum + semOp ≤ SEMVMX) :
    k.semop removed p semid semNum semOp flags =
      some (k.ok p 0,
        k.setSem semid (some (set.apply p semNum semOp flags.undo))) := by
  unfold Kernel.semop
  simp only [hset]
  rw [if_neg (by lia), if_neg (by lia)]

theorem semop_erange (removed : Removed) {k : Kernel} (p : Pid)
    {semid : Int} {semNum : Nat} {semOp : Int} (flags : SemFlags)
    {set : SemSet} (hset : k.sets semid = some set)
    (hlow : 0 ≤ set.val semNum + semOp)
    (hhigh : SEMVMX < set.val semNum + semOp) :
    k.semop removed p semid semNum semOp flags =
      some (k.fail p Errno.erange) := by
  unfold Kernel.semop
  simp only [hset]
  rw [if_neg (by lia), if_pos hhigh]

theorem getval_some (removed : Removed) {k : Kernel} (p : Pid) {semid : Int}
    (semNum : Nat) {set : SemSet} (hset : k.sets semid = some set) :
    k.getval removed p semid semNum = (k.ok p (set.val semNum), k) := by
  unfold Kernel.getval
  simp only [hset]

theorem getval_none (removed : Removed) {k : Kernel} (p : Pid) {semid : Int}
    (semNum : Nat) (hset : k.sets semid = none) :
    k.getval removed p semid semNum = k.fail p removed.errno := by
  unfold Kernel.getval
  simp only [hset]

namespace SemSet

@[simp] theorem apply_val_self (set : SemSet) (p : Pid) (semNum : Nat)
    (semOp : Int) (undo : Bool) :
    (set.apply p semNum semOp undo).val semNum = set.val semNum + semOp := by
  simp [apply]

theorem apply_val_of_ne (set : SemSet) (p : Pid) {semNum other : Nat}
    (semOp : Int) (undo : Bool) (h : other ≠ semNum) :
    (set.apply p semNum semOp undo).val other = set.val other := by
  simp [apply, h]

@[simp] theorem apply_adj_self (set : SemSet) (p : Pid) (semNum : Nat)
    (semOp : Int) :
    (set.apply p semNum semOp true).adj p semNum =
      set.adj p semNum - semOp := by
  simp [apply]

theorem apply_adj_of_ne_num (set : SemSet) (p q : Pid) {semNum other : Nat}
    (semOp : Int) (undo : Bool) (h : other ≠ semNum) :
    (set.apply p semNum semOp undo).adj q other = set.adj q other := by
  by_cases hq : q = p
  · subst hq
    cases undo <;> simp [apply, h]
  · cases undo <;> simp [apply, hq]

theorem apply_adj_of_ne_pid (set : SemSet) {p q : Pid} (semNum other : Nat)
    (semOp : Int) (undo : Bool) (h : q ≠ p) :
    (set.apply p semNum semOp undo).adj q other = set.adj q other := by
  cases undo <;> simp [apply, h]

theorem undo_val (set : SemSet) (p : Pid) (semNum : Nat) :
    (set.undo p).val semNum =
      max 0 (min SEMVMX (set.val semNum + set.adj p semNum)) := rfl

@[simp] theorem undo_adj_self (set : SemSet) (p : Pid) (semNum : Nat) :
    (set.undo p).adj p semNum = 0 := by
  simp [undo]

theorem undo_adj_of_ne (set : SemSet) {p q : Pid} (semNum : Nat)
    (h : q ≠ p) : (set.undo p).adj q semNum = set.adj q semNum := by
  simp [undo, h]

end SemSet

/-!
## Finding and creating objects by key
-/

section Keys

variable {k : Kernel} (p : Pid) {key size : Int} {flags : GetFlags}

theorem shmget_missing (hkey : key ≠ IPC_PRIVATE)
    (hmissing : k.shmKeys key = none) (hcreat : flags.creat = false) :
    k.shmget p key size flags = k.fail p Errno.enoent := by
  unfold Kernel.shmget
  rw [if_neg hkey]
  simp [hmissing, hcreat]

theorem shmget_create (hmissing : k.shmKeys key = none)
    (hcreat : flags.creat = true) :
    k.shmget p key size flags = k.shmCreate p key size := by
  unfold Kernel.shmget
  by_cases hkey : key = IPC_PRIVATE
  · rw [if_pos hkey]
  · rw [if_neg hkey]
    simp [hmissing, hcreat]

theorem shmget_private (hkey : key = IPC_PRIVATE) :
    k.shmget p key size flags = k.shmCreate p key size := by
  unfold Kernel.shmget
  rw [if_pos hkey]

theorem shmget_found {id : Int} {seg : Segment} (hkey : key ≠ IPC_PRIVATE)
    (hid : k.shmKeys key = some id) (hseg : k.segs id = some seg)
    (hflags : flags.creat = false) (hsize : sizeT size ≤ seg.size) :
    k.shmget p key size flags = (k.ok p id, k) := by
  unfold Kernel.shmget
  rw [if_neg hkey]
  simp only [hid, hseg, hflags]
  rw [if_neg (by simp), if_neg (by lia)]

theorem shmCreate_ok (hlow : SHMMIN ≤ sizeT size)
    (hhigh : sizeT size ≤ k.shmmax) :
    k.shmCreate p key size = (k.ok p k.nextShm, k.newSeg key (sizeT size)) := by
  unfold Kernel.shmCreate
  rw [if_neg (by lia)]

theorem shmCreate_refused
    (h : ¬ (SHMMIN ≤ sizeT size ∧ sizeT size ≤ k.shmmax)) :
    k.shmCreate p key size = k.fail p Errno.einval := by
  unfold Kernel.shmCreate
  rw [if_pos (by lia)]

theorem shmCreate_of_pos (hpos : 0 < (k.shmCreate p key size).1.ret) :
    k.shmCreate p key size =
      (k.ok p k.nextShm, k.newSeg key (sizeT size)) := by
  unfold Kernel.shmCreate at hpos ⊢
  by_cases hsize : sizeT size < SHMMIN ∨ k.shmmax < sizeT size
  · rw [if_pos hsize] at hpos
    simp at hpos
  · rw [if_neg hsize]

theorem shmCreate_of_not_pos (hids : 0 < k.nextShm)
    (hpos : ¬ 0 < (k.shmCreate p key size).1.ret) :
    k.shmCreate p key size = k.fail p Errno.einval := by
  unfold Kernel.shmCreate at hpos ⊢
  by_cases hsize : sizeT size < SHMMIN ∨ k.shmmax < sizeT size
  · rw [if_pos hsize]
  · rw [if_neg hsize] at hpos
    exact absurd hids hpos

theorem semget_create (hmissing : k.semKeys key = none)
    (hcreat : flags.creat = true) :
    k.semget p key flags = (k.ok p k.nextSem, k.newSem key) := by
  unfold Kernel.semget
  by_cases hkey : key = IPC_PRIVATE
  · rw [if_pos hkey]
  · rw [if_neg hkey]
    simp [hmissing, hcreat]

theorem semget_private (hkey : key = IPC_PRIVATE) :
    k.semget p key flags = (k.ok p k.nextSem, k.newSem key) := by
  unfold Kernel.semget
  rw [if_pos hkey]

theorem semget_found {id : Int} (hkey : key ≠ IPC_PRIVATE)
    (hid : k.semKeys key = some id) (hflags : flags.creat = false) :
    k.semget p key flags = (k.ok p id, k) := by
  unfold Kernel.semget
  rw [if_neg hkey]
  simp [hid, hflags]

theorem semget_missing (hkey : key ≠ IPC_PRIVATE)
    (hmissing : k.semKeys key = none) (hcreat : flags.creat = false) :
    k.semget p key flags = k.fail p Errno.enoent := by
  unfold Kernel.semget
  rw [if_neg hkey]
  simp [hmissing, hcreat]

theorem semget_exists {id : Int} (hkey : key ≠ IPC_PRIVATE)
    (hid : k.semKeys key = some id) (hcreat : flags.creat = true)
    (hexcl : flags.excl = true) :
    k.semget p key flags = k.fail p Errno.eexist := by
  unfold Kernel.semget
  rw [if_neg hkey]
  simp [hid, hcreat, hexcl]

theorem shmat_some (removed : Removed) {id : Int} {seg : Segment}
    (hseg : k.segs id = some seg) :
    k.shmat removed p id =
      (k.ok p id,
        k.setSeg id (some { seg with attached := p :: seg.attached })) := by
  unfold Kernel.shmat
  simp only [hseg]

theorem shmRmid_keyed (removed : Removed) {id : Int} {seg : Segment}
    (hseg : k.segs id = some seg) (hid : k.shmKeys seg.key = some id) :
    k.shmRmid removed p id =
      (k.ok p 0,
        { k.setSeg id (Segment.survive { seg with marked := true }) with
          shmKeys := Function.update k.shmKeys seg.key none }) := by
  unfold Kernel.shmRmid
  simp only [hseg]
  rw [if_pos hid]

theorem semRmid_keyed (removed : Removed) {id : Int} {set : SemSet}
    (hset : k.sets id = some set) (hid : k.semKeys set.key = some id) :
    k.semRmid removed p id =
      (k.ok p 0,
        { k.setSem id none with
          semKeys := Function.update k.semKeys set.key none }) := by
  unfold Kernel.semRmid
  simp only [hset]
  rw [if_pos hid]

end Keys

end Ipc
end UnixPrograms
