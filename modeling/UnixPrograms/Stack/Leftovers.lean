import UnixPrograms.Stack.Session
import UnixPrograms.Foundation.Contract

/-!
# Attaches that fail

`attach_stack` returns `NULL` on three paths.  Two of them lie behind the
mapping of a segment, which stays attached; only the one on which the probe
refuses the size has touched nothing.
-/

namespace UnixPrograms
namespace Stack

open Foundation
open Ipc

structure Untouched (k k' : Kernel) : Prop where
  segs : k'.segs = k.segs
  shmKeys : k'.shmKeys = k.shmKeys
  sets : k'.sets = k.sets
  semKeys : k'.semKeys = k.semKeys

def UnusedIds (k : Kernel) : Prop :=
  forall id, k.nextShm ≤ id -> k.segs id = none

/-- The segment of the key is smaller than what is asked for, or no segment of
this size can be made under the private key.  An identifier that is not
positive counts as one not found. -/
def Refused (k : Kernel) (key size : Int) : Prop :=
  if key = IPC_PRIVATE then sizeT size < SHMMIN ∨ k.shmmax < sizeT size
  else exists id, k.shmKeys key = some id ∧
    (id ≤ 0 ∨ forall seg, k.segs id = some seg -> seg.size < sizeT size)

/-!
## Segments and mappings that stay
-/

def Covers (k k' : Kernel) : Prop :=
  forall id seg, k.segs id = some seg ->
    exists seg', k'.segs id = some seg' ∧
      seg.attached.length ≤ seg'.attached.length

theorem Covers.refl (k : Kernel) : Covers k k :=
  fun _ seg hseg => ⟨seg, hseg, Nat.le_refl _⟩

theorem Covers.trans {k k' k'' : Kernel} (h : Covers k k')
    (h' : Covers k' k'') : Covers k k'' := by
  intro id seg hseg
  rcases h id seg hseg with ⟨seg', hseg', hle⟩
  rcases h' id seg' hseg' with ⟨seg'', hseg'', hle'⟩
  exact ⟨seg'', hseg'', Nat.le_trans hle hle'⟩

def AttachOp : Op -> Prop
  | Op.shmget _ _ _ => True
  | Op.shmat _ => True
  | Op.semget _ _ _ => True
  | Op.semop _ _ _ _ => True
  | _ => False

section Calls

variable {removed : Removed} {p : Pid} {k : Kernel}

theorem covers_fail (hunused : UnusedIds k) (e : Errno) :
    UnusedIds (k.fail p e).2 ∧ Covers k (k.fail p e).2 :=
  ⟨hunused, Covers.refl k⟩

theorem covers_shmCreate (hunused : UnusedIds k) (key size : Int) :
    UnusedIds (k.shmCreate p key size).2 ∧
      Covers k (k.shmCreate p key size).2 := by
  unfold Kernel.shmCreate
  split
  · exact covers_fail hunused _
  · constructor
    · intro id hid
      change k.nextShm + 1 ≤ id at hid
      have hne : id ≠ k.nextShm := by
        lia
      change Function.update k.segs k.nextShm _ id = none
      rw [Function.update_of_ne hne]
      exact hunused id (by lia)
    · intro id seg hseg
      have hne : id ≠ k.nextShm := by
        intro heq
        rw [heq, hunused _ (Int.le_refl _)] at hseg
        cases hseg
      refine ⟨seg, ?_, Nat.le_refl _⟩
      change Function.update k.segs k.nextShm _ id = some seg
      rw [Function.update_of_ne hne]
      exact hseg

theorem covers_shmget (hunused : UnusedIds k) (key size : Int)
    (flags : GetFlags) :
    UnusedIds (k.shmget p key size flags).2 ∧
      Covers k (k.shmget p key size flags).2 := by
  unfold Kernel.shmget
  split
  · exact covers_shmCreate hunused key size
  · split
    · split
      · exact covers_fail hunused _
      · split
        · exact covers_fail hunused _
        · split
          · exact covers_fail hunused _
          · exact ⟨hunused, Covers.refl k⟩
    · split
      · exact covers_shmCreate hunused key size
      · exact covers_fail hunused _

theorem covers_shmat (hunused : UnusedIds k) (shmid : Int) :
    UnusedIds (k.shmat removed p shmid).2 ∧
      Covers k (k.shmat removed p shmid).2 := by
  unfold Kernel.shmat
  split
  · exact covers_fail hunused _
  · rename_i seg hseg
    constructor
    · intro id hid
      have hne : id ≠ shmid := by
        intro heq
        rw [heq] at hid
        rw [hunused shmid hid] at hseg
        cases hseg
      change Function.update k.segs shmid _ id = none
      rw [Function.update_of_ne hne]
      exact hunused id hid
    · intro id seg' hseg'
      change exists seg'', Function.update k.segs shmid _ id = some seg'' ∧ _
      by_cases heq : id = shmid
      · rw [heq, hseg] at hseg'
        injection hseg' with hseg'
        rw [heq, Function.update_self]
        refine ⟨_, rfl, ?_⟩
        rw [← hseg']
        exact Nat.le_succ _
      · rw [Function.update_of_ne heq]
        exact ⟨seg', hseg', Nat.le_refl _⟩

theorem segs_semget (key : Int) (flags : GetFlags) :
    (k.semget p key flags).2.segs = k.segs ∧
      (k.semget p key flags).2.nextShm = k.nextShm := by
  unfold Kernel.semget
  split
  · exact ⟨rfl, rfl⟩
  · split
    · split
      · exact ⟨rfl, rfl⟩
      · exact ⟨rfl, rfl⟩
    · split
      · exact ⟨rfl, rfl⟩
      · exact ⟨rfl, rfl⟩

theorem segs_semop {k' : Kernel} {semid semOp : Int} {semNum : Nat}
    {flags : SemFlags} {answer : Answer}
    (h : k.semop removed p semid semNum semOp flags = some (answer, k')) :
    k'.segs = k.segs ∧ k'.nextShm = k.nextShm := by
  cases semop_result h with
  | gone hgone => exact ⟨rfl, rfl⟩
  | refused set e hset he hrange => exact ⟨rfl, rfl⟩
  | applied set hset hlow hhigh => exact ⟨rfl, rfl⟩

theorem covers_of_same {k' : Kernel} (hunused : UnusedIds k)
    (h : k'.segs = k.segs ∧ k'.nextShm = k.nextShm) :
    UnusedIds k' ∧ Covers k k' := by
  constructor
  · intro id hid
    rw [h.right] at hid
    rw [h.left]
    exact hunused id hid
  · intro id seg hseg
    exact ⟨seg, by rw [h.left]; exact hseg, Nat.le_refl _⟩

theorem covers_exec {k' : Kernel} {op : Op} {answer : op.Res}
    (hunused : UnusedIds k) (hop : AttachOp op)
    (h : k.exec removed p op = some (answer, k')) :
    UnusedIds k' ∧ Covers k k' := by
  cases op with
  | shmget key size flags =>
      have hk : k' = (k.shmget p key size flags).2 := by
        injection h with h
        rw [h]
      rw [hk]
      exact covers_shmget hunused key size flags
  | shmat shmid =>
      have hk : k' = (k.shmat removed p shmid).2 := by
        injection h with h
        rw [h]
      rw [hk]
      exact covers_shmat hunused shmid
  | semget key nsems flags =>
      have hk : k' = (k.semget p key flags).2 := by
        injection h with h
        rw [h]
      rw [hk]
      exact covers_of_same hunused (segs_semget key flags)
  | semop semid semNum semOp flags =>
      exact covers_of_same hunused (segs_semop h)
  | shmdt memory => exact hop.elim
  | shmRmid shmid => exact hop.elim
  | getval semid semNum => exact hop.elim
  | semRmid semid => exact hop.elim
  | store memory index value => exact hop.elim
  | load memory index => exact hop.elim

end Calls

def keeping (before : Kernel) : Contract Op Op.Res Kernel where
  needs op k := AttachOp op ∧ UnusedIds k ∧ Covers before k
  does _ _ _ k' := UnusedIds k' ∧ Covers before k'

def Keeps (before k : Kernel) (code : Prog (Option StackT)) : Prop :=
  Program.Ensures (keeping before) (fun _ _ => True)
    (fun k' _ => Covers before k') k code

section Code

variable {removed : Removed} {p : Pid} {timeoutFlag key size : Int}
  {before k : Kernel}

theorem keeps_raiseFlag (hk : UnusedIds k ∧ Covers before k)
    (shmemId memory semId : Int) :
    Keeps before k
      (AttachPoint.raiseFlagCode timeoutFlag size shmemId memory semId) :=
  ⟨⟨trivial, hk⟩, fun _ _ hk' => hk'.right⟩

theorem keeps_createSet (hk : UnusedIds k ∧ Covers before k)
    (shmemId memory : Int) :
    Keeps before k
      (AttachPoint.createSetCode timeoutFlag key size shmemId memory) := by
  refine ⟨⟨trivial, hk⟩, fun sem k' hk' => ?_⟩
  apply Program.Ensures.ite
  · exact fun _ => hk'.right
  · intro _
    apply Program.Ensures.ite
    · exact fun _ => keeps_raiseFlag hk' shmemId memory sem.ret
    · exact fun _ => hk'.right

theorem keeps_create (hk : UnusedIds k ∧ Covers before k) :
    Keeps before k (AttachPoint.createCode timeoutFlag key size) := by
  refine ⟨⟨trivial, hk⟩, fun shmem k' hk' => ?_⟩
  apply Program.Ensures.ite
  · exact fun _ => ⟨⟨trivial, hk'⟩, fun memory _ hk'' =>
      keeps_createSet hk'' shmem.ret memory.ret⟩
  · exact fun _ => trivial

theorem keeps_lookup (hk : UnusedIds k ∧ Covers before k)
    (shmemId memory : Int) :
    Keeps before k (AttachPoint.lookupCode key size shmemId memory) := by
  refine ⟨⟨trivial, hk⟩, fun sem k' hk' => ?_⟩
  apply Program.Ensures.ite
  · exact fun _ => hk'.right
  · exact fun _ => hk'.right

theorem Keeps.covers {code : Prog (Option StackT)} {k' : Kernel}
    {handle : Option StackT} (h : Keeps k k code)
    (hrun : solo removed p code k = some (Except.ok handle, k')) :
    Covers k k' := by
  have hdoes : forall op k1 answer k2, (keeping k).needs op k1 ->
      Kernel.exec removed p op k1 = some (answer, k2) ->
      (keeping k).does op k1 answer k2 := by
    intro op k1 answer k2 hneeds hexec
    rcases covers_exec hneeds.right.left hneeds.left hexec with
      ⟨hunused', hcovers⟩
    exact ⟨hunused', hneeds.right.right.trans hcovers⟩
  exact (Program.Ensures.eval hdoes h hrun).left handle rfl

theorem not_untouched_of_new {k' k'' : Kernel} {id : Int} {seg : Segment}
    (hfresh : k.segs id = none) (hnew : k'.segs id = some seg)
    (hcovers : Covers k' k'') : ¬ Untouched k k'' := by
  intro hsame
  rcases hcovers id seg hnew with ⟨seg', hseg', _⟩
  rw [hsame.segs, hfresh] at hseg'
  cases hseg'

theorem not_untouched_of_mapped {k' : Kernel} {id : Int} {seg : Segment}
    (hseg : k.segs id = some seg)
    (hcovers : Covers
      (k.setSeg id (some { seg with attached := p :: seg.attached })) k') :
    ¬ Untouched k k' := by
  intro hsame
  rcases hcovers id _ (Kernel.setSeg_segs_self k id _) with
    ⟨seg', hseg', hle⟩
  rw [hsame.segs, hseg] at hseg'
  injection hseg' with hseg'
  rw [← hseg'] at hle
  exact absurd hle (Nat.not_succ_le_self _)

end Code

/-!
## The paths to `NULL`

Behind the probe every way to `NULL` has made a segment or a mapping, and nothing
takes either away again.  Only a refused probe leaves the kernel as it was.
-/

section Failure

variable {removed : Removed} {p : Pid} {timeoutFlag key size : Int}
  {k k' : Kernel}

theorem shmget_creatExcl {shmem : Answer} {k1 : Kernel}
    (h : k.shmget p key size shmgetCreatExcl = (shmem, k1))
    (hpos : 0 < shmem.ret) :
    k1 = k.newSeg key (sizeT size) := by
  have hcreate : k.shmget p key size shmgetCreatExcl =
      k.shmCreate p key size := by
    by_cases hkey : key = IPC_PRIVATE
    · exact shmget_private p hkey
    · cases hid : k.shmKeys key with
      | none => exact shmget_create p hid rfl
      | some id =>
          unfold Kernel.shmget at h
          rw [if_neg hkey] at h
          simp only [hid, shmgetCreatExcl] at h
          injection h with hshmem _
          rw [← hshmem] at hpos
          exact absurd hpos (by decide)
  rw [hcreate] at h
  have hanswer : 0 < (k.shmCreate p key size).1.ret := by
    rw [h]
    exact hpos
  rw [shmCreate_of_pos p hanswer] at h
  injection h with _ hk
  exact hk.symm

theorem create_touches {handle : Option StackT} (hunused : UnusedIds k)
    (hrun : solo removed p (AttachPoint.createCode timeoutFlag key size) k =
      some (Except.ok handle, k')) :
    Covers k k' ∧ ¬ Untouched k k' := by
  refine ⟨(keeps_create ⟨hunused, Covers.refl k⟩).covers hrun, ?_⟩
  cases hshm : k.shmget p key size shmgetCreatExcl with
  | mk shmem k1 =>
      have hexec : k.exec removed p (Op.shmget key size shmgetCreatExcl) =
          some (shmem, k1) := congrArg some hshm
      have hunused1 : UnusedIds k1 := by
        have hboth := @covers_shmget p k hunused key size shmgetCreatExcl
        rw [hshm] at hboth
        exact hboth.left
      unfold solo AttachPoint.createCode at hrun
      rw [Program.eval_call _ hexec] at hrun
      by_cases hpos : 0 < shmem.ret
      · rw [if_pos hpos] at hrun
        have hkeeps : Keeps k1 k1
            (AttachPoint.mapNewCode timeoutFlag key size shmem.ret) :=
          ⟨⟨trivial, hunused1, Covers.refl k1⟩, fun memory _ hk =>
            keeps_createSet hk shmem.ret memory.ret⟩
        have hcovers := hkeeps.covers hrun
        rw [shmget_creatExcl hshm hpos] at hcovers
        exact not_untouched_of_new (hunused _ (Int.le_refl _))
          (Kernel.newSeg_segs_self k key (sizeT size)) hcovers
      · rw [if_neg hpos] at hrun
        cases hrun

theorem mapFound_touches {handle : Option StackT} {id : Int} {seg : Segment}
    (hunused : UnusedIds k) (hseg : k.segs id = some seg)
    (hrun : solo removed p (AttachPoint.mapFoundCode key size id) k =
      some (Except.ok handle, k')) :
    Covers k k' ∧ ¬ Untouched k k' := by
  have hmap : k.exec removed p (Op.shmat id) = _ :=
    congrArg some (shmat_some p removed hseg)
  have hop : AttachOp (Op.shmat id) := trivial
  have hstep := covers_exec hunused hop hmap
  unfold solo AttachPoint.mapFoundCode at hrun
  rw [Program.eval_call _ hmap] at hrun
  have hcovers :=
    (keeps_lookup ⟨hstep.left, Covers.refl _⟩ id _).covers hrun
  exact ⟨hstep.right.trans hcovers, not_untouched_of_mapped hseg hcovers⟩

inductive Probe (k : Kernel) (p : Pid) (key size : Int) :
    Answer -> Kernel -> Prop where
  /-- The size is refused. -/
  | refused (h : Refused k key size) :
      Probe k p key size (k.fail p Errno.einval).1 (k.fail p Errno.einval).2
  /-- A segment of the key is found. -/
  | found (id : Int) (seg : Segment) (hkey : key ≠ IPC_PRIVATE)
      (hid : k.shmKeys key = some id) (hseg : k.segs id = some seg)
      (hsize : sizeT size ≤ seg.size) :
      Probe k p key size (k.ok p id) k
  /-- A private segment is made. -/
  | made (hkey : key = IPC_PRIVATE) (hlow : SHMMIN ≤ sizeT size)
      (hhigh : sizeT size ≤ k.shmmax) :
      Probe k p key size (k.ok p k.nextShm) (k.newSeg key (sizeT size))
  /-- There is no segment. -/
  | missing (hkey : key ≠ IPC_PRIVATE) (hid : k.shmKeys key = none) :
      Probe k p key size (k.fail p Errno.enoent).1 (k.fail p Errno.enoent).2

theorem probe_result {answer : Answer} {k1 : Kernel}
    (h : k.shmget p key size shmgetExcl = (answer, k1)) :
    Probe k p key size answer k1 := by
  by_cases hkey : key = IPC_PRIVATE
  · rw [shmget_private p hkey] at h
    unfold Kernel.shmCreate at h
    by_cases hbad : sizeT size < SHMMIN ∨ k.shmmax < sizeT size
    · rw [if_pos hbad] at h
      cases h
      refine Probe.refused ?_
      rw [Refused, if_pos hkey]
      exact hbad
    · rw [if_neg hbad] at h
      cases h
      exact Probe.made hkey (by lia) (by lia)
  · cases hid : k.shmKeys key with
    | none =>
        rw [shmget_missing p hkey hid rfl] at h
        cases h
        exact Probe.missing hkey hid
    | some id =>
        have hrefused : (forall seg, k.segs id = some seg ->
            seg.size < sizeT size) -> Refused k key size := by
          intro hsmall
          rw [Refused, if_neg hkey]
          exact ⟨id, hid, Or.inr hsmall⟩
        cases hseg : k.segs id with
        | none =>
            have hprobe : k.shmget p key size shmgetExcl =
                k.fail p Errno.einval := by
              unfold Kernel.shmget
              rw [if_neg hkey]
              simp [hid, hseg, shmgetExcl]
            rw [hprobe] at h
            cases h
            refine Probe.refused (hrefused ?_)
            intro seg hseg'
            rw [hseg] at hseg'
            cases hseg'
        | some seg =>
            by_cases hsize : sizeT size ≤ seg.size
            · rw [shmget_found p hkey hid hseg rfl hsize] at h
              cases h
              exact Probe.found id seg hkey hid hseg hsize
            · have hprobe : k.shmget p key size shmgetExcl =
                  k.fail p Errno.einval := by
                unfold Kernel.shmget
                rw [if_neg hkey]
                simp only [hid, hseg, shmgetExcl]
                rw [if_neg (by simp), if_pos (by lia)]
              rw [hprobe] at h
              cases h
              refine Probe.refused (hrefused ?_)
              intro seg' hseg'
              rw [hseg] at hseg'
              injection hseg' with hseg'
              rw [← hseg']
              lia

/-- A failed attach leaves no trace exactly if the probe is refused. -/
theorem failed_attach_untouched (hunused : UnusedIds k)
    (hrun : solo removed p (attachStack timeoutFlag key size) k =
      some (Except.ok none, k')) :
    Untouched k k' <-> Refused k key size := by
  rw [attachStack_code_eq] at hrun
  unfold solo AttachPoint.code AttachPoint.probeCode at hrun
  cases hprobe : k.shmget p key size shmgetExcl with
  | mk answer k1 =>
      have hexec : k.exec removed p (Op.shmget key size shmgetExcl) =
          some (answer, k1) := congrArg some hprobe
      rw [Program.eval_call _ hexec] at hrun
      cases probe_result hprobe with
      | refused h =>
          rw [if_neg (by simp), if_pos (Kernel.fail_errno k p _)] at hrun
          cases hrun
          exact ⟨fun _ => h, fun _ => ⟨rfl, rfl, rfl, rfl⟩⟩
      | found id seg hkey hid hseg hsize =>
          have hnot : 0 < id -> ¬ Refused k key size := by
            intro hpos hrefused
            rw [Refused, if_neg hkey] at hrefused
            rcases hrefused with ⟨id', hid', hsmall⟩
            rw [hid] at hid'
            injection hid' with hid'
            rw [← hid'] at hsmall
            rcases hsmall with hneg | hsmall
            · lia
            · exact absurd (hsmall seg hseg) (by lia)
          by_cases hpos : 0 < id
          · rw [Kernel.ok_ret, if_pos hpos] at hrun
            have htouched := (mapFound_touches hunused hseg hrun).right
            exact ⟨fun h => absurd h htouched,
              fun h => absurd h (hnot hpos)⟩
          · rw [Kernel.ok_ret, if_neg hpos] at hrun
            have hrefused : Refused k key size := by
              rw [Refused, if_neg hkey]
              exact ⟨id, hid, Or.inl (by lia)⟩
            by_cases heinval : (k.ok p id).errno = Errno.einval
            · rw [if_pos heinval] at hrun
              cases hrun
              exact ⟨fun _ => hrefused, fun _ => ⟨rfl, rfl, rfl, rfl⟩⟩
            · -- The segment exists, so `IPC_EXCL` makes creating it fail.
              rw [if_neg heinval] at hrun
              have hexcl : k.shmget p key size shmgetCreatExcl =
                  k.fail p Errno.eexist := by
                unfold Kernel.shmget
                rw [if_neg hkey]
                simp [hid, shmgetCreatExcl]
              have hexec' : k.exec removed p
                  (Op.shmget key size shmgetCreatExcl) =
                    some (k.fail p Errno.eexist) := congrArg some hexcl
              rw [AttachPoint.createCode, Program.eval_call _ hexec',
                if_neg (by simp)] at hrun
              cases hrun
      | made hkey hlow hhigh =>
          have hnot : ¬ Refused k key size := by
            intro hrefused
            rw [Refused, if_pos hkey] at hrefused
            lia
          have hunused1 : UnusedIds (k.newSeg key (sizeT size)) := by
            have hboth := @covers_shmget p k hunused key size shmgetExcl
            rw [hprobe] at hboth
            exact hboth.left
          have hnew := Kernel.newSeg_segs_self k key (sizeT size)
          have hcovers : Covers (k.newSeg key (sizeT size)) k' ∨
              k' = k.newSeg key (sizeT size) := by
            by_cases hpos : 0 < k.nextShm
            · rw [Kernel.ok_ret, if_pos hpos] at hrun
              exact Or.inl (mapFound_touches hunused1 hnew hrun).left
            · rw [Kernel.ok_ret, if_neg hpos] at hrun
              by_cases heinval : (k.ok p k.nextShm).errno = Errno.einval
              · rw [if_pos heinval] at hrun
                cases hrun
                exact Or.inr rfl
              · rw [if_neg heinval] at hrun
                exact Or.inl (create_touches hunused1 hrun).left
          have hcovers' : Covers (k.newSeg key (sizeT size)) k' := by
            rcases hcovers with hcovers | hsame
            · exact hcovers
            · rw [hsame]
              exact Covers.refl _
          exact ⟨fun h => absurd h (not_untouched_of_new
              (hunused _ (Int.le_refl _)) hnew hcovers'),
            fun h => absurd h hnot⟩
      | missing hkey hid =>
          have hnot : ¬ Refused k key size := by
            intro hrefused
            rw [Refused, if_neg hkey] at hrefused
            rcases hrefused with ⟨id, hid', _⟩
            rw [hid] at hid'
            cases hid'
          rw [if_neg (by simp), if_neg (by simp)] at hrun
          have htouched :=
            (create_touches (@covers_fail p k hunused Errno.enoent).left
              hrun).right
          refine ⟨fun h => absurd ?_ htouched, fun h => absurd h hnot⟩
          exact ⟨h.segs, h.shmKeys, h.sets, h.semKeys⟩

def halfStack : Kernel :=
  (Kernel.empty 65536).newSeg 5 8

theorem failed_attach_untouched_small :
    exists k',
      solo Removed.einval 1 (attachStack 0 5 16) halfStack =
        some (Except.ok none, k') ∧
        Untouched halfStack k' := by
  have hunused : UnusedIds halfStack := by
    intro id hid
    change 2 ≤ id at hid
    have hne : id ≠ 1 := by
      lia
    exact Function.update_of_ne hne _ _
  have hrefused : Refused halfStack 5 16 := by
    rw [Refused, if_neg (by decide)]
    refine ⟨1, rfl, Or.inr ?_⟩
    intro seg hseg
    cases hseg
    decide
  have hrun : exists k',
      solo Removed.einval 1 (attachStack 0 5 16) halfStack =
        some (Except.ok none, k') := ⟨_, rfl⟩
  rcases hrun with ⟨k', hrun⟩
  exact ⟨k', hrun, (failed_attach_untouched hunused hrun).mpr hrefused⟩

theorem failed_attach_maps :
    exists k' seg,
      solo Removed.einval 1 (attachStack 0 5 8) halfStack =
        some (Except.ok none, k') ∧
        k'.segs 1 = some seg ∧ seg.attached = [1] ∧
        ¬ Untouched halfStack k' := by
  refine ⟨_, _, rfl, rfl, rfl, ?_⟩
  intro h
  have hsegs := congrFun h.segs 1
  injection hsegs with hseg
  injection hseg with _ _ _ hattached _
  cases hattached

end Failure

end Stack
end UnixPrograms
