import UnixPrograms.Stack.Guarantees
import UnixPrograms.Stack.Sequential

/-!
# Pushes and pops around a removal

`mark_destruct` removes a segment, which the kernel keeps until the last
detach, and a semaphore set, which it does not keep.  A run is compared with
the one in which the calls of `mark_destruct` are left out.  What the other
calls return is the same as long as none of them takes FLAG or reads COUNT
once the set is gone; a call that has read its index may finish.
-/

namespace UnixPrograms
namespace Stack

open Foundation
open Ipc

/-- A step of a call, or a whole `detach_stack`, which is one kernel call. -/
inductive Action where
  | call (l : Label)
  | detach (p : Pid)

def act (cfg : Config) (s : State) : Action -> Option State
  | Action.call l => step cfg s l
  | Action.detach p =>
      match s.status p with
      | Status.idle =>
          if Attached cfg s.kernel p = true then
            match solo Removed.einval p (detachStack (some (cfg.handle p)))
                s.kernel with
            | some (Except.ok _, kernel) => some { s with kernel := kernel }
            | _ => none
          else none
      | _ => none

def Destroys (s : State) : Action -> Bool
  | Action.call (Label.begin _ _ call) => decide (call = Call.markDestruct)
  | Action.call (Label.atom p _) | Action.call (Label.finish p) =>
      match s.status p with
      | Status.running _ Call.markDestruct _ _ => true
      | _ => false
  | _ => false

/-- The same interleaving without the calls of `mark_destruct`. -/
def withoutRemoval (cfg : Config) : State -> List Action -> List Action
  | _, [] => []
  | s, a :: rest =>
      match act cfg s a with
      | none => []
      | some s' =>
          if Destroys s a = true then withoutRemoval cfg s' rest
          else a :: withoutRemoval cfg s' rest

/-- The operations whose result decides what a call returns: the taking of
FLAG and the reading of COUNT. -/
def Decides : Op -> Prop
  | Op.semop _ semNum semOp _ => semNum = SEM_FLAG ∧ semOp < 0
  | Op.getval _ _ => True
  | _ => False

/-- No push or pop takes FLAG or reads COUNT after the removal of the set. -/
def BeforeRemoval (cfg : Config) (s : State) : Action -> Prop
  | Action.call (Label.atom p _) =>
      match s.status p with
      | Status.running _ (Call.request _) (Program.call op _) _ =>
          Decides op -> (s.kernel.sets cfg.semId).isSome = true
      | _ => True
  | _ => True

def requests (returned : List (Call × Outcome)) : List (Call × Outcome) :=
  returned.filter (fun entry => entry.1 ≠ Call.markDestruct)

/-!
## Mappings of the segment

A removed segment lives until its last mapping is gone, so that a process inside
still finds its memory.
-/

def mappings (cfg : Config) (k : Kernel) (p : Pid) : Nat :=
  match k.segs cfg.shmemId with
  | none => 0
  | some seg => seg.attached.count p

section Mappings

variable {cfg : Config} {k k' : Kernel} {p q : Pid}

theorem attached_iff_mappings :
    Attached cfg k p = true <-> 0 < mappings cfg k p := by
  unfold Attached mappings
  cases k.segs cfg.shmemId with
  | none => simp
  | some seg =>
      simp only [List.contains_iff_mem]
      exact List.count_pos_iff.symm

theorem mappings_of_segs (h : k'.segs = k.segs) (q : Pid) :
    mappings cfg k' q = mappings cfg k q := by
  unfold mappings
  rw [h]

theorem mappings_survive {seg : Segment}
    (h : k'.segs cfg.shmemId = seg.survive) (q : Pid) :
    mappings cfg k' q = seg.attached.count q := by
  unfold mappings
  rw [h]
  unfold Segment.survive
  split
  · rename_i hnone
    split at hnone
    · rename_i hgone
      rw [hgone.right]
      rfl
    · cases hnone
  · rename_i seg' hsome
    split at hsome
    · cases hsome
    · injection hsome with hsome
      rw [hsome]

theorem memory_survive {seg seg' : Segment} (h : seg.survive = some seg') :
    seg'.memory = seg.memory := by
  unfold Segment.survive at h
  split at h
  · cases h
  · injection h with h
    rw [h]

theorem mappings_exit_of_ne (hq : q ≠ p) :
    mappings cfg (k.exit p) q = mappings cfg k q := by
  cases hseg : k.segs cfg.shmemId with
  | none =>
      have hexit : (k.exit p).segs cfg.shmemId = none := by
        simp only [Kernel.exit, hseg, Option.bind_none]
      simp only [mappings, hexit, hseg]
  | some seg =>
      have hexit : (k.exit p).segs cfg.shmemId =
          (seg.release p).survive := by
        simp only [Kernel.exit, hseg, Option.bind_some]
      rw [mappings_survive hexit q]
      simp only [mappings, hseg, Segment.release]
      exact List.count_filter (by simp [hq])

end Mappings

/-!
## The stack in a run and in the run without removal

The second run leaves out the calls of `mark_destruct`.  As long as the set
exists in the first run both see the same semaphores; the slots agree for as
long as somebody has them mapped.
-/

/-- Whatever is left of the stack is the same in `k'`, where nothing is ever
removed. -/
structure SameStack (cfg : Config) (k k' : Kernel) : Prop where
  sets : forall set, k.sets cfg.semId = some set ->
    k'.sets cfg.semId = some set
  there : (k'.sets cfg.semId).isSome = true
  memory : forall seg, k.segs cfg.shmemId = some seg ->
    exists seg', k'.segs cfg.shmemId = some seg' ∧ seg'.marked = false ∧
      seg'.memory = seg.memory

section Operations

variable {cfg : Config} {k k' k1 : Kernel} {p : Pid} {removed : Removed}

theorem SameStack.of_eq {k1 k1' : Kernel} (h : SameStack cfg k k')
    (hsets : k1.sets = k.sets) (hsegs : k1.segs = k.segs)
    (hsets' : k1'.sets = k'.sets) (hsegs' : k1'.segs = k'.segs) :
    SameStack cfg k1 k1' where
  sets := by
    rw [hsets, hsets']
    exact h.sets
  there := by
    rw [hsets']
    exact h.there
  memory := by
    rw [hsegs, hsegs']
    exact h.memory

theorem sameStack_semop {semNum : Nat} {semOp : Int} {flags : SemFlags}
    {answer : Answer} (h : SameStack cfg k k')
    (hawake : k.sets cfg.semId = none ->
      forall set, k'.sets cfg.semId = some set -> 0 ≤ set.val semNum + semOp)
    (hop : k.semop removed p cfg.semId semNum semOp flags =
      some (answer, k1)) :
    exists answer' k1',
      k'.semop removed p cfg.semId semNum semOp flags =
          some (answer', k1') ∧
        ((k.sets cfg.semId).isSome = true -> answer'.ret = answer.ret) ∧
        SameStack cfg k1 k1' ∧ k1.segs = k.segs ∧ k1'.segs = k'.segs := by
  cases hset : k.sets cfg.semId with
  | some set =>
      have hset' := h.sets set hset
      simp only [Kernel.semop, hset] at hop
      simp only [Kernel.semop, hset']
      split at hop
      · rename_i hlow
        rw [if_pos hlow]
        split at hop
        · rename_i hflags
          rw [if_pos hflags]
          cases hop
          exact ⟨_, _, rfl, fun _ => rfl, h.of_eq rfl rfl rfl rfl, rfl, rfl⟩
        · cases hop
      · rename_i hlow
        rw [if_neg hlow]
        split at hop
        · rename_i hhigh
          rw [if_pos hhigh]
          cases hop
          exact ⟨_, _, rfl, fun _ => rfl, h.of_eq rfl rfl rfl rfl, rfl, rfl⟩
        · rename_i hhigh
          rw [if_neg hhigh]
          cases hop
          refine ⟨_, _, rfl, fun _ => rfl, ⟨?_, ?_, h.memory⟩, rfl, rfl⟩
          · intro set' hset'
            rw [Kernel.setSem_sets_self] at hset' ⊢
            exact hset'
          · rw [Kernel.setSem_sets_self]
            rfl
  | none =>
      rcases Option.isSome_iff_exists.mp h.there with ⟨set', hset'⟩
      have hlow := hawake hset set' hset'
      simp only [Kernel.semop, hset] at hop
      simp only [Kernel.semop, hset']
      cases hop
      rw [if_neg (by lia)]
      have hvacuous : forall k1' : Kernel,
          (k1'.sets cfg.semId).isSome = true -> k1'.segs = k'.segs ->
          SameStack cfg (k.fail p removed.errno).2 k1' := by
        intro k1' hthere hsegs
        refine ⟨?_, hthere, ?_⟩
        · intro set hbad
          rw [Kernel.fail_sets, hset] at hbad
          cases hbad
        · rw [hsegs]
          exact h.memory
      split
      · refine ⟨_, _, rfl, (by simp), hvacuous _ h.there rfl, rfl, rfl⟩
      · refine ⟨_, _, rfl, (by simp), hvacuous _ ?_ rfl, rfl, rfl⟩
        rw [Kernel.setSem_sets_self]
        rfl

theorem sameStack_write {index : Int} {val : Ptr} {seg : Segment}
    (h : SameStack cfg k k') (hseg : k.segs cfg.shmemId = some seg) :
    exists seg',
      k'.segs cfg.shmemId = some seg' ∧ seg'.memory = seg.memory ∧
        SameStack cfg
          (k.setSeg cfg.shmemId
            (some { seg with memory := Function.update seg.memory index val }))
          (k'.setSeg cfg.shmemId
            (some
              { seg' with
                memory := Function.update seg'.memory index val })) := by
  rcases h.memory seg hseg with ⟨seg', hseg', hmarked, hmemory⟩
  refine ⟨seg', hseg', hmemory, h.sets, h.there, ?_⟩
  intro seg1 hseg1
  rw [Kernel.setSeg_segs_self] at hseg1 ⊢
  injection hseg1 with hseg1
  refine ⟨_, rfl, hmarked, ?_⟩
  rw [← hseg1, hmemory]

theorem mappings_write {seg : Segment} {memory : Int -> Ptr}
    (hseg : k.segs cfg.shmemId = some seg) (q : Pid) :
    mappings cfg (k.setSeg cfg.shmemId (some { seg with memory := memory }))
      q = mappings cfg k q := by
  simp only [mappings, Kernel.setSeg_segs_self, hseg]

theorem memory_detached {seg1 : Segment}
    {seg seg' : Segment} {attached attached' : List Pid}
    (hmarked : seg'.marked = false) (hmemory : seg'.memory = seg.memory)
    (hsurvive : Segment.survive { seg with attached := attached } =
      some seg1) :
    exists seg1', Segment.survive { seg' with attached := attached' } =
        some seg1' ∧ seg1'.marked = false ∧ seg1'.memory = seg1.memory := by
  refine ⟨{ seg' with attached := attached' }, ?_, hmarked, ?_⟩
  · unfold Segment.survive
    rw [if_neg (by simp [hmarked])]
  · rw [memory_survive hsurvive]
    exact hmemory

theorem sameStack_exit (h : SameStack cfg k k') :
    SameStack cfg (k.exit p) (k'.exit p) where
  sets := by
    intro set1 hset1
    rw [Kernel.exit_sets] at hset1 ⊢
    rcases Option.map_eq_some_iff.mp hset1 with ⟨set, hset, hundo⟩
    rw [h.sets set hset, Option.map_some, hundo]
  there := by
    rw [Kernel.exit_sets, Option.isSome_map]
    exact h.there
  memory := by
    intro seg1 hseg1
    rcases Option.bind_eq_some_iff.mp hseg1 with ⟨seg, hseg, hsurvive⟩
    rcases h.memory seg hseg with ⟨seg', hseg', hmarked, hmemory⟩
    rcases memory_detached hmarked hmemory hsurvive with
      ⟨seg1', hsurvive', hrest⟩
    refine ⟨seg1', ?_, hrest⟩
    change (k'.segs cfg.shmemId).bind _ = _
    rw [hseg']
    exact hsurvive'

theorem sameStack_shmRmid {answer : Answer} (h : SameStack cfg k k')
    (hop : k.shmRmid removed p cfg.shmemId = (answer, k1)) :
    SameStack cfg k1 k' ∧ (forall q, mappings cfg k1 q = mappings cfg k q) ∧
      k1.sets = k.sets ∧ (0 < mappings cfg k p -> answer.ret = 0) := by
  unfold Kernel.shmRmid at hop
  cases hseg : k.segs cfg.shmemId with
  | none =>
      simp only [hseg] at hop
      cases hop
      refine ⟨h.of_eq rfl rfl rfl rfl, mappings_of_segs rfl, rfl, ?_⟩
      intro hmapped
      simp [mappings, hseg] at hmapped
  | some seg =>
      simp only [hseg] at hop
      injection hop with hanswer hk
      have hsegs : k1.segs cfg.shmemId =
          Segment.survive { seg with marked := true } := by
        rw [← hk]
        exact Kernel.setSeg_segs_self _ _ _
      have hsets : k1.sets = k.sets := by
        rw [← hk]
        rfl
      refine ⟨⟨?_, h.there, ?_⟩, ?_, hsets, fun _ => ?_⟩
      · rw [hsets]
        exact h.sets
      · intro seg1 hseg1
        rcases h.memory seg hseg with ⟨seg', hseg', hmarked, hmemory⟩
        refine ⟨seg', hseg', hmarked, hmemory.trans ?_⟩
        rw [hsegs] at hseg1
        exact (memory_survive hseg1).symm
      · intro q
        rw [mappings_survive hsegs q]
        simp only [mappings, hseg]
      · rw [← hanswer]
        rfl

theorem sameStack_semRmid {answer : Answer} (h : SameStack cfg k k')
    (hop : k.semRmid removed p cfg.semId = (answer, k1)) :
    SameStack cfg k1 k' ∧ k1.segs = k.segs ∧
      k1.sets cfg.semId = none ∧
      ((k.sets cfg.semId).isSome = true -> answer.ret = 0) := by
  have hgone : k1.sets cfg.semId = none -> k1.segs = k.segs ->
      SameStack cfg k1 k' := by
    intro hnone hsegs
    refine ⟨?_, h.there, ?_⟩
    · intro set hset
      rw [hnone] at hset
      cases hset
    · rw [hsegs]
      exact h.memory
  unfold Kernel.semRmid at hop
  cases hset : k.sets cfg.semId with
  | none =>
      simp only [hset] at hop
      cases hop
      exact ⟨hgone hset rfl, rfl, hset, (by simp)⟩
  | some set =>
      simp only [hset] at hop
      cases hop
      have hnone : (k.setSem cfg.semId none).sets cfg.semId = none :=
        Kernel.setSem_sets_self _ _ _
      exact ⟨hgone hnone rfl, rfl, hnone, fun _ => rfl⟩

theorem shmdt_mapped (h : 0 < mappings cfg k p) :
    exists seg, k.segs cfg.shmemId = some seg ∧
      k.shmdt p cfg.shmemId =
        (k.ok p 0,
          k.setSeg cfg.shmemId
            (Segment.survive
              { seg with attached := seg.attached.erase p })) := by
  unfold mappings at h
  cases hseg : k.segs cfg.shmemId with
  | none => simp [hseg] at h
  | some seg =>
      simp only [hseg] at h
      refine ⟨seg, rfl, ?_⟩
      unfold Kernel.shmdt
      simp only [hseg]
      rw [if_pos (List.contains_iff_mem.mpr (List.count_pos_iff.mp h))]

theorem mappings_shmdt (h : 0 < mappings cfg k p) (q : Pid) :
    mappings cfg (k.shmdt p cfg.shmemId).2 q =
      if q = p then mappings cfg k q - 1 else mappings cfg k q := by
  rcases shmdt_mapped h with ⟨seg, hseg, hdetach⟩
  rw [hdetach, mappings_survive (Kernel.setSeg_segs_self _ _ _)]
  simp only [mappings, hseg]
  by_cases hq : q = p
  · rw [if_pos hq, hq, List.count_erase_self]
  · rw [if_neg hq, List.count_erase_of_ne hq]

theorem sameStack_shmdt (h : SameStack cfg k k')
    (hmapped : 0 < mappings cfg k p) (hmapped' : 0 < mappings cfg k' p) :
    SameStack cfg (k.shmdt p cfg.shmemId).2 (k'.shmdt p cfg.shmemId).2 := by
  rcases shmdt_mapped hmapped with ⟨seg, hseg, hdetach⟩
  rcases shmdt_mapped hmapped' with ⟨seg', hseg', hdetach'⟩
  rw [hdetach, hdetach']
  refine ⟨h.sets, h.there, ?_⟩
  intro seg1 hseg1
  rw [Kernel.setSeg_segs_self] at hseg1 ⊢
  rcases h.memory seg hseg with ⟨seg2, hseg2, hmarked, hmemory⟩
  rw [hseg'] at hseg2
  injection hseg2 with hseg2
  subst hseg2
  exact memory_detached hmarked hmemory hseg1

theorem sameStack_exit_left (h : SameStack cfg k k')
    (hgone : k.sets cfg.semId = none) : SameStack cfg (k.exit p) k' where
  sets := by
    intro set hset
    rw [Kernel.exit_sets, hgone] at hset
    cases hset
  there := h.there
  memory := by
    intro seg1 hseg1
    rcases Option.bind_eq_some_iff.mp hseg1 with ⟨seg, hseg, hsurvive⟩
    rcases h.memory seg hseg with ⟨seg', hseg', hmarked, hmemory⟩
    exact ⟨seg', hseg', hmarked,
      hmemory.trans (memory_survive hsurvive).symm⟩

end Operations

/-!
## One operation of a push or pop in both runs
-/

section Advances

variable {cfg : Config} {m m' : Machine} {p : Pid} {removed : Removed}
  {timeoutFlag : Int} {request : Request} {point point1 : Point}
  {locked locked' locked1 : Bool} {k1 : Kernel}

theorem calm_of_lock (hlock : LockInv cfg m)
    (hthere : (m.kernel.sets cfg.semId).isSome = true)
    (hview : m.view p = View.working timeoutFlag request point locked) :
    m.kernel.errno p ≠ Errno.eidrm := by
  rcases Option.isSome_iff_exists.mp hthere with ⟨set, hset⟩
  rcases hlock set hset with ⟨owner, halive⟩
  exact halive.errno_of_working hview

theorem sameStack_getval {answer : Answer}
    (hsame : SameStack cfg m.kernel m'.kernel)
    (hlock : LockInv cfg m) (hlock' : LockInv cfg m')
    (hview : m.view p = View.working timeoutFlag request point locked)
    (hview' : m'.view p = View.working timeoutFlag request point locked')
    (hthere : (m.kernel.sets cfg.semId).isSome = true)
    (hop : m.kernel.getval removed p cfg.semId SEM_COUNT = (answer, k1)) :
    exists answer',
      m'.kernel.getval removed p cfg.semId SEM_COUNT =
          (answer', m'.kernel) ∧
        k1 = m.kernel ∧ answer'.ret = answer.ret ∧
        answer.errno ≠ Errno.eidrm ∧ answer'.errno ≠ Errno.eidrm := by
  rcases Option.isSome_iff_exists.mp hthere with ⟨set, hset⟩
  have hset' := hsame.sets set hset
  rw [getval_some removed p SEM_COUNT hset] at hop
  cases hop
  exact ⟨_, getval_some removed p SEM_COUNT hset', rfl, rfl,
    calm_of_lock hlock hthere hview, calm_of_lock hlock' hsame.there hview'⟩

theorem awake_release (hlock' : LockInv cfg m')
    (hview' : m'.view p = View.working timeoutFlag request point locked')
    (hinside : point.inside = true) {set : SemSet}
    (hset : m'.kernel.sets cfg.semId = some set) :
    0 ≤ set.val SEM_FLAG + 1 := by
  rcases hlock' set hset with ⟨owner, halive⟩
  have hflag := (halive.owner_of_inside hview' hinside).right
  lia

theorem awake_commit {out : Option Ptr} (hlock' : LockInv cfg m')
    (hview' : m'.view p =
      View.working timeoutFlag request (Point.commit out) locked')
    {set : SemSet} (hset : m'.kernel.sets cfg.semId = some set) :
    0 ≤ set.val SEM_COUNT + request.delta := by
  rcases hlock' set hset with ⟨owner, halive⟩
  have hfacts := halive.facts p
  have hlow := halive.low
  rw [hview'] at hfacts
  cases request with
  | push val =>
      change 0 ≤ set.val SEM_COUNT + 1
      lia
  | pop =>
      have hpos : 0 < set.val SEM_COUNT := hfacts
      change 0 ≤ set.val SEM_COUNT + -1
      lia

theorem advance_sets_none
    (hadvance : Advance removed p timeoutFlag (cfg.handle p) request point
      locked m.kernel point1 locked1 k1)
    (hnone : m.kernel.sets cfg.semId = none) :
    k1.sets cfg.semId = none := by
  have hsemop : forall {semNum : Nat} {semOp : Int} {flags : SemFlags}
      {answer : Answer},
      m.kernel.semop removed p cfg.semId semNum semOp flags =
        some (answer, k1) -> k1.sets cfg.semId = none := by
    intro semNum semOp flags answer hop
    simp only [Kernel.semop, hnone] at hop
    cases hop
    exact hnone
  have hgetval : forall {answer : Answer},
      m.kernel.getval removed p cfg.semId SEM_COUNT = (answer, k1) ->
        k1.sets cfg.semId = none := by
    intro answer hop
    simp only [Kernel.getval, hnone] at hop
    cases hop
    exact hnone
  cases hadvance with
  | acquire hop => exact hsemop hop
  | check hop => exact hgetval hop
  | failRelease hop => exact hsemop hop
  | slot hop => exact hgetval hop
  | write hseg => exact hnone
  | read hseg => exact hnone
  | commit hop => exact hsemop hop
  | release hop => exact hsemop hop

theorem advance_follows (hsame : SameStack cfg m.kernel m'.kernel)
    (hlock : LockInv cfg m) (hlock' : LockInv cfg m')
    (hview : m.view p = View.working timeoutFlag request point locked)
    (hview' : m'.view p = View.working timeoutFlag request point locked')
    (hbefore : forall op next,
      point.code timeoutFlag (cfg.handle p) request = Program.call op next ->
      Decides op -> (m.kernel.sets cfg.semId).isSome = true)
    (hadvance : Advance removed p timeoutFlag (cfg.handle p) request point
      locked m.kernel point1 locked1 k1) :
    exists locked1' k1',
      Advance removed p timeoutFlag (cfg.handle p) request point locked'
          m'.kernel point1 locked1' k1' ∧
        SameStack cfg k1 k1' ∧
        (forall q, mappings cfg k1 q = mappings cfg m.kernel q) ∧
        (forall q, mappings cfg k1' q = mappings cfg m'.kernel q) ∧
        forall reason, point1 ≠ Point.ended reason := by
  cases hadvance with
  | acquire hop =>
      rename_i answer
      have hthere := hbefore _ _ rfl ⟨rfl, by decide⟩
      have hawake : m.kernel.sets cfg.semId = none ->
          forall set, m'.kernel.sets cfg.semId = some set ->
            0 ≤ set.val SEM_FLAG + -1 := by
        intro hnone
        rw [hnone] at hthere
        cases hthere
      rcases sameStack_semop hsame hawake hop with
        ⟨answer', k1', hop', hret, hsame1, hsegs, hsegs'⟩
      have hadvance' : Advance removed p timeoutFlag (cfg.handle p) request
          Point.acquire locked' m'.kernel _ _ k1' := Advance.acquire hop'
      rw [hret hthere] at hadvance'
      refine ⟨_, k1', hadvance', hsame1, mappings_of_segs hsegs,
        mappings_of_segs hsegs', ?_⟩
      intro reason
      split <;> simp
  | check hop =>
      have hthere := hbefore _ _ rfl trivial
      rcases sameStack_getval hsame hlock hlock' hview hview' hthere hop with
        ⟨answer', hop', hk1, hret, hcalm, hcalm'⟩
      have hadvance' : Advance removed p timeoutFlag (cfg.handle p) request
          Point.check locked' m'.kernel _ _ m'.kernel := Advance.check hop'
      rw [if_neg hcalm', hret] at hadvance'
      rw [if_neg hcalm, hk1]
      refine ⟨_, _, hadvance', hsame, fun _ => rfl, fun _ => rfl, ?_⟩
      intro reason
      split <;> simp
  | slot hop =>
      have hthere := hbefore _ _ rfl trivial
      rcases sameStack_getval hsame hlock hlock' hview hview' hthere hop with
        ⟨answer', hop', hk1, hret, hcalm, hcalm'⟩
      have hadvance' : Advance removed p timeoutFlag (cfg.handle p) request
          Point.slot locked' m'.kernel _ _ m'.kernel := Advance.slot hop'
      rw [if_neg hcalm', hret] at hadvance'
      rw [if_neg hcalm, hk1]
      exact ⟨_, _, hadvance', hsame, fun _ => rfl, fun _ => rfl, by simp⟩
  | write hseg =>
      rcases sameStack_write hsame hseg with ⟨seg', hseg', hmemory, hsame1⟩
      exact ⟨_, _, Advance.write hseg', hsame1, mappings_write hseg,
        mappings_write hseg', by simp⟩
  | read hseg =>
      rename_i index seg
      rcases hsame.memory seg hseg with ⟨seg', hseg', _, hmemory⟩
      have hadvance' : Advance removed p timeoutFlag (cfg.handle p)
          Request.pop (Point.access index) locked' m'.kernel _ _ m'.kernel :=
        Advance.read hseg'
      rw [hmemory] at hadvance'
      exact ⟨_, _, hadvance', hsame, fun _ => rfl, fun _ => rfl, by simp⟩
  | failRelease hop =>
      rcases sameStack_semop hsame
        (fun _ _ hset => awake_release hlock' hview' rfl hset) hop with
        ⟨answer', k1', hop', _, hsame1, hsegs, hsegs'⟩
      exact ⟨_, k1', Advance.failRelease hop', hsame1, mappings_of_segs hsegs,
        mappings_of_segs hsegs', by simp⟩
  | commit hop =>
      rcases sameStack_semop hsame
        (fun _ _ hset => awake_commit hlock' hview' hset) hop with
        ⟨answer', k1', hop', _, hsame1, hsegs, hsegs'⟩
      exact ⟨_, k1', Advance.commit hop', hsame1, mappings_of_segs hsegs,
        mappings_of_segs hsegs', by simp⟩
  | release hop =>
      rcases sameStack_semop hsame
        (fun _ _ hset => awake_release hlock' hview' rfl hset) hop with
        ⟨answer', k1', hop', _, hsame1, hsegs, hsegs'⟩
      exact ⟨_, k1', Advance.release hop', hsame1, mappings_of_segs hsegs,
        mappings_of_segs hsegs', by simp⟩

end Advances

/-!
## The two runs side by side

A process is at the same point in both runs, unless it is in a call of
`mark_destruct` or has ended itself while reading COUNT.
-/

def View.alive : View -> Bool
  | View.dead _ => false
  | _ => true

/-- The process ended itself while reading COUNT. -/
def View.gaveUp : View -> Bool
  | View.working _ _ (Point.ended _) _ => true
  | _ => false

/-- A process, and the same process without its calls of `mark_destruct`. -/
inductive Without : View -> View -> Prop where
  | idle : Without View.idle View.idle
  | working {timeoutFlag : Int} {request : Request} {point : Point}
      {locked locked' : Bool} :
      Without (View.working timeoutFlag request point locked)
        (View.working timeoutFlag request point locked')
  | destroying {timeoutFlag : Int} {point : DestructPoint} :
      Without (View.destroying timeoutFlag point) View.idle
  | dead {call : Option Call} : Without (View.dead call) (View.dead call)
  | killed : Without (View.dead (some Call.markDestruct)) (View.dead none)
  | aborted : Without (View.dead (some Call.markDestruct)) View.idle

structure Follows (cfg : Config) (m m' : Machine) : Prop where
  same : SameStack cfg m.kernel m'.kernel
  mapped : forall p, (m.view p).alive = true ->
    mappings cfg m'.kernel p = mappings cfg m.kernel p
  view : forall p, Without (m.view p) (m'.view p)
  returned : forall p, m'.returned p = requests (m.returned p)
  goesOn : forall p, (m.view p).gaveUp = false
  /-- A process in `mark_destruct` holds a mapping, and only the loss of the
  set makes it fail. -/
  destroyer : forall p timeoutFlag point,
    m.view p = View.destroying timeoutFlag point ->
    0 < mappings cfg m.kernel p ∧
      (point = DestructPoint.aborted -> m.kernel.sets cfg.semId = none)

section Follows

variable {cfg : Config} {m m' m1 : Machine} {p : Pid}

theorem Follows.fresh (hfresh : Fresh cfg (m.toState cfg))
    (hidle : forall p, m.view p = View.idle)
    (hreturned : forall p, m.returned p = []) : Follows cfg m m where
  same := by
    rcases hfresh.set with ⟨set, hset, _⟩
    rcases hfresh.segment with ⟨seg, hseg, hmarked⟩
    refine ⟨fun _ h => h, ?_, ?_⟩
    · rw [show m.kernel.sets cfg.semId = some set from hset]
      rfl
    · intro seg' hseg'
      have hsame : some seg = some seg' := hseg.symm.trans hseg'
      injection hsame with hsame
      subst hsame
      exact ⟨seg, hseg', hmarked, rfl⟩
  mapped := fun _ _ => rfl
  view := by
    intro p
    rw [hidle p]
    exact Without.idle
  returned := by
    intro p
    rw [hreturned p]
    rfl
  goesOn := by
    intro p
    rw [hidle p]
    rfl
  destroyer := by
    intro p timeoutFlag point hview
    rw [hidle p] at hview
    cases hview

theorem Follows.update {view view' : View} {k k' : Kernel}
    {returned returned' : Pid -> List (Call × Outcome)}
    (h : Follows cfg m m') (hsame : SameStack cfg k k')
    (halive : view.alive = true -> (m.view p).alive = true)
    (hmapped : forall q, q ≠ p ∨ view.alive = true ->
      mappings cfg k q = mappings cfg m.kernel q)
    (hmapped' : forall q, q ≠ p ∨ view.alive = true ->
      mappings cfg k' q = mappings cfg m'.kernel q)
    (hview : Without view view')
    (hreturned : forall q, returned' q = requests (returned q))
    (hgoesOn : view.gaveUp = false)
    (hgone : m.kernel.sets cfg.semId = none -> k.sets cfg.semId = none)
    (hdestroyer : forall timeoutFlag point,
      view = View.destroying timeoutFlag point ->
      0 < mappings cfg k p ∧
        (point = DestructPoint.aborted -> k.sets cfg.semId = none)) :
    Follows cfg
      { m.setView p view with kernel := k, returned := returned }
      { m'.setView p view' with kernel := k', returned := returned' } where
  same := hsame
  mapped := by
    intro q hq
    change mappings cfg k' q = mappings cfg k q
    by_cases hqp : q = p
    · subst hqp
      change ((m.setView q view).view q).alive = true at hq
      rw [Machine.setView_view_self] at hq
      rw [hmapped q (Or.inr hq), hmapped' q (Or.inr hq)]
      exact h.mapped q (halive hq)
    · change ((m.setView p view).view q).alive = true at hq
      rw [m.setView_view_of_ne view hqp] at hq
      rw [hmapped q (Or.inl hqp), hmapped' q (Or.inl hqp)]
      exact h.mapped q hq
  view := by
    intro q
    change Without ((m.setView p view).view q) ((m'.setView p view').view q)
    by_cases hqp : q = p
    · subst hqp
      rw [Machine.setView_view_self, Machine.setView_view_self]
      exact hview
    · rw [m.setView_view_of_ne view hqp, m'.setView_view_of_ne view' hqp]
      exact h.view q
  returned := hreturned
  goesOn := by
    intro q
    change ((m.setView p view).view q).gaveUp = false
    by_cases hqp : q = p
    · subst hqp
      rw [Machine.setView_view_self]
      exact hgoesOn
    · rw [m.setView_view_of_ne view hqp]
      exact h.goesOn q
  destroyer := by
    intro q timeoutFlag point hq
    change (m.setView p view).view q = _ at hq
    change 0 < mappings cfg k q ∧ (_ -> k.sets cfg.semId = none)
    by_cases hqp : q = p
    · subst hqp
      rw [Machine.setView_view_self] at hq
      exact hdestroyer timeoutFlag point hq
    · rw [m.setView_view_of_ne view hqp] at hq
      rcases h.destroyer q timeoutFlag point hq with ⟨hmap, hfailed⟩
      rw [hmapped q (Or.inl hqp)]
      exact ⟨hmap, fun haborted => hgone (hfailed haborted)⟩

theorem Follows.left {view : View} {k : Kernel}
    {returned : Pid -> List (Call × Outcome)} (h : Follows cfg m m')
    (hsame : SameStack cfg k m'.kernel)
    (halive : view.alive = true -> (m.view p).alive = true)
    (hmapped : forall q, q ≠ p ∨ view.alive = true ->
      mappings cfg k q = mappings cfg m.kernel q)
    (hview : Without view (m'.view p))
    (hreturned : forall q, m'.returned q = requests (returned q))
    (hgoesOn : view.gaveUp = false)
    (hgone : m.kernel.sets cfg.semId = none -> k.sets cfg.semId = none)
    (hdestroyer : forall timeoutFlag point,
      view = View.destroying timeoutFlag point ->
      0 < mappings cfg k p ∧
        (point = DestructPoint.aborted -> k.sets cfg.semId = none)) :
    Follows cfg
      { m.setView p view with kernel := k, returned := returned } m' := by
  have hsecond : { m'.setView p (m'.view p) with
      kernel := m'.kernel
      returned := m'.returned } = m' := by
    simp [Machine.setView]
  have hboth := h.update hsame halive hmapped (fun _ _ => rfl) hview hreturned
    hgoesOn hgone hdestroyer
  rw [hsecond] at hboth
  exact hboth

def FollowedBy (cfg : Config) (l : Label) (m1 m' : Machine) : Prop :=
  exists m1', PointStep cfg m' l m1' ∧
    step cfg (m'.toState cfg) l = some (m1'.toState cfg) ∧
    Follows cfg m1 m1'

def Mirrors (cfg : Config) (m m' : Machine) (l : Label) (m1 : Machine) : Prop :=
  if Destroys (m.toState cfg) (Action.call l) = true then Follows cfg m1 m'
  else FollowedBy cfg l m1 m'

theorem Follows.idle (h : Follows cfg m m') (hview : m.view p = View.idle) :
    m'.view p = View.idle := by
  have hwithout := h.view p
  rw [hview] at hwithout
  cases hwithout' : m'.view p with
  | idle => rfl
  | _ =>
      rw [hwithout'] at hwithout
      cases hwithout

theorem Follows.destroying {timeoutFlag : Int} {point : DestructPoint}
    (h : Follows cfg m m') (hview : m.view p = View.destroying timeoutFlag point) :
    m'.view p = View.idle := by
  have hwithout := h.view p
  rw [hview] at hwithout
  cases hwithout' : m'.view p with
  | idle => rfl
  | _ =>
      rw [hwithout'] at hwithout
      cases hwithout

theorem Follows.working {timeoutFlag : Int} {request : Request} {point : Point}
    {locked : Bool} (h : Follows cfg m m')
    (hview : m.view p = View.working timeoutFlag request point locked) :
    exists locked',
      m'.view p = View.working timeoutFlag request point locked' := by
  have hwithout := h.view p
  rw [hview] at hwithout
  generalize m'.view p = view at hwithout ⊢
  cases hwithout with
  | working => exact ⟨_, rfl⟩

theorem destroys_of_working {timeoutFlag : Int} {request : Request}
    {point : Point} {locked : Bool} {a : Action}
    (ha : (exists removed, a = Action.call (Label.atom p removed)) ∨
      a = Action.call (Label.finish p))
    (hview : m.view p = View.working timeoutFlag request point locked) :
    Destroys (m.toState cfg) a = false := by
  rcases ha with ⟨removed, ha⟩ | ha <;>
    simp only [ha, Destroys, toState_status hview, View.status]

theorem destroys_of_destroying {timeoutFlag : Int} {point : DestructPoint}
    {a : Action}
    (ha : (exists removed, a = Action.call (Label.atom p removed)) ∨
      a = Action.call (Label.finish p))
    (hview : m.view p = View.destroying timeoutFlag point) :
    Destroys (m.toState cfg) a = true := by
  rcases ha with ⟨removed, ha⟩ | ha <;>
    simp only [ha, Destroys, toState_status hview, View.status]

theorem mirrors_begin {timeoutFlag : Int} {call : Call}
    (h : Follows cfg m m')
    (hstep : PointStep cfg m (Label.begin p timeoutFlag call) m1) :
    Mirrors cfg m m' (Label.begin p timeoutFlag call) m1 := by
  cases hstep with
  | beginRequest hview hattached =>
      rename_i request
      have hview' := h.idle hview
      have hattached' : Attached cfg m'.kernel p = true := by
        rw [attached_iff_mappings, h.mapped p (by rw [hview]; rfl)]
        exact attached_iff_mappings.mp hattached
      have hpoint : PointStep cfg m'
          (Label.begin p timeoutFlag (Call.request request)) _ :=
        PointStep.beginRequest hview' hattached'
      unfold Mirrors
      rw [if_neg (by simp [Destroys])]
      refine ⟨_, hpoint, step_of_point hpoint (by simp), ?_⟩
      refine h.update h.same ?_ (fun _ _ => rfl) (fun _ _ => rfl)
        Without.working h.returned ?_ id ?_
      · intro _
        rw [hview]
        rfl
      · unfold startPoint
        split <;> rfl
      · intro _ _ hbad
        cases hbad
  | beginDestruct hview hattached =>
      unfold Mirrors
      rw [if_pos (by simp [Destroys])]
      refine h.left h.same ?_ (fun _ _ => rfl) ?_ h.returned rfl id ?_
      · intro _
        rw [hview]
        rfl
      · rw [h.idle hview]
        exact Without.destroying
      · intro _ point hpoint
        injection hpoint with _ hpoint
        refine ⟨attached_iff_mappings.mp hattached, ?_⟩
        intro haborted
        rw [← hpoint] at haborted
        cases haborted
  | die hlabel hcall =>
      rcases hlabel with hlabel | ⟨removed, hlabel⟩ <;> cases hlabel

theorem requests_request (returned : List (Call × Outcome))
    (request : Request) (outcome : Outcome) :
    requests (returned ++ [(Call.request request, outcome)]) =
      requests returned ++ [(Call.request request, outcome)] := by
  simp [requests]

theorem requests_markDestruct (returned : List (Call × Outcome))
    (outcome : Outcome) :
    requests (returned ++ [(Call.markDestruct, outcome)]) =
      requests returned := by
  simp [requests]

theorem mirrors_finish (h : Follows cfg m m')
    (hstep : PointStep cfg m (Label.finish p) m1) :
    Mirrors cfg m m' (Label.finish p) m1 := by
  cases hstep with
  | finishRequest hview =>
      rename_i timeoutFlag request outcome locked
      rcases h.working hview with ⟨locked', hview'⟩
      have hpoint : PointStep cfg m' (Label.finish p) _ :=
        PointStep.finishRequest hview'
      unfold Mirrors
      rw [if_neg (by rw [destroys_of_working (Or.inr rfl) hview]; simp)]
      refine ⟨_, hpoint, step_of_point hpoint (by simp), ?_⟩
      refine h.update h.same ?_ (fun _ _ => rfl) (fun _ _ => rfl)
        Without.idle ?_ rfl id ?_
      · intro _
        rw [hview]
        rfl
      · intro q
        by_cases hq : q = p
        · subst hq
          rw [Function.update_self, Function.update_self, requests_request,
            h.returned q]
        · rw [Function.update_of_ne hq, Function.update_of_ne hq]
          exact h.returned q
      · intro _ _ hbad
        cases hbad
  | finishDestruct hview =>
      unfold Mirrors
      rw [if_pos (destroys_of_destroying (Or.inr rfl) hview)]
      refine h.left h.same ?_ (fun _ _ => rfl) ?_ ?_ rfl id ?_
      · intro _
        rw [hview]
        rfl
      · rw [h.destroying hview]
        exact Without.idle
      · intro q
        by_cases hq : q = p
        · subst hq
          rw [Function.update_self, requests_markDestruct]
          exact h.returned q
        · rw [Function.update_of_ne hq]
          exact h.returned q
      · intro _ _ hbad
        cases hbad
  | die hlabel hcall =>
      rcases hlabel with hlabel | ⟨removed, hlabel⟩ <;> cases hlabel

theorem mirrors_atom {removed : Removed} (h : Follows cfg m m')
    (hlock : LockInv cfg m) (hlock' : LockInv cfg m')
    (hbefore : BeforeRemoval cfg (m.toState cfg)
      (Action.call (Label.atom p removed)))
    (hstep : AtomStep cfg m p removed m1) :
    Mirrors cfg m m' (Label.atom p removed) m1 := by
  cases hstep with
  | advance hview hadvance =>
      rename_i timeoutFlag request point point1 locked locked1 k1
      rcases h.working hview with ⟨locked', hview'⟩
      have hneeds : forall op next,
          point.code timeoutFlag (cfg.handle p) request =
            Program.call op next ->
          Decides op -> (m.kernel.sets cfg.semId).isSome = true := by
        intro op next hcode
        simp only [BeforeRemoval, toState_status hview, View.status,
          hcode] at hbefore
        exact hbefore
      rcases advance_follows h.same hlock hlock' hview hview' hneeds
        hadvance with
        ⟨locked1', k1', hadvance', hsame, hmapped, hmapped', hgoesOn⟩
      have hpoint : PointStep cfg m' (Label.atom p removed) _ :=
        PointStep.advance hview' hadvance'
      unfold Mirrors
      rw [if_neg (by
        rw [destroys_of_working (Or.inl ⟨removed, rfl⟩) hview]
        simp)]
      refine ⟨_, hpoint, step_of_point hpoint ?_, ?_⟩
      · intro q _ call hlabel hdead
        injection hlabel with hq _
        subst hq
        change (m'.setView p _).view p = _ at hdead
        rw [Machine.setView_view_self] at hdead
        cases hdead
      · refine h.update hsame ?_ (fun q _ => hmapped q)
          (fun q _ => hmapped' q) Without.working h.returned ?_ ?_ ?_
        · intro _
          rw [hview]
          rfl
        · cases point1 with
          | ended reason => exact absurd rfl (hgoesOn reason)
          | _ => rfl
        · intro hnone
          exact advance_sets_none hadvance hnone
        · intro _ _ hbad
          cases hbad
  | dismantle hview hdismantle =>
      rename_i timeoutFlag point point1 k1
      unfold Mirrors
      rw [if_pos (destroys_of_destroying (Or.inl ⟨removed, rfl⟩) hview)]
      have hview' : Without (View.destroying timeoutFlag point1)
          (m'.view p) := by
        rw [h.destroying hview]
        exact Without.destroying
      have halive : (m.view p).alive = true := by
        rw [hview]
        rfl
      rcases h.destroyer p timeoutFlag point hview with ⟨hmap, _⟩
      cases hdismantle with
      | segment hop =>
          rcases sameStack_shmRmid h.same hop with
            ⟨hsame, hmapped, hsets, hok⟩
          refine h.left hsame (fun _ => halive) (fun q _ => hmapped q) hview'
            h.returned rfl ?_ ?_
          · intro hnone
            rw [hsets]
            exact hnone
          · intro _ point hpoint
            injection hpoint with _ hpoint
            rw [if_pos (hok hmap)] at hpoint
            subst hpoint
            rw [hmapped p]
            exact ⟨hmap, (by simp)⟩
      | set hop =>
          rcases sameStack_semRmid h.same hop with ⟨hsame, hsegs, hnone, _⟩
          refine h.left hsame (fun _ => halive)
            (fun q _ => mappings_of_segs hsegs q) hview' h.returned rfl
            (fun _ => hnone) ?_
          intro _ _ _
          rw [mappings_of_segs hsegs]
          exact ⟨hmap, fun _ => hnone⟩
  | halt hhalting =>
      rename_i call
      cases hview : m.view p with
      | working timeoutFlag request point locked =>
          have hgoesOn := h.goesOn p
          rw [hview] at hhalting hgoesOn
          cases point with
          | ended reason => cases hgoesOn
          | _ => exact hhalting.elim
      | destroying timeoutFlag point =>
          rw [hview] at hhalting
          cases point with
          | aborted =>
              have hcall : call = some Call.markDestruct := hhalting
              rcases h.destroyer p _ _ hview with ⟨_, hgone⟩
              unfold Mirrors
              rw [if_pos
                (destroys_of_destroying (Or.inl ⟨removed, rfl⟩) hview)]
              refine h.left (sameStack_exit_left h.same (hgone rfl))
                (by simp [View.alive])
                ?_ ?_ h.returned rfl ?_ ?_
              · rintro q (hq | hdead)
                · exact mappings_exit_of_ne hq
                · cases hdead
              · rw [h.destroying hview, hcall]
                exact Without.aborted
              · intro hnone
                rw [Kernel.exit_sets, hnone]
                rfl
              · intro _ _ hbad
                cases hbad
          | _ => exact hhalting.elim
      | idle =>
          rw [hview] at hhalting
          exact hhalting.elim
      | dead call =>
          rw [hview] at hhalting
          exact hhalting.elim

theorem mirrors_kill (h : Follows cfg m m')
    (hstep : PointStep cfg m (Label.kill p) m1) :
    Mirrors cfg m m' (Label.kill p) m1 := by
  cases hstep with
  | die hlabel hcall =>
      rename_i q call
      have hq : q = p := by
        rcases hlabel with hlabel | ⟨removed, hlabel⟩
        · injection hlabel with hlabel
          exact hlabel.symm
        · cases hlabel
      subst hq
      have hboth : exists call', Without (View.dead call) (View.dead call') ∧
          PointStep cfg m' (Label.kill q)
            { m'.setView q (View.dead call') with
              kernel := m'.kernel.exit q } := by
        rcases hcall with ⟨hview, hcall⟩ |
          ⟨timeoutFlag, request, point, locked, hview, hcall⟩ |
          ⟨timeoutFlag, point, hview, hcall⟩
        · exact ⟨call, Without.dead, PointStep.die (Or.inl rfl)
            (Or.inl ⟨h.idle hview, hcall⟩)⟩
        · rcases h.working hview with ⟨locked', hview'⟩
          exact ⟨call, Without.dead, PointStep.die (Or.inl rfl)
            (Or.inr (Or.inl ⟨_, _, _, _, hview', hcall⟩))⟩
        · rw [hcall]
          exact ⟨none, Without.killed, PointStep.die (Or.inl rfl)
            (Or.inl ⟨h.destroying hview, rfl⟩)⟩
      rcases hboth with ⟨call', hwithout, hpoint⟩
      unfold Mirrors
      rw [if_neg (by simp [Destroys])]
      refine ⟨_, hpoint, step_of_point hpoint (by simp), ?_⟩
      refine h.update (sameStack_exit h.same) (by simp [View.alive]) ?_ ?_
        hwithout h.returned rfl ?_ ?_
      · rintro r (hr | hdead)
        · exact mappings_exit_of_ne hr
        · cases hdead
      · rintro r (hr | hdead)
        · exact mappings_exit_of_ne hr
        · cases hdead
      · intro hnone
        rw [Kernel.exit_sets, hnone]
        rfl
      · intro _ _ hbad
        cases hbad

theorem mirrors_step {l : Label} {s1 : State} (h : Follows cfg m m')
    (hlock : LockInv cfg m) (hlock' : LockInv cfg m')
    (hbefore : BeforeRemoval cfg (m.toState cfg) (Action.call l))
    (hstep : step cfg (m.toState cfg) l = some s1) :
    exists m1, s1 = m1.toState cfg ∧ PointStep cfg m l m1 ∧
      Mirrors cfg m m' l m1 := by
  cases l with
  | begin p timeoutFlag call =>
      rcases step_begin_point hstep with ⟨m1, hs1, hpoint⟩
      exact ⟨m1, hs1, hpoint, mirrors_begin h hpoint⟩
  | atom p removed =>
      rcases step_atom_cases hstep with ⟨m1, hs1, hatom⟩
      exact ⟨m1, hs1, hatom.point,
        mirrors_atom h hlock hlock' hbefore hatom⟩
  | finish p =>
      rcases step_finish_point hstep with ⟨m1, hs1, hpoint⟩
      exact ⟨m1, hs1, hpoint, mirrors_finish h hpoint⟩
  | kill p =>
      rcases step_kill_point hstep with ⟨m1, hs1, hpoint⟩
      exact ⟨m1, hs1, hpoint, mirrors_kill h hpoint⟩

/-!
## Detaching
-/

def Machine.detached (cfg : Config) (m : Machine) (p : Pid) : Machine :=
  { m with kernel := (m.kernel.shmdt p cfg.shmemId).2 }

theorem solo_detachStack (hmapped : 0 < mappings cfg m.kernel p) :
    solo Removed.einval p (detachStack (some (cfg.handle p))) m.kernel =
      some (Except.ok none, (m.kernel.shmdt p cfg.shmemId).2) := by
  rcases shmdt_mapped hmapped with ⟨seg, hseg, hdetach⟩
  have hexec : m.kernel.exec Removed.einval p
      (Op.shmdt (cfg.handle p).memory) =
        some (m.kernel.ok p 0, (m.kernel.shmdt p cfg.shmemId).2) := by
    change some (m.kernel.shmdt p cfg.shmemId) = _
    rw [hdetach]
  unfold solo detachStack Program.ask assertThat
  simp only [Program.call_bind, Program.ret_bind]
  rw [Program.eval_call _ hexec]
  rfl

theorem act_detach_of_idle (hview : m.view p = View.idle)
    (hmapped : 0 < mappings cfg m.kernel p) :
    act cfg (m.toState cfg) (Action.detach p) =
      some ((m.detached cfg p).toState cfg) := by
  have hattached : Attached cfg (m.toState cfg).kernel p = true :=
    attached_iff_mappings.mpr hmapped
  have hsolo : solo Removed.einval p (detachStack (some (cfg.handle p)))
      (m.toState cfg).kernel = _ := solo_detachStack hmapped
  simp only [act, toState_status hview, View.status]
  rw [if_pos hattached, hsolo]
  rfl

theorem act_detach_cases {s1 : State}
    (h : act cfg (m.toState cfg) (Action.detach p) = some s1) :
    m.view p = View.idle ∧ 0 < mappings cfg m.kernel p ∧
      s1 = (m.detached cfg p).toState cfg := by
  cases hview : m.view p with
  | idle =>
      by_cases hattached : Attached cfg (m.toState cfg).kernel p = true
      · have hmapped : 0 < mappings cfg m.kernel p :=
          attached_iff_mappings.mp hattached
        rw [act_detach_of_idle hview hmapped] at h
        injection h with h
        exact ⟨rfl, hmapped, h.symm⟩
      · simp only [act, toState_status hview, View.status] at h
        rw [if_neg hattached] at h
        cases h
  | _ => simp [act, toState_status hview, View.status] at h

theorem lockInv_detached (h : LockInv cfg m)
    (hmapped : 0 < mappings cfg m.kernel p) :
    LockInv cfg (m.detached cfg p) := by
  rcases shmdt_mapped hmapped with ⟨seg, hseg, hdetach⟩
  intro set hset
  change (m.kernel.shmdt p cfg.shmemId).2.sets cfg.semId = some set at hset
  rw [hdetach] at hset
  rcases h set hset with ⟨owner, halive⟩
  refine ⟨owner, ?_, halive.low, halive.high, halive.adjCount,
    halive.adjFlag, halive.flag, halive.owner, halive.locked, halive.facts⟩
  intro q herr
  change (m.kernel.shmdt p cfg.shmemId).2.errno q = Errno.eidrm at herr
  rw [hdetach] at herr
  exact halive.errno q herr

theorem Follows.detach (h : Follows cfg m m') (hview : m.view p = View.idle)
    (hmapped : 0 < mappings cfg m.kernel p) :
    0 < mappings cfg m'.kernel p ∧
      Follows cfg (m.detached cfg p) (m'.detached cfg p) := by
  have hmapped' : 0 < mappings cfg m'.kernel p := by
    rw [h.mapped p (by rw [hview]; rfl)]
    exact hmapped
  refine ⟨hmapped', sameStack_shmdt h.same hmapped hmapped', ?_, h.view,
    h.returned, h.goesOn, ?_⟩
  · intro q hq
    have hold := h.mapped q hq
    change mappings cfg (m'.kernel.shmdt p cfg.shmemId).2 q =
      mappings cfg (m.kernel.shmdt p cfg.shmemId).2 q
    rw [mappings_shmdt hmapped, mappings_shmdt hmapped', hold]
  · intro q timeoutFlag point hq
    have hne : q ≠ p := by
      intro heq
      rw [heq] at hq
      change m.view p = _ at hq
      rw [hview] at hq
      cases hq
    rcases h.destroyer q timeoutFlag point hq with ⟨hmap, hfailed⟩
    change 0 < mappings cfg (m.kernel.shmdt p cfg.shmemId).2 q ∧
      (_ -> (m.kernel.shmdt p cfg.shmemId).2.sets cfg.semId = none)
    rw [mappings_shmdt hmapped, if_neg hne]
    refine ⟨hmap, fun haborted => ?_⟩
    rcases shmdt_mapped hmapped with ⟨seg, hseg, hdetach⟩
    rw [hdetach]
    exact hfailed haborted

end Follows

/-!
## Whole runs
-/

section Runs

variable {cfg : Config} {m m' : Machine} {s0 s : State}
  {actions : List Action}

/-- The run without removal goes along with the run. -/
theorem follows_run (h : Follows cfg m m') (hlock : LockInv cfg m)
    (hlock' : LockInv cfg m')
    (hguard : AllSteps (act cfg) (BeforeRemoval cfg) (m.toState cfg) actions)
    (hrun : run (act cfg) (m.toState cfg) actions = some s) :
    exists m1 m1',
      s = m1.toState cfg ∧
        run (act cfg) (m'.toState cfg)
          (withoutRemoval cfg (m.toState cfg) actions) =
            some (m1'.toState cfg) ∧
        Follows cfg m1 m1' := by
  induction actions generalizing m m' with
  | nil =>
      cases hrun
      exact ⟨m, m', rfl, rfl, h⟩
  | cons a rest ih =>
      rcases run_cons_eq_some hrun with ⟨s1, hact, hrest⟩
      have hguard1 := hguard.right s1 hact
      simp only [withoutRemoval, hact]
      cases a with
      | call l =>
          rcases mirrors_step h hlock hlock' hguard.left hact with
            ⟨m1, hs1, hpoint, hmirrors⟩
          subst hs1
          have hlock1 := lockInv_step hlock hpoint
          unfold Mirrors at hmirrors
          split at hmirrors
          · rename_i hdestroys
            rw [if_pos hdestroys]
            exact ih hmirrors hlock1 hlock' hguard1 hrest
          · rename_i hdestroys
            rw [if_neg hdestroys]
            rcases hmirrors with ⟨m1', hpoint', hstep', hfollows⟩
            rw [run_cons_of_step _
              (show act cfg (m'.toState cfg) (Action.call l) = _ from hstep')]
            exact ih hfollows hlock1 (lockInv_step hlock' hpoint') hguard1
              hrest
      | detach p =>
          rcases act_detach_cases hact with ⟨hview, hmapped, hs1⟩
          subst hs1
          rcases h.detach hview hmapped with ⟨hmapped', hfollows⟩
          rw [if_neg (by simp [Destroys]),
            run_cons_of_step _ (act_detach_of_idle (h.idle hview) hmapped')]
          exact ih hfollows (lockInv_detached hlock hmapped)
            (lockInv_detached hlock' hmapped') hguard1 hrest

/-- Whoever calls `mark_destruct` at whatever moment: as long as no push or
pop takes FLAG or reads COUNT after the removal, the finished pushes and pops
return what they return without the removal. -/
theorem removal_deferred (hfresh : Fresh cfg s0)
    (hguard : AllSteps (act cfg) (BeforeRemoval cfg) s0 actions)
    (hrun : run (act cfg) s0 actions = some s) :
    exists s',
      run (act cfg) s0 (withoutRemoval cfg s0 actions) = some s' ∧
        forall p, s'.returned p = requests (s.returned p) := by
  rcases fresh_machine hfresh with ⟨m, hs0, hidle, hreturned⟩
  subst hs0
  have hlock := lockInv_fresh hfresh hidle
  rcases follows_run (Follows.fresh hfresh hidle hreturned) hlock hlock hguard
    hrun with ⟨m1, m1', hs, hrun', hfollows⟩
  subst hs
  exact ⟨m1'.toState cfg, hrun', hfollows.returned⟩

end Runs

/-!
## Two pushes around a removal
-/

def pushSteps (p : Pid) (steps : Nat) : List Action :=
  Action.call (Label.begin p 0 (Call.request (Request.push 7))) ::
    List.replicate steps (Action.call (Label.atom p Removed.einval))

def removal (p : Pid) : List Action :=
  [Action.call (Label.begin p 0 Call.markDestruct),
    Action.call (Label.atom p Removed.einval),
    Action.call (Label.atom p Removed.einval), Action.call (Label.finish p)]

def removedBeforeWrite : List Action :=
  pushSteps 1 3 ++ removal 2 ++
    List.replicate 3 (Action.call (Label.atom 1 Removed.einval)) ++
    [Action.call (Label.finish 1), Action.detach 1, Action.detach 2]

instance : (op : Op) -> Decidable (Decides op)
  | Op.semop _ semNum semOp _ =>
      inferInstanceAs (Decidable (semNum = SEM_FLAG ∧ semOp < 0))
  | Op.getval _ _ => isTrue trivial
  | Op.shmget _ _ _ => isFalse id
  | Op.shmat _ => isFalse id
  | Op.shmdt _ => isFalse id
  | Op.shmRmid _ => isFalse id
  | Op.semget _ _ _ => isFalse id
  | Op.semRmid _ => isFalse id
  | Op.store _ _ _ => isFalse id
  | Op.load _ _ => isFalse id

instance (cfg : Config) (s : State) (a : Action) :
    Decidable (BeforeRemoval cfg s a) := by
  unfold BeforeRemoval
  split
  · split <;> infer_instance
  · infer_instance

theorem removal_deferred_before_write :
    exists s s',
      run (act eightSlots) (newStack [1, 2]) removedBeforeWrite = some s ∧
        s.returned 1 =
          [(Call.request (Request.push 7), { ret := 0, out := none })] ∧
        run (act eightSlots) (newStack [1, 2])
          (withoutRemoval eightSlots (newStack [1, 2]) removedBeforeWrite) =
            some s' ∧
        forall p, s'.returned p = requests (s.returned p) := by
  have hrun : exists s,
      run (act eightSlots) (newStack [1, 2]) removedBeforeWrite = some s ∧
        s.returned 1 =
          [(Call.request (Request.push 7), { ret := 0, out := none })] :=
    ⟨_, rfl, rfl⟩
  rcases hrun with ⟨s, hrun, hreturned⟩
  have hguard : AllSteps (act eightSlots) (BeforeRemoval eightSlots)
      (newStack [1, 2]) removedBeforeWrite := by
    decide +kernel
  rcases removal_deferred (newStack_fresh _ _) hguard hrun with
    ⟨s', hrun', hsame⟩
  exact ⟨s, s', hrun, hreturned, hrun', hsame⟩

/-- A push that starts after the removal returns -1; without the removal the
same push returns 0. -/
theorem push_fails_after_removal :
    Fresh eightSlots (newStack [1, 2]) ∧
      (exists s,
        run (act eightSlots) (newStack [1, 2])
            (removal 2 ++ pushSteps 1 1 ++ [Action.call (Label.finish 1)]) =
          some s ∧
        s.returned 1 =
          [(Call.request (Request.push 7), { ret := -1, out := none })]) ∧
      exists s',
        run (act eightSlots) (newStack [1, 2])
            (pushSteps 1 6 ++ [Action.call (Label.finish 1)]) =
          some s' ∧
        s'.returned 1 =
          [(Call.request (Request.push 7), { ret := 0, out := none })] :=
  ⟨newStack_fresh _ _, ⟨_, rfl, rfl⟩, ⟨_, rfl, rfl⟩⟩

end Stack
end UnixPrograms
