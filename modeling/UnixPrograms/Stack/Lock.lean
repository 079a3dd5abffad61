import UnixPrograms.Stack.Simulation
import UnixPrograms.Ipc.Calls

/-!
# FLAG is a lock

While the semaphore set exists, FLAG and its undo adjustments are tied to the
program points of the processes: at most one process is inside, and what it
has read of COUNT is still the value of COUNT.  Death inside is repaired by
the adjustment, so the invariant survives kills at every point.
-/

namespace UnixPrograms
namespace Stack

open Foundation
open Ipc

/-!
## The invariant

While the set exists, FLAG is 0 exactly when one process is inside, between the
taking and the giving back, and that process knows what it has read of COUNT.
Once the set has been removed nothing is claimed, since all calls fail then.
-/

def Point.Facts (size count : Int) : Request -> Point -> Prop
  | Request.push _, Point.slot => count < size
  | Request.pop, Point.slot => 0 < count
  | Request.push _, Point.access index => index = count ∧ count < size
  | Request.pop, Point.access index => index = count ∧ 0 < count
  | Request.push _, Point.commit _ => count < size
  | Request.pop, Point.commit _ => 0 < count
  | _, _ => True

namespace View

def inside : View -> Bool
  | working _ _ point _ => point.inside
  | _ => false

def locked : View -> Bool
  | working _ _ _ locked => locked
  | _ => false

def ending : View -> Bool
  | destroying _ DestructPoint.aborted => true
  | dead _ => true
  | _ => false

def Facts (size count : Int) : View -> Prop
  | working _ request point _ => point.Facts size count request
  | _ => True

theorem facts_of_not_inside {size count : Int} {view : View}
    (h : view.inside = false) : view.Facts size count := by
  cases view with
  | working timeoutFlag request point locked =>
      cases point <;> first
        | trivial
        | (cases request <;> trivial)
  | _ => trivial

end View

/-- The state of an existing set whose FLAG is held by `owner`. -/
structure Alive (cfg : Config) (m : Machine) (set : SemSet)
    (owner : Option Pid) : Prop where
  errno : forall p, m.kernel.errno p = Errno.eidrm ->
    (m.view p).ending = true
  low : 0 ≤ set.val SEM_COUNT
  high : set.val SEM_COUNT ≤ SEMVMX
  adjCount : forall p, set.adj p SEM_COUNT = 0
  adjFlag : forall p,
    set.adj p SEM_FLAG = if owner = some p then 1 else 0
  flag : set.val SEM_FLAG = if owner = none then 1 else 0
  owner : forall p, owner = some p <-> (m.view p).inside = true
  locked : forall p, (m.view p).locked = (m.view p).inside
  facts : forall p,
    (m.view p).Facts (cfg.size p) (set.val SEM_COUNT)

/-- The lock invariant: it says nothing once the set has been removed. -/
def LockInv (cfg : Config) (m : Machine) : Prop :=
  forall set, m.kernel.sets cfg.semId = some set ->
    exists owner, Alive cfg m set owner

theorem Alive.update {cfg : Config} {m : Machine} {set set' : SemSet}
    {owner owner' : Option Pid} {p : Pid} {view : View} {kernel : Kernel}
    {returned : Pid -> List (Call × Outcome)}
    (h : Alive cfg m set owner)
    (herrno : forall q, q ≠ p -> kernel.errno q = m.kernel.errno q)
    (herrnoSelf : kernel.errno p = Errno.eidrm -> view.ending = true)
    (hlow : 0 ≤ set'.val SEM_COUNT) (hhigh : set'.val SEM_COUNT ≤ SEMVMX)
    (hadjCount : forall q, set'.adj q SEM_COUNT = 0)
    (hadjFlag : forall q,
      set'.adj q SEM_FLAG = if owner' = some q then 1 else 0)
    (hflag : set'.val SEM_FLAG = if owner' = none then 1 else 0)
    (howner : forall q, q ≠ p -> (owner' = some q <-> owner = some q))
    (hownerSelf : owner' = some p <-> view.inside = true)
    (hlocked : view.locked = view.inside)
    (hfacts : view.Facts (cfg.size p) (set'.val SEM_COUNT))
    (hothers : set'.val SEM_COUNT = set.val SEM_COUNT ∨ owner = some p) :
    Alive cfg { m.setView p view with kernel := kernel, returned := returned }
      set' owner' where
  errno := by
    intro q hq
    by_cases hqp : q = p
    · subst hqp
      simpa [Machine.setView] using herrnoSelf hq
    · have hold := h.errno q (by rw [← herrno q hqp]; exact hq)
      simpa [Machine.setView, hqp] using hold
  low := hlow
  high := hhigh
  adjCount := hadjCount
  adjFlag := hadjFlag
  flag := hflag
  owner := by
    intro q
    by_cases hqp : q = p
    · subst hqp
      simpa [Machine.setView] using hownerSelf
    · rw [howner q hqp, h.owner q]
      simp [Machine.setView, hqp]
  locked := by
    intro q
    by_cases hqp : q = p
    · subst hqp
      simpa [Machine.setView] using hlocked
    · simpa [Machine.setView, hqp] using h.locked q
  facts := by
    intro q
    by_cases hqp : q = p
    · subst hqp
      simpa [Machine.setView] using hfacts
    · have hgoal : (m.view q).Facts (cfg.size q) (set'.val SEM_COUNT) := by
        cases hothers with
        | inl hcount =>
            rw [hcount]
            exact h.facts q
        | inr hp =>
            -- The lock is held by `p`, so nobody else knows anything.
            apply View.facts_of_not_inside
            cases hin : (m.view q).inside with
            | false => rfl
            | true =>
                have hq := (h.owner q).mpr hin
                rw [hp] at hq
                injection hq with hq
                exact absurd hq.symm hqp
      simpa [Machine.setView, hqp] using hgoal

theorem Alive.updateView {cfg : Config} {m : Machine} {set : SemSet}
    {owner : Option Pid} {p : Pid} {view : View} {kernel : Kernel}
    {returned : Pid -> List (Call × Outcome)}
    (h : Alive cfg m set owner)
    (herrno : forall q, q ≠ p -> kernel.errno q = m.kernel.errno q)
    (herrnoSelf : kernel.errno p = Errno.eidrm -> view.ending = true)
    (hinside : view.inside = (m.view p).inside)
    (hlocked : view.locked = view.inside)
    (hfacts : view.Facts (cfg.size p) (set.val SEM_COUNT)) :
    Alive cfg { m.setView p view with kernel := kernel, returned := returned }
      set owner :=
  h.update herrno herrnoSelf h.low h.high h.adjCount h.adjFlag h.flag
    (fun _ _ => Iff.rfl) (by rw [hinside]; exact h.owner p) hlocked hfacts
    (Or.inl rfl)

theorem Alive.updateFlag {cfg : Config} {m : Machine} {set : SemSet}
    {owner owner' : Option Pid} {p : Pid} {view : View} {semOp : Int}
    (h : Alive cfg m set owner)
    (herr : m.kernel.errno p ≠ Errno.eidrm)
    (howner : forall q, q ≠ p -> (owner' = some q <-> owner = some q))
    (hval : set.val SEM_FLAG + semOp = if owner' = none then 1 else 0)
    (hadj : set.adj p SEM_FLAG - semOp = if owner' = some p then 1 else 0)
    (hself : owner' = some p <-> view.inside = true)
    (hlocked : view.locked = view.inside)
    (hfacts : view.Facts (cfg.size p) (set.val SEM_COUNT)) :
    Alive cfg
      { m.setView p view with
        kernel := m.kernel.setSem cfg.semId
          (some (set.apply p SEM_FLAG semOp true)) }
      (set.apply p SEM_FLAG semOp true) owner' := by
  have hcount : (set.apply p SEM_FLAG semOp true).val SEM_COUNT =
      set.val SEM_COUNT :=
    SemSet.apply_val_of_ne _ _ _ _ flag_ne_count.symm
  refine h.update ?_ ?_ ?_ ?_ ?_ ?_ ?_ howner hself hlocked ?_ (Or.inl hcount)
  · intro q _
    rfl
  · intro hbad
    exact absurd hbad herr
  · rw [hcount]
    exact h.low
  · rw [hcount]
    exact h.high
  · intro q
    rw [SemSet.apply_adj_of_ne_num _ _ _ _ _ flag_ne_count.symm]
    exact h.adjCount q
  · intro q
    by_cases hq : q = p
    · rw [hq, SemSet.apply_adj_self]
      exact hadj
    · rw [SemSet.apply_adj_of_ne_pid _ _ _ _ _ hq, h.adjFlag q]
      simp only [howner q hq]
  · rw [SemSet.apply_val_self]
    exact hval
  · rw [hcount]
    exact hfacts

/-!
## Steps of push and pop

A step either leaves the set alone, moves FLAG, or changes COUNT under the lock.
Each of the three re-establishes the invariant from the view of the process that
has moved.
-/

section Steps

variable {cfg : Config} {m : Machine} {p : Pid} {removed : Removed}
  {timeoutFlag : Int} {request : Request} {point : Point} {locked : Bool}
  {kernel : Kernel} {answer : Answer}

theorem Alive.owner_of_inside {set : SemSet} {owner : Option Pid}
    (h : Alive cfg m set owner)
    (hview : m.view p = View.working timeoutFlag request point locked)
    (hinside : point.inside = true) :
    owner = some p ∧ set.val SEM_FLAG = 0 := by
  have howner : owner = some p := by
    apply (h.owner p).mpr
    rw [hview]
    exact hinside
  refine ⟨howner, ?_⟩
  rw [h.flag, howner]
  rfl

theorem Alive.errno_of_working {set : SemSet} {owner : Option Pid}
    (h : Alive cfg m set owner)
    (hview : m.view p = View.working timeoutFlag request point locked) :
    m.kernel.errno p ≠ Errno.eidrm := by
  intro herr
  have hending := h.errno p herr
  rw [hview] at hending
  cases hending

theorem Alive.locked_of_working {set : SemSet} {owner : Option Pid}
    (h : Alive cfg m set owner)
    (hview : m.view p = View.working timeoutFlag request point locked) :
    locked = point.inside := by
  have hlocked := h.locked p
  rw [hview] at hlocked
  exact hlocked

theorem lockInv_gone {view : View} {e : Errno}
    (hgone : m.kernel.sets cfg.semId = none) :
    LockInv cfg
      { m.setView p view with kernel := (m.kernel.fail p e).2 } := by
  intro set hset
  rw [Kernel.fail_sets, hgone] at hset
  cases hset

theorem lockInv_refused {view : View} {e : Errno} (h : LockInv cfg m)
    (herr : e ≠ Errno.eidrm) (hinside : view.inside = (m.view p).inside)
    (hlocked : view.locked = (m.view p).locked)
    (hfacts : forall count, view.Facts (cfg.size p) count) :
    LockInv cfg
      { m.setView p view with kernel := (m.kernel.fail p e).2 } := by
  intro set hset
  rw [Kernel.fail_sets] at hset
  rcases h set hset with ⟨owner, halive⟩
  have hconsistent : view.locked = view.inside :=
    hlocked.trans ((halive.locked p).trans hinside.symm)
  refine ⟨owner,
    halive.updateView ?_ ?_ hinside hconsistent (hfacts (set.val SEM_COUNT))⟩
  · intro q hq
    exact Kernel.fail_errno_of_ne _ _ hq
  · intro hbad
    rw [Kernel.fail_errno_self] at hbad
    exact absurd hbad herr

theorem lockInv_acquire (h : LockInv cfg m)
    (hview : m.view p =
      View.working timeoutFlag request Point.acquire locked)
    (hop : m.kernel.semop removed p cfg.semId SEM_FLAG (-1)
      (flagFlags timeoutFlag) = some (answer, kernel)) :
    LockInv cfg
      { m.setView p
          (View.working timeoutFlag request
            (if answer.ret = 0 then Point.check
              else Point.done { ret := answer.ret, out := none })
            (if answer.ret = 0 then true else locked)) with
        kernel := kernel } := by
  cases semop_result hop with
  | gone hgone => exact lockInv_gone hgone
  | refused set e hset herr _ =>
      apply lockInv_refused h herr
      · rw [hview]
        rfl
      · rw [hview]
        rfl
      · intro count
        cases request <;> trivial
  | applied set hset hlow _ =>
      rcases h set hset with ⟨owner, halive⟩
      intro set' hset'
      rw [Kernel.setSem_sets_self] at hset'
      injection hset' with hset'
      subst hset'
      have hfree : owner = none := by
        cases hown : owner with
        | none => rfl
        | some q =>
            have hflag := halive.flag
            rw [hown, if_neg (by simp)] at hflag
            lia
      have hflag : set.val SEM_FLAG = 1 := by
        rw [halive.flag, hfree]
        rfl
      have hadj := halive.adjFlag p
      rw [hfree, if_neg (by simp)] at hadj
      refine ⟨some p, halive.updateFlag ?_ ?_ ?_ ?_ ?_ ?_ ?_⟩
      · exact halive.errno_of_working hview
      · intro q hq
        simp [hfree, Ne.symm hq]
      · rw [hflag]
        rfl
      · rw [hadj, if_pos rfl]
        rfl
      · exact iff_of_true rfl rfl
      · rfl
      · cases request <;> trivial

theorem lockInv_release {outcome : Outcome} (h : LockInv cfg m)
    (hview : m.view p = View.working timeoutFlag request point locked)
    (hinside : point.inside = true)
    (hop : m.kernel.semop removed p cfg.semId SEM_FLAG 1
      (flagFlags timeoutFlag) = some (answer, kernel)) :
    LockInv cfg
      { m.setView p
          (View.working timeoutFlag request (Point.done outcome)
            (if answer.ret = 0 then false else locked)) with
        kernel := kernel } := by
  cases semop_result hop with
  | gone hgone => exact lockInv_gone hgone
  | refused set e hset _ hrange =>
      rcases h set hset with ⟨owner, halive⟩
      have hflag := (halive.owner_of_inside hview hinside).right
      rw [hflag] at hrange
      unfold SEMVMX at hrange
      lia
  | applied set hset _ _ =>
      rcases h set hset with ⟨owner, halive⟩
      rcases halive.owner_of_inside hview hinside with ⟨howner, hflag⟩
      intro set' hset'
      rw [Kernel.setSem_sets_self] at hset'
      injection hset' with hset'
      subst hset'
      have hadj := halive.adjFlag p
      rw [howner, if_pos rfl] at hadj
      refine ⟨none, halive.updateFlag ?_ ?_ ?_ ?_ ?_ ?_ ?_⟩
      · exact halive.errno_of_working hview
      · intro q hq
        simp [howner, Ne.symm hq]
      · rw [hflag]
        rfl
      · rw [hadj]
        rfl
      · exact iff_of_false nofun nofun
      · rfl
      · cases request <;> trivial

theorem lockInv_getval {point' : Point} (h : LockInv cfg m)
    (hview : m.view p = View.working timeoutFlag request point locked)
    (hinside : point.inside = true)
    (hop : m.kernel.getval removed p cfg.semId SEM_COUNT = (answer, kernel))
    (hnext : forall set owner, Alive cfg m set owner ->
      answer.errno ≠ Errno.eidrm -> answer.ret = set.val SEM_COUNT ->
      point'.inside = true ∧
        point'.Facts (cfg.size p) (set.val SEM_COUNT) request) :
    LockInv cfg
      { m.setView p (View.working timeoutFlag request point' locked) with
        kernel := kernel } := by
  cases hset : m.kernel.sets cfg.semId with
  | none =>
      rw [getval_none removed p SEM_COUNT hset] at hop
      have hk : kernel = (m.kernel.fail p removed.errno).2 :=
        (congrArg Prod.snd hop).symm
      rw [hk]
      exact lockInv_gone hset
  | some set =>
      rw [getval_some removed p SEM_COUNT hset] at hop
      injection hop with hanswer hk
      subst hanswer
      subst hk
      intro set' hset'
      change m.kernel.sets cfg.semId = some set' at hset'
      rw [hset] at hset'
      injection hset' with hset'
      subst hset'
      rcases h set hset with ⟨owner, halive⟩
      have herr := halive.errno_of_working hview
      rcases hnext set owner halive herr rfl with ⟨hin', hfacts⟩
      refine ⟨owner, halive.updateView (fun _ _ => rfl) ?_ ?_ ?_ hfacts⟩
      · intro hbad
        exact absurd hbad herr
      · rw [hview]
        exact hin'.trans hinside.symm
      · have hlocked := halive.locked_of_working hview
        exact hlocked.trans (hinside.trans hin'.symm)

theorem lockInv_commit {out : Option Ptr} (h : LockInv cfg m)
    (hview : m.view p =
      View.working timeoutFlag request (Point.commit out) locked)
    (hop : m.kernel.semop removed p cfg.semId SEM_COUNT request.delta
      countFlags = some (answer, kernel)) :
    LockInv cfg
      { m.setView p
          (View.working timeoutFlag request (Point.release out) locked) with
        kernel := kernel } := by
  cases semop_result hop with
  | gone hgone => exact lockInv_gone hgone
  | refused set e hset herr _ =>
      apply lockInv_refused h herr
      · rw [hview]
        rfl
      · rw [hview]
        rfl
      · intro count
        cases request <;> trivial
  | applied set hset hlow hhigh =>
      rcases h set hset with ⟨owner, halive⟩
      have howner := (halive.owner_of_inside hview rfl).left
      intro set' hset'
      rw [Kernel.setSem_sets_self] at hset'
      injection hset' with hset'
      subst hset'
      refine ⟨owner, halive.update ?_ ?_ ?_ ?_ ?_ ?_ ?_ ?_ ?_ ?_ ?_ ?_⟩
      · intro q _
        rfl
      · intro hbad
        exact absurd hbad (halive.errno_of_working hview)
      · rw [SemSet.apply_val_self]
        exact hlow
      · rw [SemSet.apply_val_self]
        exact hhigh
      · exact halive.adjCount
      · exact halive.adjFlag
      · rw [SemSet.apply_val_of_ne _ _ _ _ flag_ne_count]
        exact halive.flag
      · intro q _
        exact Iff.rfl
      · simp [howner, View.inside, Point.inside]
      · exact halive.locked_of_working hview
      · cases request <;> trivial
      · exact Or.inr howner

theorem lockInv_access {index : Int} {out : Option Ptr} (h : LockInv cfg m)
    (hview : m.view p =
      View.working timeoutFlag request (Point.access index) locked)
    (hsets : kernel.sets = m.kernel.sets)
    (herrno : kernel.errno = m.kernel.errno) :
    LockInv cfg
      { m.setView p
          (View.working timeoutFlag request (Point.commit out) locked) with
        kernel := kernel } := by
  intro set hset
  change kernel.sets cfg.semId = some set at hset
  rw [hsets] at hset
  rcases h set hset with ⟨owner, halive⟩
  refine ⟨owner, halive.updateView ?_ ?_ ?_ ?_ ?_⟩
  · intro q _
    rw [herrno]
  · intro hbad
    rw [herrno] at hbad
    exact absurd hbad (halive.errno_of_working hview)
  · rw [hview]
    rfl
  · exact halive.locked_of_working hview
  · have hfacts := halive.facts p
    rw [hview] at hfacts
    cases request with
    | push val => exact hfacts.right
    | pop => exact hfacts.right

theorem lockInv_advance {point' : Point} {locked' : Bool} (h : LockInv cfg m)
    (hview : m.view p = View.working timeoutFlag request point locked)
    (hadvance : Advance removed p timeoutFlag (cfg.handle p) request point
      locked m.kernel point' locked' kernel) :
    LockInv cfg
      { m.setView p (View.working timeoutFlag request point' locked') with
        kernel := kernel } := by
  cases hadvance with
  | acquire hop => exact lockInv_acquire h hview hop
  | check hop =>
      refine lockInv_getval h hview rfl hop ?_
      intro set owner halive herr hret
      rw [if_neg herr]
      cases href : request.refuses (cfg.handle p).size _ with
      | true =>
          rw [if_pos rfl]
          exact ⟨rfl, by cases request <;> trivial⟩
      | false =>
          rw [if_neg (by decide)]
          refine ⟨rfl, ?_⟩
          rw [hret] at href
          have hlow := halive.low
          cases request with
          | push val =>
              have hlt : set.val SEM_COUNT < (cfg.handle p).size := by
                simpa [Request.refuses] using href
              exact hlt
          | pop =>
              have hne : set.val SEM_COUNT ≠ 0 := by
                simpa [Request.refuses] using href
              change 0 < set.val SEM_COUNT
              lia
  | failRelease hop => exact lockInv_release h hview rfl hop
  | slot hop =>
      refine lockInv_getval h hview rfl hop ?_
      intro set owner halive herr hret
      rw [if_neg herr]
      have hfacts := halive.facts p
      rw [hview] at hfacts
      cases request with
      | push val => exact ⟨rfl, hret, hfacts⟩
      | pop => exact ⟨rfl, hret, hfacts⟩
  | write hseg => exact lockInv_access h hview rfl rfl
  | read hseg => exact lockInv_access h hview rfl rfl
  | commit hop => exact lockInv_commit h hview hop
  | release hop => exact lockInv_release h hview rfl hop

end Steps

/-!
## The other steps
-/

section OtherSteps

variable {cfg : Config} {m : Machine} {p : Pid}

theorem lockInv_outside {view : View} {kernel : Kernel}
    {returned : Pid -> List (Call × Outcome)} (h : LockInv cfg m)
    (hout : (m.view p).inside = false) (hin : view.inside = false)
    (hlocked : view.locked = false)
    (hsets : kernel.sets cfg.semId = m.kernel.sets cfg.semId)
    (herrno : forall q, q ≠ p -> kernel.errno q = m.kernel.errno q)
    (herrnoSelf : (m.kernel.errno p = Errno.eidrm ->
        (m.view p).ending = true) ->
      kernel.errno p = Errno.eidrm -> view.ending = true) :
    LockInv cfg
      { m.setView p view with kernel := kernel, returned := returned } := by
  intro set hset
  change kernel.sets cfg.semId = some set at hset
  rw [hsets] at hset
  rcases h set hset with ⟨owner, halive⟩
  exact ⟨owner, halive.updateView herrno (herrnoSelf (halive.errno p))
    (by rw [hin, hout]) (by rw [hlocked, hin])
    (View.facts_of_not_inside hin)⟩

theorem lockInv_turn {view : View} {returned : Pid -> List (Call × Outcome)}
    (h : LockInv cfg m) (hout : (m.view p).inside = false)
    (hgoes : (m.view p).ending = false) (hin : view.inside = false)
    (hlocked : view.locked = false) :
    LockInv cfg
      { m.setView p view with kernel := m.kernel, returned := returned } := by
  apply lockInv_outside h hout hin hlocked rfl (fun _ _ => rfl)
  intro hending herr
  have hbad := hending herr
  rw [hgoes] at hbad
  cases hbad

theorem lockInv_dismantle {removed : Removed} {timeoutFlag : Int}
    {point point' : DestructPoint} {kernel : Kernel} (h : LockInv cfg m)
    (hview : m.view p = View.destroying timeoutFlag point)
    (hdismantle : Dismantle removed p (cfg.handle p) point m.kernel point'
      kernel) :
    LockInv cfg
      { m.setView p (View.destroying timeoutFlag point') with
        kernel := kernel } := by
  have hout : (m.view p).inside = false := by
    rw [hview]
    rfl
  cases hdismantle with
  | segment hop =>
      unfold Kernel.shmRmid at hop
      cases hseg : m.kernel.segs (cfg.handle p).shmemId with
      | none =>
          simp only [hseg] at hop
          cases hop
          refine lockInv_outside h hout rfl rfl rfl ?_ ?_
          · intro q hq
            exact Kernel.fail_errno_of_ne _ _ hq
          · intro _ _
            rfl
      | some seg =>
          simp only [hseg] at hop
          cases hop
          refine lockInv_outside h hout rfl rfl rfl (fun _ _ => rfl) ?_
          intro hending herr
          have hbad := hending herr
          rw [hview] at hbad
          cases hbad
  | set hop =>
      unfold Kernel.semRmid at hop
      cases hset : m.kernel.sets cfg.semId with
      | none =>
          simp only [Config.handle, hset] at hop
          have hk : kernel = (m.kernel.fail p removed.errno).2 :=
            (congrArg Prod.snd hop).symm
          rw [hk]
          exact lockInv_gone hset
      | some set =>
          simp only [Config.handle, hset] at hop
          cases hop
          intro set' hset'
          change (m.kernel.setSem cfg.semId none).sets cfg.semId =
            some set' at hset'
          rw [Kernel.setSem_sets_self] at hset'
          cases hset'

theorem lockInv_die {call : Option Call} (h : LockInv cfg m) :
    LockInv cfg
      { m.setView p (View.dead call) with kernel := m.kernel.exit p } := by
  intro set' hset'
  change (m.kernel.exit p).sets cfg.semId = some set' at hset'
  rw [Kernel.exit_sets] at hset'
  rcases Option.map_eq_some_iff.mp hset' with ⟨set, hset, hundo⟩
  subst hundo
  rcases h set hset with ⟨owner, halive⟩
  have hcount : (set.undo p).val SEM_COUNT = set.val SEM_COUNT := by
    rw [SemSet.undo_val, halive.adjCount p]
    have hlow := halive.low
    have hhigh := halive.high
    lia
  have hadjCount : forall q, (set.undo p).adj q SEM_COUNT = 0 := by
    intro q
    by_cases hq : q = p
    · subst hq
      exact SemSet.undo_adj_self set q SEM_COUNT
    · rw [SemSet.undo_adj_of_ne set SEM_COUNT hq]
      exact halive.adjCount q
  have hflag := halive.flag
  have hadj := halive.adjFlag p
  refine ⟨if owner = some p then none else owner,
    halive.update (fun _ _ => rfl) (fun _ => rfl) ?_ ?_ hadjCount ?_ ?_ ?_ ?_
      rfl trivial (Or.inl hcount)⟩
  · rw [hcount]
    exact halive.low
  · rw [hcount]
    exact halive.high
  · intro q
    by_cases hq : q = p
    · subst hq
      rw [SemSet.undo_adj_self]
      by_cases howner : owner = some q
      · simp [howner]
      · simp [howner]
    · rw [SemSet.undo_adj_of_ne set SEM_FLAG hq, halive.adjFlag q]
      by_cases howner : owner = some p
      · simp [howner, Ne.symm hq]
      · simp [howner]
  · rw [SemSet.undo_val, hadj, hflag]
    unfold SEMVMX
    by_cases howner : owner = some p
    · rw [howner, if_pos rfl, if_pos rfl]
      rfl
    · rw [if_neg howner, if_neg howner]
      by_cases hnone : owner = none
      · rw [hnone]
        rfl
      · rw [if_neg hnone]
        rfl
  · intro q hq
    by_cases howner : owner = some p
    · simp [howner, Ne.symm hq]
    · simp [howner]
  · by_cases howner : owner = some p
    · simp [howner, View.inside]
    · simp [howner, View.inside]

theorem lockInv_step {l : Label} {m' : Machine} (h : LockInv cfg m)
    (hstep : PointStep cfg m l m') : LockInv cfg m' := by
  cases hstep with
  | beginRequest hview hatt =>
      rename_i p timeoutFlag request
      have hstart : (startPoint timeoutFlag).inside = false := by
        unfold startPoint
        by_cases hwait : ValidWait timeoutFlag
        · rw [if_pos hwait]
          rfl
        · rw [if_neg hwait]
          rfl
      exact lockInv_turn h (by rw [hview]; rfl) (by rw [hview]; rfl) hstart rfl
  | beginDestruct hview hatt =>
      exact lockInv_turn h (by rw [hview]; rfl) (by rw [hview]; rfl) rfl rfl
  | advance hview hadvance => exact lockInv_advance h hview hadvance
  | dismantle hview hdismantle => exact lockInv_dismantle h hview hdismantle
  | die _ _ => exact lockInv_die h
  | finishRequest hview =>
      exact lockInv_turn h (by rw [hview]; rfl) (by rw [hview]; rfl) rfl rfl
  | finishDestruct hview =>
      exact lockInv_turn h (by rw [hview]; rfl) (by rw [hview]; rfl) rfl rfl

end OtherSteps

theorem lockInv_fresh {cfg : Config} {m : Machine}
    (hfresh : Fresh cfg (m.toState cfg))
    (hidle : forall p, m.view p = View.idle) : LockInv cfg m := by
  intro set hset
  rcases hfresh.set with ⟨set', hset', hcount, hflag, hadj⟩
  have hsame : set' = set := by
    have heq : some set' = some set := hset'.symm.trans hset
    injection heq
  subst hsame
  refine ⟨none, ?_, ?_, ?_, ?_, ?_, ?_, ?_, ?_, ?_⟩
  · intro p hp
    exact absurd hp (hfresh.errno p)
  · lia
  · rw [hcount]
    decide
  · intro p
    exact hadj p SEM_COUNT
  · intro p
    rw [hadj p SEM_FLAG]
    simp
  · rw [hflag]
    rfl
  · intro p
    rw [hidle p]
    simp [View.inside]
  · intro p
    rw [hidle p]
    rfl
  · intro p
    rw [hidle p]
    trivial

end Stack
end UnixPrograms
