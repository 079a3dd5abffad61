import UnixPrograms.Stack.Lock
import UnixPrograms.Foundation.Lifo

/-!
# The shared stack is linearizable

The order of the operations is the order in which they change COUNT.  It is
extended at that step and never rearranged, so the content of the segment
below COUNT is always the replay of the order.  A push that changes COUNT past
the ceiling of a semaphore would return 0 without a place in the order; the
run condition excludes exactly that step.
-/

namespace UnixPrograms
namespace Stack

open Foundation
open Ipc

/-!
## What a state promises

The promise about a state is that one global order of the operations explains
the content of the segment and contains each process's finished calls in their
order.  A killed call may be in it or not, but not in part.
-/

def content (memory : Int -> Ptr) : Nat -> List Ptr
  | 0 => []
  | n + 1 => memory n :: content memory n

/-- The operation that a finished call stands for; a call that failed stands
for none. -/
def effect : Call × Outcome -> Option (LifoOp Ptr)
  | (Call.request (Request.push val), outcome) =>
      if outcome.ret = 0 then some (LifoOp.push val) else none
  | (Call.request Request.pop, outcome) =>
      if outcome.ret = 0 then outcome.out.map LifoOp.pop else none
  | (Call.markDestruct, _) => none

def Status.pending : Status -> List (LifoOp Ptr)
  | Status.running _ call (Program.ret outcome) _ =>
      (effect (call, outcome)).toList
  | _ => []

/-- The operations of the calls of `p` that returned 0 or have only their
return left, in the order of the calls. -/
def State.settled (s : State) (p : Pid) : List (LifoOp Ptr) :=
  (s.returned p).filterMap effect ++ Status.pending (s.status p)

def Performs : Option Call -> LifoOp Ptr -> Prop
  | some (Call.request (Request.push val)), op => op = LifoOp.push val
  | some (Call.request Request.pop), op => exists val, op = LifoOp.pop val
  | _, _ => False

/-- One global order explains the content of the segment: it has each
process's settled operations in their order, and a killed call wholly or not
at all. -/
def LifoOrder (cfg : Config) (s : State) : Prop :=
  exists seg set, exists order : List (Pid × LifoOp Ptr),
    s.kernel.segs cfg.shmemId = some seg ∧
      s.kernel.sets cfg.semId = some set ∧
      0 ≤ set.val SEM_COUNT ∧
      Lifo.replay [] (order.map Prod.snd) =
        some (content seg.memory (set.val SEM_COUNT).toNat) ∧
      forall p,
        projection p order = s.settled p ∨
          exists call op, s.status p = Status.dead call ∧ Performs call op ∧
            projection p order = s.settled p ++ [op]

/-- FLAG plus the number of processes between acquire and release is 1. -/
def FlagBalanced (cfg : Config) (s : State) : Prop :=
  exists set, exists holders : List Pid,
    s.kernel.sets cfg.semId = some set ∧ holders.Nodup ∧
      (forall p, p ∈ holders <-> (s.status p).locked = true) ∧
      set.val SEM_FLAG + holders.length = 1

def FlagFree (cfg : Config) (s : State) : Prop :=
  exists set, s.kernel.sets cfg.semId = some set ∧ set.val SEM_FLAG = 1

def Touches (cfg : Config) (s s' : State) : Prop :=
  (s'.kernel.segs cfg.shmemId).map Segment.memory ≠
      (s.kernel.segs cfg.shmemId).map Segment.memory ∨
    (s'.kernel.sets cfg.semId).map (fun set => set.val SEM_COUNT) ≠
      (s.kernel.sets cfg.semId).map (fun set => set.val SEM_COUNT)

/-- A call that has changed the memory or COUNT does not return -1: whatever
happens after such a step, if the call comes to its return, it returns 0. -/
def FailuresAreSilent (cfg : Config) (s : State) : Prop :=
  forall p removed s' labels t timeoutFlag call outcome locked,
    step cfg s (Label.atom p removed) = some s' -> Touches cfg s s' ->
    run (step cfg) s' labels = some t -> Label.finish p ∉ labels ->
    t.status p =
      Status.running timeoutFlag call (Program.ret outcome) locked ->
    outcome.ret = 0

/-!
## The condition on the steps of a run
-/

def NoDestruct : Label -> Prop
  | Label.begin _ _ Call.markDestruct => False
  | _ => True

/-- No push is about to raise COUNT above the ceiling of a semaphore. -/
def BelowCeiling (cfg : Config) (s : State) : Label -> Prop
  | Label.atom p _ =>
      forall timeoutFlag call code locked set,
        s.status p = Status.running timeoutFlag call code locked ->
        code.nextOp =
          some (Op.semop cfg.semId SEM_COUNT 1 countFlags) ->
        s.kernel.sets cfg.semId = some set -> set.val SEM_COUNT < SEMVMX
  | _ => True

def StackSteps (cfg : Config) (s : State) (l : Label) : Prop :=
  NoDestruct l ∧ BelowCeiling cfg s l

/-!
## The invariant of the point machine

The order is extended by the step that changes COUNT.  The running calls behind
this step are in the order already, and no other running call is.
-/

namespace View

/-- A running call past its change of COUNT has an operation in the order. -/
def recorded : View -> List (LifoOp Ptr)
  | working _ request (Point.release out) _ =>
      (effect (Call.request request, { ret := 0, out := out })).toList
  | working _ request (Point.done outcome) _ =>
      (effect (Call.request request, outcome)).toList
  | _ => []

def Agrees (returned : List (Call × Outcome)) (share : List (LifoOp Ptr)) :
    View -> Prop
  | dead call =>
      share = returned.filterMap effect ∨
        exists op, Performs call op ∧
          share = returned.filterMap effect ++ [op]
  | view => share = returned.filterMap effect ++ view.recorded

def SlotReady (memory : Int -> Ptr) (count : Int) : View -> Prop
  | working _ (Request.push val) (Point.commit _) _ => memory count = val
  | working _ Request.pop (Point.commit out) _ =>
      out = some (memory (count - 1))
  | _ => True

def Destroying : View -> Prop
  | destroying _ _ => True
  | _ => False

theorem slotReady_of_not_inside (memory : Int -> Ptr) (count : Int)
    {view : View} (h : view.inside = false) : view.SlotReady memory count := by
  cases view with
  | working timeoutFlag request point locked =>
      cases request <;> cases point <;> trivial
  | _ => trivial

end View

structure Linear (cfg : Config) (m : Machine) (seg : Segment) (set : SemSet)
    (order : List (Pid × LifoOp Ptr)) : Prop where
  hasSegment : m.kernel.segs cfg.shmemId = some seg
  unmarked : seg.marked = false
  hasSet : m.kernel.sets cfg.semId = some set
  replay : Lifo.replay [] (order.map Prod.snd) =
    some (content seg.memory (set.val SEM_COUNT).toNat)
  agrees : forall p,
    (m.view p).Agrees (m.returned p) (projection p order)
  ready : forall p, (m.view p).SlotReady seg.memory (set.val SEM_COUNT)
  noDestruct : forall p, ¬ (m.view p).Destroying

def LinInv (cfg : Config) (m : Machine) : Prop :=
  LockInv cfg m ∧
    exists seg set order, Linear cfg m seg set order

theorem Linear.update {cfg : Config} {m : Machine} {seg seg' : Segment}
    {set set' : SemSet} {order : List (Pid × LifoOp Ptr)} {p : Pid}
    {view : View} (kernel : Kernel)
    {returned : Pid -> List (Call × Outcome)}
    (h : Linear cfg m seg set order)
    (hreturned : forall q, q ≠ p -> returned q = m.returned q)
    (hsegment : kernel.segs cfg.shmemId = some seg')
    (hunmarked : seg'.marked = false)
    (hset : kernel.sets cfg.semId = some set')
    (hcount : set'.val SEM_COUNT = set.val SEM_COUNT)
    (hcontent : content seg'.memory (set.val SEM_COUNT).toNat =
      content seg.memory (set.val SEM_COUNT).toNat)
    (hagrees : (m.view p).Agrees (m.returned p) (projection p order) ->
      view.Agrees (returned p) (projection p order))
    (hready : view.SlotReady seg'.memory (set.val SEM_COUNT))
    (hothers : seg'.memory = seg.memory ∨
      forall q, q ≠ p -> (m.view q).inside = false)
    (hdestroying : ¬ view.Destroying) :
    Linear cfg { m.setView p view with kernel := kernel, returned := returned }
      seg' set' order where
  hasSegment := hsegment
  unmarked := hunmarked
  hasSet := hset
  replay := by
    rw [hcount, hcontent]
    exact h.replay
  agrees := by
    intro q
    by_cases hq : q = p
    · subst hq
      simpa [Machine.setView] using hagrees (h.agrees q)
    · simpa [Machine.setView, hq, hreturned q hq] using h.agrees q
  ready := by
    intro q
    rw [hcount]
    by_cases hq : q = p
    · subst hq
      simpa [Machine.setView] using hready
    · have hgoal : (m.view q).SlotReady seg'.memory (set.val SEM_COUNT) := by
        cases hothers with
        | inl hmemory =>
            rw [hmemory]
            exact h.ready q
        | inr hout => exact View.slotReady_of_not_inside _ _ (hout q hq)
      simpa [Machine.setView, hq] using hgoal
  noDestruct := by
    intro q
    by_cases hq : q = p
    · subst hq
      simpa [Machine.setView] using hdestroying
    · simpa [Machine.setView, hq] using h.noDestruct q

theorem Linear.append {cfg : Config} {m : Machine} {seg : Segment}
    {set set' : SemSet} {order : List (Pid × LifoOp Ptr)} {p : Pid}
    {view : View} {kernel : Kernel} {op : LifoOp Ptr}
    (h : Linear cfg m seg set order)
    (hsegment : kernel.segs cfg.shmemId = some seg)
    (hset : kernel.sets cfg.semId = some set')
    (happly : Lifo.apply (content seg.memory (set.val SEM_COUNT).toNat) op =
      some (content seg.memory (set'.val SEM_COUNT).toNat))
    (hagrees : (m.view p).Agrees (m.returned p) (projection p order) ->
      view.Agrees (m.returned p) (projection p order ++ [op]))
    (hready : view.SlotReady seg.memory (set'.val SEM_COUNT))
    (hothers : forall q, q ≠ p -> (m.view q).inside = false)
    (hdestroying : ¬ view.Destroying) :
    Linear cfg { m.setView p view with kernel := kernel } seg set'
      (order ++ [(p, op)]) where
  hasSegment := hsegment
  unmarked := h.unmarked
  hasSet := hset
  replay := by
    rw [List.map_append]
    exact (Lifo.replay_snoc op h.replay).trans happly
  agrees := by
    intro q
    by_cases hq : q = p
    · subst hq
      rw [projection_snoc_self]
      simpa [Machine.setView] using hagrees (h.agrees q)
    · rw [projection_snoc_of_ne hq]
      simpa [Machine.setView, hq] using h.agrees q
  ready := by
    intro q
    by_cases hq : q = p
    · subst hq
      simpa [Machine.setView] using hready
    · have hgoal := View.slotReady_of_not_inside seg.memory
        (set'.val SEM_COUNT) (hothers q hq)
      simpa [Machine.setView, hq] using hgoal
  noDestruct := by
    intro q
    by_cases hq : q = p
    · subst hq
      simpa [Machine.setView] using hdestroying
    · simpa [Machine.setView, hq] using h.noDestruct q

/-!
## Every step keeps the order

Only the change of COUNT appends an operation.  The slot writes before it are
not below COUNT, and so outside of the content that the order explains.
-/

section Steps

variable {cfg : Config} {m : Machine} {p : Pid} {removed : Removed}
  {timeoutFlag : Int} {request : Request} {point : Point} {locked : Bool}
  {kernel : Kernel} {seg : Segment} {set : SemSet} {owner : Option Pid}
  {order : List (Pid × LifoOp Ptr)}

theorem Alive.others_outside (h : Alive cfg m set owner)
    (hview : m.view p = View.working timeoutFlag request point locked)
    (hinside : point.inside = true) :
    forall q, q ≠ p -> (m.view q).inside = false := by
  intro q hq
  have howner := (h.owner_of_inside hview hinside).left
  cases hin : (m.view q).inside with
  | false => rfl
  | true =>
      have hother := (h.owner q).mpr hin
      rw [howner] at hother
      injection hother with heq
      exact absurd heq.symm hq

theorem Linear.quiet (kernel : Kernel) {view : View} {set' : SemSet}
    (h : Linear cfg m seg set order)
    (hsegs : kernel.segs = m.kernel.segs)
    (hset : kernel.sets cfg.semId = some set')
    (hcount : set'.val SEM_COUNT = set.val SEM_COUNT)
    (hagrees : (m.view p).Agrees (m.returned p) (projection p order) ->
      view.Agrees (m.returned p) (projection p order))
    (hready : view.SlotReady seg.memory (set.val SEM_COUNT))
    (hdestroying : ¬ view.Destroying) :
    Linear cfg { m.setView p view with kernel := kernel } seg set' order :=
  h.update _ (fun _ _ => rfl) (by rw [hsegs]; exact h.hasSegment) h.unmarked
    hset hcount rfl
    hagrees hready (Or.inl rfl) hdestroying

theorem content_update (memory : Int -> Ptr) (index : Int) (val : Ptr)
    (n : Nat) (h : (n : Int) ≤ index) :
    content (Function.update memory index val) n = content memory n := by
  induction n with
  | zero => rfl
  | succ n ih =>
      have hne : (n : Int) ≠ index := by
        lia
      simp only [content]
      rw [ih (by lia), Function.update_of_ne hne]

theorem content_of_pos (memory : Int -> Ptr) (count : Int) (h : 0 < count) :
    content memory count.toNat =
      memory (count - 1) :: content memory (count - 1).toNat := by
  have hnat : count.toNat = (count - 1).toNat + 1 := by
    lia
  have hcast : (((count - 1).toNat : Nat) : Int) = count - 1 := by
    lia
  rw [hnat]
  simp only [content, hcast]

theorem content_add_one (memory : Int -> Ptr) {count : Int} (h : 0 ≤ count) :
    content memory (count + 1).toNat =
      memory count :: content memory count.toNat := by
  rw [content_of_pos memory (count + 1) (by lia)]
  simp

theorem flag_call_quiet {semOp : Int} {flags : SemFlags} {answer : Answer}
    (hset : m.kernel.sets cfg.semId = some set)
    (hop : m.kernel.semop removed p cfg.semId SEM_FLAG semOp flags =
      some (answer, kernel)) :
    kernel.segs = m.kernel.segs ∧
      exists set', kernel.sets cfg.semId = some set' ∧
        set'.val SEM_COUNT = set.val SEM_COUNT := by
  cases semop_result hop with
  | gone hgone =>
      rw [hset] at hgone
      cases hgone
  | refused set' e hset' _ _ => exact ⟨rfl, set, hset, rfl⟩
  | applied set' hset' _ _ =>
      have hsame : set' = set := by
        have heq := hset'.symm.trans hset
        injection heq
      subst hsame
      exact ⟨rfl, _, Kernel.setSem_sets_self _ _ _,
        SemSet.apply_val_of_ne _ _ _ _ flag_ne_count.symm⟩

theorem getval_quiet {answer : Answer}
    (hset : m.kernel.sets cfg.semId = some set)
    (hop : m.kernel.getval removed p cfg.semId SEM_COUNT =
      (answer, kernel)) :
    answer = m.kernel.ok p (set.val SEM_COUNT) ∧ kernel = m.kernel := by
  rw [getval_some removed p SEM_COUNT hset] at hop
  injection hop with hanswer hkernel
  exact ⟨hanswer.symm, hkernel.symm⟩

theorem effect_of_ret_ne_zero (call : Call) {outcome : Outcome}
    (h : outcome.ret ≠ 0) : effect (call, outcome) = none := by
  cases call with
  | request asked => cases asked <;> simp [effect, h]
  | markDestruct => rfl

/-- The change of COUNT: the one step that extends the order. -/
theorem linear_commit {out : Option Ptr} {answer : Answer}
    (hlock : Alive cfg m set owner) (h : Linear cfg m seg set order)
    (hview : m.view p =
      View.working timeoutFlag request (Point.commit out) locked)
    (hop : m.kernel.semop removed p cfg.semId SEM_COUNT request.delta
      countFlags = some (answer, kernel))
    (hceiling : request.delta = 1 -> set.val SEM_COUNT < SEMVMX) :
    exists set' order',
      Linear cfg
        { m.setView p
            (View.working timeoutFlag request (Point.release out) locked) with
          kernel := kernel }
        seg set' order' := by
  have hfacts := hlock.facts p
  have hready := h.ready p
  have hagrees := h.agrees p
  have hlow := hlock.low
  have hhigh := hlock.high
  rw [hview] at hfacts hready hagrees
  cases semop_result hop with
  | gone hgone =>
      rw [h.hasSet] at hgone
      cases hgone
  | refused set' e hset' _ hrange =>
      have hsame : set' = set := by
        have heq := hset'.symm.trans h.hasSet
        injection heq
      subst hsame
      cases request with
      | push val =>
          have hbelow := hceiling rfl
          simp only [Request.delta] at hrange
          lia
      | pop =>
          change 0 < set'.val SEM_COUNT at hfacts
          simp only [Request.delta] at hrange
          lia
  | applied set' hset' _ _ =>
      have hsame : set' = set := by
        have heq := hset'.symm.trans h.hasSet
        injection heq
      subst hsame
      cases request with
      | push val =>
          change seg.memory (set'.val SEM_COUNT) = val at hready
          refine ⟨_, order ++ [(p, LifoOp.push val)],
            h.append h.hasSegment (Kernel.setSem_sets_self _ _ _) ?_ ?_ trivial
              (hlock.others_outside hview rfl) (fun hd => hd)⟩
          · simp only [SemSet.apply_val_self, Request.delta, Lifo.apply]
            rw [content_add_one seg.memory hlow, hready]
          · intro _
            change projection p order ++ [LifoOp.push val] = _
            have hshare : projection p order =
                (m.returned p).filterMap effect ++ [] := hagrees
            rw [hshare]
            simp [View.recorded, effect]
      | pop =>
          change out = some (seg.memory (set'.val SEM_COUNT - 1)) at hready
          change 0 < set'.val SEM_COUNT at hfacts
          refine ⟨_, order ++
              [(p, LifoOp.pop (seg.memory (set'.val SEM_COUNT - 1)))],
            h.append h.hasSegment (Kernel.setSem_sets_self _ _ _) ?_ ?_ trivial
              (hlock.others_outside hview rfl) (fun hd => hd)⟩
          · rw [content_of_pos seg.memory _ hfacts, Lifo.apply_pop_top]
            simp [Request.delta, Int.sub_eq_add_neg]
          · intro _
            change projection p order ++ [LifoOp.pop _] = _
            have hshare : projection p order =
                (m.returned p).filterMap effect ++ [] := hagrees
            rw [hshare, hready]
            simp [View.recorded, effect]

theorem Linear.flag_call {semOp : Int} {flags : SemFlags} {answer : Answer}
    {view : View} (h : Linear cfg m seg set order)
    (hop : m.kernel.semop removed p cfg.semId SEM_FLAG semOp flags =
      some (answer, kernel))
    (hagrees : (m.view p).Agrees (m.returned p) (projection p order) ->
      view.Agrees (m.returned p) (projection p order))
    (hready : view.SlotReady seg.memory (set.val SEM_COUNT))
    (hdestroying : ¬ view.Destroying) :
    exists seg' set' order',
      Linear cfg { m.setView p view with kernel := kernel } seg' set'
        order' := by
  rcases flag_call_quiet h.hasSet hop with ⟨hsegs, set', hset', hcount⟩
  exact ⟨seg, set', order,
    h.quiet kernel hsegs hset' hcount hagrees hready hdestroying⟩

theorem Linear.getval {answer : Answer} {view : View}
    (h : Linear cfg m seg set order)
    (hop : m.kernel.getval removed p cfg.semId SEM_COUNT = (answer, kernel))
    (hagrees : (m.view p).Agrees (m.returned p) (projection p order) ->
      view.Agrees (m.returned p) (projection p order))
    (hready : view.SlotReady seg.memory (set.val SEM_COUNT))
    (hdestroying : ¬ view.Destroying) :
    exists seg' set' order',
      Linear cfg { m.setView p view with kernel := kernel } seg' set'
        order' := by
  rw [(getval_quiet h.hasSet hop).right]
  exact ⟨seg, set, order,
    h.quiet m.kernel rfl h.hasSet rfl hagrees hready hdestroying⟩

theorem Linear.segment_eq (h : Linear cfg m seg set order) {seg' : Segment}
    (hseg : m.kernel.segs cfg.shmemId = some seg') : seg' = seg := by
  have heq := hseg.symm.trans h.hasSegment
  injection heq

theorem linear_advance {point' : Point} {locked' : Bool}
    (hlock : Alive cfg m set owner) (h : Linear cfg m seg set order)
    (hview : m.view p = View.working timeoutFlag request point locked)
    (hadvance : Advance removed p timeoutFlag (cfg.handle p) request point
      locked m.kernel point' locked' kernel)
    (hceiling : (exists out, point = Point.commit out) ->
      request.delta = 1 -> set.val SEM_COUNT < SEMVMX) :
    exists seg' set' order',
      Linear cfg
        { m.setView p (View.working timeoutFlag request point' locked') with
          kernel := kernel }
        seg' set' order' := by
  have hset := h.hasSet
  have herr := hlock.errno_of_working hview
  cases hadvance with
  | acquire hop =>
      rename_i answer
      apply h.flag_call hop
      · rw [hview]
        intro hshare
        by_cases hret : answer.ret = 0
        · simp only [if_pos hret]
          exact hshare
        · simp only [if_neg hret]
          change projection p order = _ ++ (effect _).toList
          rw [effect_of_ret_ne_zero _ hret]
          exact hshare
      · by_cases hret : answer.ret = 0 <;> cases request <;>
          simp [hret, View.SlotReady]
      · exact fun hd => hd
  | check hop =>
      rename_i answer
      have hans : answer.errno ≠ Errno.eidrm := by
        rw [(getval_quiet hset hop).left]
        exact herr
      rw [if_neg hans]
      apply h.getval hop
      · rw [hview]
        intro hshare
        by_cases href : request.refuses (cfg.handle p).size answer.ret = true
        · rw [if_pos href]
          exact hshare
        · rw [if_neg href]
          exact hshare
      · by_cases href : request.refuses (cfg.handle p).size answer.ret = true <;>
          cases request <;> simp [href, View.SlotReady]
      · exact fun hd => hd
  | failRelease hop =>
      apply h.flag_call hop
      · rw [hview]
        intro hshare
        change projection p order = _ ++ (effect _).toList
        rw [effect_of_ret_ne_zero _ (by decide)]
        exact hshare
      · cases request <;> trivial
      · exact fun hd => hd
  | slot hop =>
      rename_i answer
      have hquiet := getval_quiet hset hop
      have hans : answer.errno ≠ Errno.eidrm := by
        rw [hquiet.left]
        exact herr
      have hanswer := hquiet.left
      rw [if_neg hans]
      apply h.getval hop
      · rw [hview]
        intro hshare
        exact hshare
      · cases request <;> rw [hanswer] <;> trivial
      · exact fun hd => hd
  | write hseg =>
      rename_i val index seg'
      have hfacts := hlock.facts p
      rw [hview] at hfacts
      have hindex : index = set.val SEM_COUNT := hfacts.left
      have hsame := h.segment_eq hseg
      subst hsame
      have hlow := hlock.low
      refine ⟨_, set, order,
        h.update _ (fun _ _ => rfl) (Kernel.setSeg_segs_self _ _ _) h.unmarked
          hset rfl ?_ ?_ ?_ (Or.inr (hlock.others_outside hview rfl))
          (fun hd => hd)⟩
      · apply content_update
        lia
      · rw [hview]
        intro hshare
        exact hshare
      · change Function.update seg'.memory index val (set.val SEM_COUNT) = val
        rw [hindex, Function.update_self]
  | read hseg =>
      rename_i index seg'
      have hfacts := hlock.facts p
      rw [hview] at hfacts
      have hindex : index = set.val SEM_COUNT := hfacts.left
      have hsame := h.segment_eq hseg
      subst hsame
      refine ⟨seg', set, order, h.quiet m.kernel rfl hset rfl ?_ ?_ (fun hd => hd)⟩
      · rw [hview]
        intro hshare
        exact hshare
      · change some (seg'.memory (index - 1)) = _
        rw [hindex]
  | commit hop =>
      rcases linear_commit hlock h hview hop (hceiling ⟨_, rfl⟩) with
        ⟨set', order', hlinear⟩
      exact ⟨seg, set', order', hlinear⟩
  | release hop =>
      apply h.flag_call hop
      · rw [hview]
        intro hshare
        exact hshare
      · cases request <;> trivial
      · exact fun hd => hd

end Steps

section Invariant

variable {cfg : Config} {m : Machine} {p : Pid} {seg : Segment} {set : SemSet}
  {owner : Option Pid} {order : List (Pid × LifoOp Ptr)}

theorem recorded_performs (timeoutFlag : Int) (request : Request)
    (point : Point) (locked : Bool) :
    (View.working timeoutFlag request point locked).recorded = [] ∨
      exists op, Performs (some (Call.request request)) op ∧
        (View.working timeoutFlag request point locked).recorded = [op] := by
  have houtcome : forall outcome,
      (effect (Call.request request, outcome)).toList = [] ∨
        exists op, Performs (some (Call.request request)) op ∧
          (effect (Call.request request, outcome)).toList = [op] := by
    intro outcome
    by_cases hret : outcome.ret = 0
    · cases request with
      | push val =>
          refine Or.inr ⟨LifoOp.push val, rfl, ?_⟩
          simp [effect, hret]
      | pop =>
          cases hout : outcome.out with
          | none =>
              left
              simp [effect, hret, hout]
          | some val =>
              refine Or.inr ⟨LifoOp.pop val, ⟨val, rfl⟩, ?_⟩
              simp [effect, hret, hout]
    · left
      rw [effect_of_ret_ne_zero _ hret]
      rfl
  cases point with
  | release out => exact houtcome { ret := 0, out := out }
  | done outcome => exact houtcome outcome
  | _ => exact Or.inl rfl

theorem linear_die {call : Option Call} (hlock : Alive cfg m set owner)
    (h : Linear cfg m seg set order)
    (hcall : m.view p = View.idle ∧ call = none ∨
      (exists timeoutFlag request point locked,
        m.view p = View.working timeoutFlag request point locked ∧
          call = some (Call.request request)) ∨
      exists timeoutFlag point,
        m.view p = View.destroying timeoutFlag point ∧
          call = some Call.markDestruct) :
    Linear cfg
      { m.setView p (View.dead call) with kernel := m.kernel.exit p }
      (seg.release p) (set.undo p) order := by
  have hcount : (set.undo p).val SEM_COUNT = set.val SEM_COUNT := by
    have hlow := hlock.low
    have hhigh := hlock.high
    rw [SemSet.undo_val, hlock.adjCount p]
    lia
  have hsegment : (m.kernel.exit p).segs cfg.shmemId =
      some (seg.release p) := by
    have hmarked : ¬ ((seg.release p).marked = true ∧
        (seg.release p).attached = []) := by
      intro hboth
      have hmark : seg.marked = true := hboth.left
      rw [h.unmarked] at hmark
      cases hmark
    simp only [Kernel.exit, h.hasSegment, Option.bind_some, Segment.survive,
      if_neg hmarked]
  refine h.update _ (fun _ _ => rfl) hsegment h.unmarked ?_ hcount rfl ?_ trivial
    (Or.inl rfl) (fun hd => hd)
  · rw [Kernel.exit_sets, h.hasSet]
    rfl
  · intro hshare
    rcases hcall with ⟨hview, _⟩ | ⟨_, request, point, _, hview, hcall⟩ |
      ⟨_, _, hview, _⟩
    · rw [hview] at hshare
      exact Or.inl (hshare.trans (List.append_nil _))
    · rw [hview] at hshare
      rw [hcall]
      change projection p order = _ ++ _ at hshare
      rcases recorded_performs _ request point _ with hnil | ⟨op, hop, hone⟩
      · rw [hnil, List.append_nil] at hshare
        exact Or.inl hshare
      · rw [hone] at hshare
        exact Or.inr ⟨op, hop, hshare⟩
    · have hno := h.noDestruct p
      rw [hview] at hno
      exact absurd trivial hno

theorem linInv_step {l : Label} {m' : Machine} (h : LinInv cfg m)
    (hguard : StackSteps cfg (m.toState cfg) l)
    (hstep : PointStep cfg m l m') : LinInv cfg m' := by
  rcases h with ⟨hlock, seg, set, order, hlinear⟩
  refine ⟨lockInv_step hlock hstep, ?_⟩
  rcases hlock set hlinear.hasSet with ⟨owner, halive⟩
  cases hstep with
  | beginRequest hview hatt =>
      rename_i p timeoutFlag request
      refine ⟨seg, set, order,
        hlinear.quiet m.kernel rfl hlinear.hasSet rfl ?_ ?_
          (fun hd => hd)⟩
      · rw [hview]
        intro hshare
        unfold startPoint
        by_cases hwait : ValidWait timeoutFlag
        · rw [if_pos hwait]
          exact hshare
        · rw [if_neg hwait]
          change projection p order = _ ++ (effect _).toList
          rw [effect_of_ret_ne_zero _ (by decide)]
          exact hshare
      · unfold startPoint
        by_cases hwait : ValidWait timeoutFlag <;> cases request <;>
          simp [hwait, View.SlotReady]
  | beginDestruct _ _ => exact absurd hguard.left (fun hd => hd)
  | advance hview hadvance =>
      rename_i p removed timeoutFlag request point point' locked locked' kernel
      refine linear_advance halive hlinear hview hadvance ?_
      intro hcommit hdelta
      rcases hcommit with ⟨out, hpoint⟩
      subst hpoint
      refine hguard.right timeoutFlag (Call.request request) _ locked set
        (toState_status hview) ?_ hlinear.hasSet
      simp only [Point.code, Point.commitCode, Program.nextOp_call, hdelta]
      rfl
  | dismantle hview hdismantle =>
      rename_i p removed timeoutFlag point point' kernel
      have hno := hlinear.noDestruct p
      rw [hview] at hno
      exact absurd trivial hno
  | die _ hcall =>
      exact ⟨_, _, order, linear_die halive hlinear hcall⟩
  | finishRequest hview =>
      rename_i p timeoutFlag request outcome locked
      refine ⟨seg, set, order,
        hlinear.update m.kernel ?_ hlinear.hasSegment
          hlinear.unmarked hlinear.hasSet rfl rfl ?_ trivial (Or.inl rfl)
          (fun hd => hd)⟩
      · intro q hq
        exact Function.update_of_ne hq _ _
      · rw [hview, Function.update_self]
        intro hshare
        change projection p order = _ ++ (effect _).toList at hshare
        change projection p order = _ ++ []
        rw [hshare, List.filterMap_append, List.append_nil]
        congr 1
  | finishDestruct hview =>
      rename_i p timeoutFlag
      have hno := hlinear.noDestruct p
      rw [hview] at hno
      exact absurd trivial hno

end Invariant

end Stack
end UnixPrograms
