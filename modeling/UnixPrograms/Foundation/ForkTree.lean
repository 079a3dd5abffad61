import Mathlib.Algebra.BigOperators.Group.Multiset.Basic
import UnixPrograms.Foundation.Contract
import UnixPrograms.Foundation.Transition

/-!
# Trees of processes

A process forks in the middle of its code, and parent and child both go on from
there with copies of what the process owned.  A pool holds all processes that
one process has become, in the order of their births, and takes one operation
of one of them at a time.
-/

namespace UnixPrograms
namespace Foundation

structure Own (data : Type) where
  pid : Nat
  parent : Nat
  data : data

/-- What the operations do.  A `fork` is an operation that answers with a
process identifier in the parent and with zero in the child. -/
structure Machine (Op : Type) (Res : Op -> Type) (data world choice : Type)
    where
  forks : (op : Op) -> Option (Nat -> Res op)
  /-- What the parent owns after the birth of a child. -/
  kept : Own data -> Nat -> data
  /-- What the child owns. -/
  copied : Own data -> data
  act : choice -> (op : Op) -> Own data -> world ->
    Option (Res op × data × world)

structure Process (Op : Type) (Res : Op -> Type) (Halt alpha data : Type) where
  own : Own data
  code : Program Op Res Halt alpha

structure Pool (Op : Type) (Res : Op -> Type) (Halt alpha data world : Type)
    where
  procs : List (Process Op Res Halt alpha data)
  world : world

section Pool

variable {Op : Type} {Res : Op -> Type} {Halt alpha data world choice : Type}

def Machine.asParent (M : Machine Op Res data world choice) (own : Own data)
    (pid : Nat) : Own data :=
  { own with data := M.kept own pid }

def Machine.asChild (M : Machine Op Res data world choice) (own : Own data)
    (pid : Nat) : Own data where
  pid := pid
  parent := own.pid
  data := M.copied own

def Pool.step (M : Machine Op Res data world choice)
    (pool : Pool Op Res Halt alpha data world) (event : Nat × choice) :
    Option (Pool Op Res Halt alpha data world) :=
  match pool.procs[event.1]? with
  | none => none
  | some proc =>
      match proc.code with
      | Program.ret _ => none
      | Program.halt _ => none
      | Program.call op next =>
          match M.forks op with
          | some answer =>
              let pid := pool.procs.length + 1
              some
                { pool with
                  procs :=
                    pool.procs.set event.1
                        ⟨M.asParent proc.own pid, next (answer pid)⟩ ++
                      [⟨M.asChild proc.own pid, next (answer 0)⟩] }
          | none =>
              (M.act event.2 op proc.own pool.world).map
                (fun done =>
                  { procs :=
                      pool.procs.set event.1
                        ⟨{ proc.own with data := done.2.1 }, next done.1⟩
                    world := done.2.2 })

inductive PoolMoves (M : Machine Op Res data world choice)
    (pool : Pool Op Res Halt alpha data world) :
    Nat × choice -> Pool Op Res Halt alpha data world -> Prop where
  | fork {who : Nat} {c : choice} {own : Own data} {op : Op}
      {next : Res op -> Program Op Res Halt alpha} {answer : Nat -> Res op} :
      pool.procs[who]? = some ⟨own, Program.call op next⟩ ->
      M.forks op = some answer ->
      PoolMoves M pool (who, c)
        { pool with
          procs :=
            pool.procs.set who
                ⟨M.asParent own (pool.procs.length + 1),
                  next (answer (pool.procs.length + 1))⟩ ++
              [⟨M.asChild own (pool.procs.length + 1), next (answer 0)⟩] }
  | act {who : Nat} {c : choice} {own : Own data} {op : Op}
      {next : Res op -> Program Op Res Halt alpha} {answer : Res op}
      {after : data} {world' : world} :
      pool.procs[who]? = some ⟨own, Program.call op next⟩ ->
      M.forks op = none ->
      M.act c op own pool.world = some (answer, after, world') ->
      PoolMoves M pool (who, c)
        { procs :=
            pool.procs.set who ⟨{ own with data := after }, next answer⟩
          world := world' }

theorem PoolMoves.of_step {M : Machine Op Res data world choice}
    {pool pool' : Pool Op Res Halt alpha data world} {event : Nat × choice}
    (h : Pool.step M pool event = some pool') : PoolMoves M pool event pool' := by
  rcases event with ⟨who, c⟩
  rw [Pool.step] at h
  split at h
  case h_1 _ => cases h
  case h_2 proc hproc =>
    rcases proc with ⟨own, code⟩
    cases code with
    | ret value => cases h
    | halt reason => cases h
    | call op next =>
        simp only at h
        split at h
        case h_1 answer hforks =>
          injection h with h
          rw [← h]
          exact PoolMoves.fork hproc hforks
        case h_2 hforks =>
          rcases Option.map_eq_some_iff.mp h with
            ⟨⟨answer, after, world'⟩, hact, heq⟩
          rw [← heq]
          exact PoolMoves.act hproc hforks hact

/-!
## What every process of the pool keeps
-/

def Pool.Numbered (pool : Pool Op Res Halt alpha data world) : Prop :=
  forall k proc, pool.procs[k]? = some proc -> proc.own.pid = k + 1

def Pool.single (own : Own data) (code : Program Op Res Halt alpha)
    (w : world) : Pool Op Res Halt alpha data world where
  procs := [⟨own, code⟩]
  world := w

theorem Pool.numbered_single {own : Own data}
    {code : Program Op Res Halt alpha} {w : world} (hpid : own.pid = 1) :
    (Pool.single own code w).Numbered := by
  intro k proc hproc
  cases k with
  | zero =>
      injection hproc with hproc
      rw [← hproc]
      exact hpid
  | succ k => cases hproc

theorem Pool.Numbered.pid_le {pool : Pool Op Res Halt alpha data world}
    (h : pool.Numbered) {who : Nat} {proc : Process Op Res Halt alpha data}
    (hproc : pool.procs[who]? = some proc) :
    proc.own.pid < pool.procs.length + 1 := by
  have hlt := (List.getElem?_eq_some_iff.mp hproc).choose
  rw [h who proc hproc]
  exact Nat.succ_lt_succ hlt

theorem Pool.Numbered.pid_ne {pool : Pool Op Res Halt alpha data world}
    (h : pool.Numbered) {i j : Nat} {proc proc' : Process Op Res Halt alpha data}
    (hi : pool.procs[i]? = some proc) (hj : pool.procs[j]? = some proc')
    (hne : i ≠ j) : proc.own.pid ≠ proc'.own.pid := by
  rw [h i proc hi, h j proc' hj]
  exact fun heq => hne (Nat.succ.inj heq)

theorem Pool.Numbered.set {pool pool' : Pool Op Res Halt alpha data world}
    {who : Nat} {proc proc' : Process Op Res Halt alpha data}
    (h : pool.Numbered) (hproc : pool.procs[who]? = some proc)
    (hprocs : pool'.procs = pool.procs.set who proc')
    (hpid : proc'.own.pid = proc.own.pid) : pool'.Numbered := by
  intro k other hk
  rw [hprocs, List.getElem?_set] at hk
  split at hk
  case isFalse _ => exact h k other hk
  case isTrue heq =>
    split at hk
    case isFalse _ => cases hk
    case isTrue _ =>
      injection hk with hk
      rw [← hk, hpid, ← heq]
      exact h who proc hproc

theorem Pool.Numbered.step {M : Machine Op Res data world choice}
    {pool pool' : Pool Op Res Halt alpha data world} {event : Nat × choice}
    (h : pool.Numbered) (hstep : pool.step M event = some pool') :
    pool'.Numbered := by
  cases PoolMoves.of_step hstep with
  | @fork who c own op next answer hproc hforks =>
      have hset : Pool.Numbered
          { pool with
            procs :=
              pool.procs.set who
                ⟨M.asParent own (pool.procs.length + 1),
                  next (answer (pool.procs.length + 1))⟩ } :=
        h.set hproc rfl rfl
      intro k proc' hproc'
      by_cases hlast : k < pool.procs.length
      · rw [List.getElem?_append_left (by simpa using hlast)] at hproc'
        exact hset k proc' hproc'
      · rw [List.getElem?_append_right (by simpa using hlast),
          List.length_set] at hproc'
        have hk : k = pool.procs.length := by
          have hbound := (List.getElem?_eq_some_iff.mp hproc').choose
          simp only [List.length_singleton] at hbound
          lia
        rw [hk, Nat.sub_self] at hproc'
        injection hproc' with hproc'
        rw [← hproc', hk]
        rfl
  | act hproc hforks hact => exact h.set hproc rfl rfl

theorem Pool.Numbered.run {M : Machine Op Res data world choice}
    {pool pool' : Pool Op Res Halt alpha data world}
    {events : List (Nat × choice)} (h : pool.Numbered)
    (hrun : run (Pool.step M) pool events = some pool') : pool'.Numbered :=
  run_invariant Pool.Numbered (fun _ _ _ hnumbered _ hstep =>
    hnumbered.step hstep) h (allSteps_of_forall (fun _ _ => trivial) events _)
    hrun

def Pool.Each (P : world -> Own data -> Program Op Res Halt alpha -> Prop)
    (pool : Pool Op Res Halt alpha data world) : Prop :=
  forall proc, proc ∈ pool.procs -> P pool.world proc.own proc.code

theorem Pool.each_single
    {P : world -> Own data -> Program Op Res Halt alpha -> Prop}
    {own : Own data} {code : Program Op Res Halt alpha} {w : world}
    (h : P w own code) : (Pool.single own code w).Each P := by
  intro proc hmem
  rw [List.mem_singleton.mp hmem]
  exact h

/-- What a process keeps by its own operations, hands on to parent and child
when it forks, and does not lose by the operations of the others, every process
keeps. -/
theorem Pool.Each.step {M : Machine Op Res data world choice}
    {P : world -> Own data -> Program Op Res Halt alpha -> Prop}
    {pool pool' : Pool Op Res Halt alpha data world} {event : Nat × choice}
    (hfork : forall w own op next answer pid,
      P w own (Program.call op next) -> M.forks op = some answer ->
      own.pid < pid ->
      P w (M.asParent own pid) (next (answer pid)) ∧
        P w (M.asChild own pid) (next (answer 0)))
    (hact : forall w own op next c answer after w',
      P w own (Program.call op next) -> M.forks op = none ->
      M.act c op own w = some (answer, after, w') ->
      P w' { own with data := after } (next answer))
    (hothers : forall w own code actor op next c answer after w',
      P w own code -> P w actor (Program.call op next) -> M.forks op = none ->
      M.act c op actor w = some (answer, after, w') -> P w' own code)
    (hnumbered : pool.Numbered) (h : pool.Each P)
    (hstep : pool.step M event = some pool') : pool'.Each P := by
  intro proc hmem
  cases PoolMoves.of_step hstep with
  | fork hproc hforks =>
      have hboth := hfork pool.world _ _ _ _ (pool.procs.length + 1)
        (h _ (List.mem_of_getElem? hproc)) hforks (hnumbered.pid_le hproc)
      rcases List.mem_append.mp hmem with hold | hnew
      · rcases List.mem_or_eq_of_mem_set hold with hkept | heq
        · exact h proc hkept
        · rw [heq]
          exact hboth.left
      · rw [List.mem_singleton.mp hnew]
        exact hboth.right
  | act hproc hforks hperform =>
      rcases List.mem_or_eq_of_mem_set hmem with hkept | heq
      · exact hothers pool.world _ _ _ _ _ _ _ _ _ (h proc hkept)
          (h _ (List.mem_of_getElem? hproc)) hforks hperform
      · rw [heq]
        exact hact pool.world _ _ _ _ _ _ _ (h _ (List.mem_of_getElem? hproc))
          hforks hperform

/-!
## Contracts

A process knows something of the world, and an operation needs something of the
process that asks for it.  A fork continues with either answer.
-/

structure Rules (Op data world : Type) where
  known : Own data -> world -> Prop
  needs : Op -> Own data -> Prop

def Rules.local (needs : Op -> Own data -> Prop) : Rules Op data world where
  known := fun _ _ => True
  needs := needs

def Machine.does (M : Machine Op Res data world choice)
    (R : Rules Op data world) (op : Op) (own : Own data)
    (answer : Res op) (own' : Own data) : Prop :=
  match M.forks op with
  | none =>
      exists c w after w',
        R.known own w ∧ M.act c op own w = some (answer, after, w') ∧
          own' = { own with data := after }
  | some f =>
      exists pid,
        own.pid < pid ∧
          ((answer = f pid ∧ own' = M.asParent own pid) ∨
            (answer = f 0 ∧ own' = M.asChild own pid))

def Machine.contract (M : Machine Op Res data world choice)
    (R : Rules Op data world) : Contract Op Res (Own data) where
  needs := R.needs
  does := M.does R

section Contract

variable {M : Machine Op Res data world choice} {R : Rules Op data world}
variable {stopped : Own data -> Halt -> Prop} {post : Own data -> alpha -> Prop}

theorem Machine.does_of_act {op : Op} {own : Own data} {answer : Res op}
    {c : choice} {w w' : world} {after : data} (hforks : M.forks op = none)
    (hknown : R.known own w)
    (hact : M.act c op own w = some (answer, after, w')) :
    M.does R op own answer { own with data := after } := by
  rw [Machine.does, hforks]
  exact ⟨c, w, after, w', hknown, hact, rfl⟩

theorem Machine.does_of_parent {op : Op} {own : Own data} {f : Nat -> Res op}
    {pid : Nat} (hforks : M.forks op = some f) (hpid : own.pid < pid) :
    M.does R op own (f pid) (M.asParent own pid) := by
  rw [Machine.does, hforks]
  exact ⟨pid, hpid, Or.inl ⟨rfl, rfl⟩⟩

theorem Machine.does_of_child {op : Op} {own : Own data} {f : Nat -> Res op}
    {pid : Nat} (hforks : M.forks op = some f) (hpid : own.pid < pid) :
    M.does R op own (f 0) (M.asChild own pid) := by
  rw [Machine.does, hforks]
  exact ⟨pid, hpid, Or.inr ⟨rfl, rfl⟩⟩

/-- What a process knows stays true, whoever does an operation that has what it
needs. -/
structure Machine.Stable (M : Machine Op Res data world choice)
    (R : Rules Op data world) : Prop where
  parent : forall own w pid, R.known own w -> R.known (M.asParent own pid) w
  child : forall own w pid, R.known own w -> R.known (M.asChild own pid) w
  act : forall own w op c answer after w', R.known own w -> R.needs op own ->
    M.act c op own w = some (answer, after, w') ->
    R.known { own with data := after } w'
  others : forall own actor w op c answer after w', R.known own w ->
    R.known actor w -> R.needs op actor ->
    M.act c op actor w = some (answer, after, w') -> R.known own w'

theorem Machine.stable_local (M : Machine Op Res data world choice)
    (needs : Op -> Own data -> Prop) : M.Stable (Rules.local needs) where
  parent := fun _ _ _ _ => trivial
  child := fun _ _ _ _ => trivial
  act := fun _ _ _ _ _ _ _ _ _ _ => trivial
  others := fun _ _ _ _ _ _ _ _ _ _ _ _ => trivial

def Meets (M : Machine Op Res data world choice) (R : Rules Op data world)
    (stopped : Own data -> Halt -> Prop) (post : Own data -> alpha -> Prop)
    (w : world) (own : Own data) (code : Program Op Res Halt alpha) : Prop :=
  R.known own w ∧ Program.Ensures (M.contract R) stopped post own code

/-- In every run all processes meet the contract of the first one. -/
theorem Pool.meets_run (hstable : M.Stable R) {own : Own data}
    {code : Program Op Res Halt alpha} {w : world}
    {pool : Pool Op Res Halt alpha data world} {events : List (Nat × choice)}
    (hpid : own.pid = 1) (hknown : R.known own w)
    (h : Program.Ensures (M.contract R) stopped post own code)
    (hrun : run (Pool.step M) (Pool.single own code w) events = some pool) :
    pool.Each (Meets M R stopped post) := by
  refine (run_invariant
    (fun pool =>
      Pool.Numbered pool ∧ Pool.Each (Meets M R stopped post) pool)
    ?_ ⟨Pool.numbered_single hpid, Pool.each_single ⟨hknown, h⟩⟩
    (allSteps_of_forall (fun _ _ => trivial) events _) hrun).right
  rintro pool event pool' ⟨hnumbered, h⟩ - hstep
  refine ⟨hnumbered.step hstep, Pool.Each.step ?_ ?_ ?_ hnumbered h hstep⟩
  · rintro w own op next answer pid ⟨hknown, hmeets⟩ hforks hpid
    exact
      ⟨⟨hstable.parent own w pid hknown,
          hmeets.right _ _ (M.does_of_parent hforks hpid)⟩,
        ⟨hstable.child own w pid hknown,
          hmeets.right _ _ (M.does_of_child hforks hpid)⟩⟩
  · rintro w own op next c answer after w' ⟨hknown, hmeets⟩ hforks hact
    exact
      ⟨hstable.act own w op c answer after w' hknown hmeets.left hact,
        hmeets.right _ _ (M.does_of_act hforks hknown hact)⟩
  · rintro w own code actor op next c answer after w' ⟨hknown, hmeets⟩ hactor -
      hact
    exact
      ⟨hstable.others own actor w op c answer after w' hknown hactor.left
        hactor.right.left hact, hmeets⟩

end Contract

/-!
## What a process and its descendants come to

The outcomes of the processes of a pool that has settled do not depend on the
order in which they acted.
-/

/-- What a process has come to when it has ended or waits in an operation at
which it may stay for ever. -/
structure Outcome (Op Halt alpha data beta : Type) where
  parks : Op -> Bool
  parked : Own data -> beta
  returned : Own data -> alpha -> beta
  stopped : Own data -> Halt -> beta

variable {beta : Type}

def Process.outcome (O : Outcome Op Halt alpha data beta)
    (proc : Process Op Res Halt alpha data) : Option beta :=
  match proc.code with
  | Program.ret value => some (O.returned proc.own value)
  | Program.halt reason => some (O.stopped proc.own reason)
  | Program.call op _ =>
      if O.parks op = true then some (O.parked proc.own) else none

def Pool.Settled (O : Outcome Op Halt alpha data beta)
    (pool : Pool Op Res Halt alpha data world) : Prop :=
  forall proc, proc ∈ pool.procs -> (proc.outcome O).isSome = true

instance (O : Outcome Op Halt alpha data beta)
    (pool : Pool Op Res Halt alpha data world) : Decidable (pool.Settled O) :=
  inferInstanceAs (Decidable (forall proc, proc ∈ pool.procs -> _))

def Pool.outcomes (O : Outcome Op Halt alpha data beta)
    (pool : Pool Op Res Halt alpha data world) : List beta :=
  pool.procs.filterMap (Process.outcome O)

/-- The outcomes of a process and of all its descendants, whose operations all
have what they need. -/
def Yields (M : Machine Op Res data world choice) (R : Rules Op data world)
    (O : Outcome Op Halt alpha data beta) :
    Own data -> Program Op Res Halt alpha -> Multiset beta -> Prop
  | own, Program.ret value, out => out = {O.returned own value}
  | own, Program.halt reason, out => out = {O.stopped own reason}
  | own, Program.call op next, out =>
      match M.forks op with
      | none =>
          R.needs op own ∧ (O.parks op = true -> out = {O.parked own}) ∧
            forall answer own', M.does R op own answer own' ->
              Yields M R O own' (next answer) out
      | some f =>
          exists parents childs,
            out = parents + childs ∧
              forall pid, own.pid < pid ->
                Yields M R O (M.asParent own pid) (next (f pid)) parents ∧
                  Yields M R O (M.asChild own pid) (next (f 0)) childs

section Yields

variable {M : Machine Op Res data world choice} {R : Rules Op data world}
variable {O : Outcome Op Halt alpha data beta}

theorem Yields.call {own : Own data} {op : Op}
    {next : Res op -> Program Op Res Halt alpha} {out : Multiset beta}
    (hforks : M.forks op = none) (hneeds : R.needs op own)
    (hparks : O.parks op = true -> out = {O.parked own})
    (h : forall answer own', M.does R op own answer own' ->
      Yields M R O own' (next answer) out) :
    Yields M R O own (Program.call op next) out := by
  rw [Yields, hforks]
  exact ⟨hneeds, hparks, h⟩

theorem Yields.ask {own : Own data} {op : Op}
    {k : Res op -> Program Op Res Halt alpha} {out : Multiset beta}
    (hforks : M.forks op = none) (hneeds : R.needs op own)
    (hquiet : O.parks op = false)
    (h : forall c w answer after w', R.known own w ->
      M.act c op own w = some (answer, after, w') ->
      Yields M R O { own with data := after } (k answer) out) :
    Yields M R O own (Program.ask op >>= k) out := by
  apply Yields.call hforks hneeds
  · intro hparks
    rw [hquiet] at hparks
    cases hparks
  · intro answer own' hdoes
    rw [Machine.does, hforks] at hdoes
    rcases hdoes with ⟨c, w, after, w', hknown, hact, heq⟩
    rw [heq]
    exact h c w answer after w' hknown hact

theorem Yields.value {own : Own data} {op : Op}
    {k : Res op -> Program Op Res Halt alpha} {answer : choice -> Res op}
    {out : Multiset beta} (hforks : M.forks op = none)
    (hneeds : R.needs op own) (hquiet : O.parks op = false)
    (hact : forall c w, M.act c op own w = some (answer c, own.data, w))
    (h : forall c, Yields M R O own (k (answer c)) out) :
    Yields M R O own (Program.ask op >>= k) out := by
  apply Yields.ask hforks hneeds hquiet
  intro c w value after w' _ hperform
  rw [hact c w] at hperform
  injection hperform with heq
  cases heq
  exact h c

theorem Yields.fork {own : Own data} {op : Op}
    {next : Res op -> Program Op Res Halt alpha} {f : Nat -> Res op}
    {parents childs : Multiset beta} (hforks : M.forks op = some f)
    (h : forall pid, own.pid < pid ->
      Yields M R O (M.asParent own pid) (next (f pid)) parents ∧
        Yields M R O (M.asChild own pid) (next (f 0)) childs) :
    Yields M R O own (Program.call op next) (parents + childs) := by
  rw [Yields, hforks]
  exact ⟨parents, childs, rfl, h⟩

def YieldAll (M : Machine Op Res data world choice)
    (R : Rules Op data world) (O : Outcome Op Halt alpha data beta) :
    List (Process Op Res Halt alpha data) -> Multiset beta -> Prop
  | [], out => out = 0
  | proc :: procs, out =>
      exists first rest,
        Yields M R O proc.own proc.code first ∧
          YieldAll M R O procs rest ∧ out = first + rest

theorem YieldAll.set {procs : List (Process Op Res Halt alpha data)}
    {out : Multiset beta} {who : Nat} {proc : Process Op Res Halt alpha data}
    (h : YieldAll M R O procs out) (hproc : procs[who]? = some proc) :
    exists own others,
      Yields M R O proc.own proc.code own ∧ out = own + others ∧
        forall proc' own', Yields M R O proc'.own proc'.code own' ->
          YieldAll M R O (procs.set who proc') (own' + others) := by
  induction procs generalizing out who with
  | nil => cases hproc
  | cons head procs ih =>
      rcases h with ⟨first, rest, hfirst, hrest, hout⟩
      cases who with
      | zero =>
          injection hproc with hproc
          rw [← hproc]
          exact ⟨first, rest, hfirst, hout, fun proc' own' h' =>
            ⟨own', rest, h', hrest, rfl⟩⟩
      | succ who =>
          rcases ih hrest hproc with ⟨own, others, hown, hsplit, hset⟩
          refine ⟨own, first + others, hown, ?_, fun proc' own' h' =>
            ⟨first, own' + others, hfirst, hset proc' own' h', ?_⟩⟩
          · rw [hout, hsplit, add_left_comm]
          · exact add_left_comm own' first others

theorem YieldAll.append {procs : List (Process Op Res Halt alpha data)}
    {out own : Multiset beta} {proc : Process Op Res Halt alpha data}
    (h : YieldAll M R O procs out)
    (hproc : Yields M R O proc.own proc.code own) :
    YieldAll M R O (procs ++ [proc]) (out + own) := by
  induction procs generalizing out with
  | nil =>
      refine ⟨own, 0, hproc, rfl, ?_⟩
      rw [show out = 0 from h, add_comm]
  | cons head procs ih =>
      rcases h with ⟨first, rest, hfirst, hrest, hout⟩
      refine ⟨first, rest + own, hfirst, ih hrest, ?_⟩
      rw [hout, add_assoc]

theorem YieldAll.map {procs : List (Process Op Res Halt alpha data)}
    {f : Process Op Res Halt alpha data -> Process Op Res Halt alpha data}
    {outs : Process Op Res Halt alpha data -> List beta}
    (h : forall proc, proc ∈ procs ->
      Yields M R O (f proc).own (f proc).code (outs proc : Multiset beta)) :
    YieldAll M R O (procs.map f) (procs.flatMap outs : Multiset beta) := by
  induction procs with
  | nil => rfl
  | cons proc procs ih =>
      refine ⟨_, _, h proc List.mem_cons_self,
        ih (fun other hmem => h other (List.mem_cons_of_mem _ hmem)), ?_⟩
      rw [List.flatMap_cons]
      exact (Multiset.coe_add _ _).symm

theorem YieldAll.each {procs : List (Process Op Res Halt alpha data)}
    {out : Multiset beta} (h : YieldAll M R O procs out)
    {proc : Process Op Res Halt alpha data} (hmem : proc ∈ procs) :
    exists own, Yields M R O proc.own proc.code own := by
  rcases List.getElem?_of_mem hmem with ⟨who, hproc⟩
  rcases h.set hproc with ⟨own, _, hown, _, _⟩
  exact ⟨own, hown⟩

theorem YieldAll.step {pool pool' : Pool Op Res Halt alpha data world}
    {event : Nat × choice} {out : Multiset beta} (hnumbered : pool.Numbered)
    (hknown : pool.Each (fun w own _ => R.known own w))
    (h : YieldAll M R O pool.procs out)
    (hstep : pool.step M event = some pool') :
    YieldAll M R O pool'.procs out := by
  cases PoolMoves.of_step hstep with
  | fork hproc hforks =>
      rcases h.set hproc with ⟨own, others, hown, hout, hset⟩
      rw [Yields, hforks] at hown
      rcases hown with ⟨parents, childs, hsplit, hboth⟩
      have hpid := hnumbered.pid_le hproc
      have hparent := hset ⟨_, _⟩ parents (hboth _ hpid).left
      have hall := @YieldAll.append _ _ _ _ _ _ _ _ M R O _ _ _ ⟨_, _⟩ hparent
        (hboth _ hpid).right
      rw [hout, hsplit, add_right_comm]
      exact hall
  | act hproc hforks hact =>
      rcases h.set hproc with ⟨own, others, hown, hout, hset⟩
      rw [Yields, hforks] at hown
      rw [hout]
      apply hset
      exact hown.right.right _ _
        (M.does_of_act hforks (hknown _ (List.mem_of_getElem? hproc)) hact)

theorem YieldAll.outcomes {procs : List (Process Op Res Halt alpha data)}
    {out : Multiset beta} (h : YieldAll M R O procs out)
    (hforks : forall op, O.parks op = true -> M.forks op = none)
    (hsettled : forall proc, proc ∈ procs -> (proc.outcome O).isSome = true) :
    out = (procs.filterMap (Process.outcome O) : List beta) := by
  induction procs generalizing out with
  | nil => exact h
  | cons proc procs ih =>
      rcases h with ⟨first, rest, hfirst, hrest, hout⟩
      have hothers := ih hrest
        (fun other hmem => hsettled other (List.mem_cons_of_mem proc hmem))
      rcases Option.isSome_iff_exists.mp (hsettled proc List.mem_cons_self) with
        ⟨b, hb⟩
      have hone : first = {b} := by
        rcases proc with ⟨own, code⟩
        cases code with
        | ret value =>
            injection hb with hb
            rw [← hb]
            exact hfirst
        | halt reason =>
            injection hb with hb
            rw [← hb]
            exact hfirst
        | call op next =>
            simp only [Process.outcome] at hb
            split at hb
            case isTrue hparks =>
              injection hb with hb
              rw [Yields, hforks op hparks] at hfirst
              rw [← hb]
              exact hfirst.right.left hparks
            case isFalse _ => cases hb
      rw [List.filterMap_cons_some hb, hout, hothers, hone]
      rfl

def Sound (M : Machine Op Res data world choice) (R : Rules Op data world)
    (O : Outcome Op Halt alpha data beta) (w : world) (own : Own data)
    (code : Program Op Res Halt alpha) : Prop :=
  R.known own w ∧ exists out, Yields M R O own code out

theorem Pool.Numbered.sound_step (hstable : M.Stable R)
    {pool pool' : Pool Op Res Halt alpha data world} {event : Nat × choice}
    (hnumbered : pool.Numbered) (h : pool.Each (Sound M R O))
    (hstep : pool.step M event = some pool') : pool'.Each (Sound M R O) := by
  apply Pool.Each.step ?_ ?_ ?_ hnumbered h hstep
  · rintro w own op next f pid ⟨hknown, out, hout⟩ hforks hpid
    rw [Yields, hforks] at hout
    rcases hout with ⟨parents, childs, -, hboth⟩
    exact
      ⟨⟨hstable.parent own w pid hknown, parents, (hboth pid hpid).left⟩,
        ⟨hstable.child own w pid hknown, childs, (hboth pid hpid).right⟩⟩
  · rintro w own op next c answer after w' ⟨hknown, out, hout⟩ hforks hact
    rw [Yields, hforks] at hout
    exact
      ⟨hstable.act own w op c answer after w' hknown hout.left hact, out,
        hout.right.right _ _ (M.does_of_act hforks hknown hact)⟩
  · rintro w own code actor op next c answer after w' ⟨hknown, hown⟩
      ⟨hactor, out, hout⟩ hforks hact
    rw [Yields, hforks] at hout
    exact
      ⟨hstable.others own actor w op c answer after w' hknown hactor hout.left
        hact, hown⟩

theorem Pool.outcomes_from (hstable : M.Stable R)
    (hforks : forall op, O.parks op = true -> M.forks op = none)
    {pool pool' : Pool Op Res Halt alpha data world}
    {events : List (Nat × choice)} {out : Multiset beta}
    (hnumbered : pool.Numbered)
    (hknown : pool.Each (fun w own _ => R.known own w))
    (h : YieldAll M R O pool.procs out)
    (hrun : run (Pool.step M) pool events = some pool')
    (hsettled : pool'.Settled O) :
    pool'.Numbered ∧ pool'.Each (fun w own _ => R.known own w) ∧
      (pool'.outcomes O : Multiset beta) = out := by
  have hsound : pool.Each (Sound M R O) :=
    fun proc hmem => ⟨hknown proc hmem, h.each hmem⟩
  have hend : pool'.Numbered ∧ pool'.Each (Sound M R O) ∧
      YieldAll M R O pool'.procs out := by
    refine run_invariant
      (fun pool =>
        Pool.Numbered pool ∧ Pool.Each (Sound M R O) pool ∧
          YieldAll M R O pool.procs out)
      ?_ ⟨hnumbered, hsound, h⟩
      (allSteps_of_forall (fun _ _ => trivial) events _) hrun
    rintro pool event pool' ⟨hnumbered, hsound, h⟩ - hstep
    exact ⟨hnumbered.step hstep, hnumbered.sound_step hstable hsound hstep,
      h.step hnumbered (fun proc hmem => (hsound proc hmem).left) hstep⟩
  exact ⟨hend.left, fun proc hmem => (hend.right.left proc hmem).left,
    (hend.right.right.outcomes hforks hsettled).symm⟩

theorem Pool.outcomes_run (hstable : M.Stable R)
    (hforks : forall op, O.parks op = true -> M.forks op = none)
    {own : Own data} {code : Program Op Res Halt alpha} {w : world}
    {pool : Pool Op Res Halt alpha data world} {events : List (Nat × choice)}
    {out : Multiset beta} (hpid : own.pid = 1) (hknown : R.known own w)
    (h : Yields M R O own code out)
    (hrun : run (Pool.step M) (Pool.single own code w) events = some pool)
    (hsettled : pool.Settled O) :
    pool.Each (fun w own _ => R.known own w) ∧
      (pool.outcomes O : Multiset beta) = out :=
  (Pool.outcomes_from hstable hforks (Pool.numbered_single hpid)
    (Pool.each_single hknown) ⟨out, 0, h, rfl, (add_zero out).symm⟩ hrun
    hsettled).right

/-- The process at a position and all the processes born later have come to
something, and the other ones are as they were. -/
structure Pool.Brought (O : Outcome Op Halt alpha data beta) (who : Nat)
    (pool pool' : Pool Op Res Halt alpha data world) : Prop where
  grown : pool.procs.length ≤ pool'.procs.length
  kept : forall k, k < pool.procs.length -> k ≠ who ->
    pool'.procs[k]? = pool.procs[k]?
  settled : forall k proc, pool'.procs[k]? = some proc ->
    k = who ∨ pool.procs.length ≤ k -> (proc.outcome O).isSome = true

theorem Pool.Brought.refl {who : Nat}
    {pool : Pool Op Res Halt alpha data world}
    {proc : Process Op Res Halt alpha data}
    (hproc : pool.procs[who]? = some proc)
    (hsome : (proc.outcome O).isSome = true) : Pool.Brought O who pool pool where
  grown := le_refl _
  kept := fun _ _ _ => rfl
  settled := by
    intro k proc' hproc' hk
    rcases hk with heq | hle
    · rw [heq, hproc] at hproc'
      injection hproc' with hproc'
      rw [← hproc']
      exact hsome
    · rw [List.getElem?_eq_none hle] at hproc'
      cases hproc'

theorem Pool.Brought.of_act {who : Nat}
    {pool mid pool' : Pool Op Res Halt alpha data world}
    {proc : Process Op Res Halt alpha data}
    (hprocs : mid.procs = pool.procs.set who proc)
    (h : Pool.Brought O who mid pool') : Pool.Brought O who pool pool' := by
  have hlength : mid.procs.length = pool.procs.length := by
    rw [hprocs, List.length_set]
  constructor
  case grown =>
    rw [← hlength]
    exact h.grown
  case kept =>
    intro k hk hne
    rw [h.kept k (by rw [hlength]; exact hk) hne, hprocs]
    exact List.getElem?_set_ne (Ne.symm hne)
  case settled =>
    intro k proc hk hlate
    rw [← hlength] at hlate
    exact h.settled k proc hk hlate

theorem Pool.Brought.of_fork {who : Nat}
    {pool mid pool1 pool2 : Pool Op Res Halt alpha data world}
    {parent child : Process Op Res Halt alpha data}
    (hprocs : mid.procs = pool.procs.set who parent ++ [child])
    (h1 : Pool.Brought O pool.procs.length mid pool1)
    (h2 : Pool.Brought O who pool1 pool2) : Pool.Brought O who pool pool2 := by
  have hlength : mid.procs.length = pool.procs.length + 1 := by
    simp [hprocs]
  have hgrown1 := h1.grown
  have hgrown2 := h2.grown
  constructor
  case grown => lia
  case kept =>
    intro k hk hne
    rw [h2.kept k (by lia) hne, h1.kept k (by lia) (Nat.ne_of_lt hk), hprocs,
      List.getElem?_append_left (by simpa using hk)]
    exact List.getElem?_set_ne (Ne.symm hne)
  case settled =>
    intro k proc hk hlate
    by_cases hborn : k = who ∨ pool1.procs.length ≤ k
    · exact h2.settled k proc hk hborn
    · rw [not_or, Nat.not_le] at hborn
      rw [h2.kept k hborn.right hborn.left] at hk
      apply h1.settled k proc hk
      lia

theorem Pool.settle_process (hstable : M.Stable R)
    (hlive : forall op own w, R.known own w -> R.needs op own ->
      M.forks op = none -> O.parks op = false ->
      exists c answer after w', M.act c op own w = some (answer, after, w'))
    [Inhabited choice] (code : Program Op Res Halt alpha)
    (pool : Pool Op Res Halt alpha data world) (who : Nat) (own : Own data)
    (hproc : pool.procs[who]? = some ⟨own, code⟩) (hnumbered : pool.Numbered)
    (hsound : pool.Each (Sound M R O)) :
    exists events pool',
      run (Pool.step M) pool events = some pool' ∧ pool'.Numbered ∧
        pool'.Each (Sound M R O) ∧
        Pool.Brought O who pool pool' := by
  induction code generalizing pool who own with
  | ret value =>
      exact ⟨[], pool, rfl, hnumbered, hsound, Pool.Brought.refl hproc rfl⟩
  | halt reason =>
      exact ⟨[], pool, rfl, hnumbered, hsound, Pool.Brought.refl hproc rfl⟩
  | call op next ih =>
      have hwho : who < pool.procs.length :=
        (List.getElem?_eq_some_iff.mp hproc).choose
      cases hforks : M.forks op with
      | none =>
          cases hparks : O.parks op with
          | true =>
              refine ⟨[], pool, rfl, hnumbered, hsound,
                Pool.Brought.refl hproc ?_⟩
              simp only [Process.outcome, hparks, if_true, Option.isSome_some]
          | false =>
              rcases hsound _ (List.mem_of_getElem? hproc) with
                ⟨hknown, out, hout⟩
              rw [Yields, hforks] at hout
              rcases hlive op own pool.world hknown hout.left hforks hparks with
                ⟨c, answer, after, w', hact⟩
              let mid : Pool Op Res Halt alpha data world :=
                { procs :=
                    pool.procs.set who
                      ⟨{ own with data := after }, next answer⟩
                  world := w' }
              have hstep : pool.step M (who, c) = some mid := by
                simp only [Pool.step, hproc, hforks, hact]
                rfl
              have hmid : mid.procs[who]? =
                  some ⟨{ own with data := after }, next answer⟩ := by
                simp only [mid, List.getElem?_set_self hwho]
              rcases ih answer mid who _ hmid (hnumbered.step hstep)
                (hnumbered.sound_step hstable hsound hstep) with
                ⟨events, pool', hrun, hnumbered', hsound', hbrought⟩
              refine ⟨(who, c) :: events, pool', ?_, hnumbered', hsound',
                hbrought.of_act rfl⟩
              rw [run_cons_of_step events hstep]
              exact hrun
      | some answer =>
          let pid := pool.procs.length + 1
          let mid : Pool Op Res Halt alpha data world :=
            { pool with
              procs :=
                pool.procs.set who ⟨M.asParent own pid, next (answer pid)⟩ ++
                  [⟨M.asChild own pid, next (answer 0)⟩] }
          have hstep : pool.step M (who, default) = some mid := by
            simp only [Pool.step, hproc, hforks]
            rfl
          have hchild : mid.procs[pool.procs.length]? =
              some ⟨M.asChild own pid, next (answer 0)⟩ := by
            simp [mid]
          have hparent : mid.procs[who]? =
              some ⟨M.asParent own pid, next (answer pid)⟩ := by
            simp only [mid]
            rw [List.getElem?_append_left (by simpa using hwho),
              List.getElem?_set_self hwho]
          have hlater : who < mid.procs.length :=
            (List.getElem?_eq_some_iff.mp hparent).choose
          -- the child and its descendants first, then the parent
          rcases ih (answer 0) mid _ _ hchild (hnumbered.step hstep)
            (hnumbered.sound_step hstable hsound hstep) with
            ⟨first, pool1, hrun1, hnumbered1, hsound1, hbrought1⟩
          rw [← hbrought1.kept who hlater (Nat.ne_of_lt hwho)] at hparent
          rcases ih (answer pid) pool1 who _ hparent hnumbered1 hsound1 with
            ⟨second, pool2, hrun2, hnumbered2, hsound2, hbrought2⟩
          refine ⟨(who, default) :: (first ++ second), pool2, ?_, hnumbered2,
            hsound2, hbrought1.of_fork rfl hbrought2⟩
          rw [run_cons_of_step _ hstep]
          exact run_append hrun1 hrun2

/-- A single process and all its descendants can be brought to something. -/
theorem Pool.can_settle (hstable : M.Stable R)
    (hlive : forall op own w, R.known own w -> R.needs op own ->
      M.forks op = none -> O.parks op = false ->
      exists c answer after w', M.act c op own w = some (answer, after, w'))
    [Inhabited choice] {own : Own data} {code : Program Op Res Halt alpha}
    {w : world} {out : Multiset beta} (hpid : own.pid = 1)
    (hknown : R.known own w) (h : Yields M R O own code out) :
    CanReach (Pool.step M) (Pool.single own code w) (Pool.Settled O) := by
  rcases Pool.settle_process hstable hlive code (Pool.single own code w) 0 own
    rfl (Pool.numbered_single hpid) (Pool.each_single ⟨hknown, out, h⟩) with
    ⟨events, pool, hrun, -, -, hbrought⟩
  refine ⟨events, pool, hrun, ?_⟩
  intro proc hmem
  rcases List.getElem?_of_mem hmem with ⟨k, hk⟩
  apply hbrought.settled k proc hk
  exact Nat.eq_zero_or_pos k

end Yields

end Pool

end Foundation
end UnixPrograms
