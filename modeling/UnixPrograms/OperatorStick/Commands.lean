import UnixPrograms.OperatorStick.System

/-!
# How often a command is started

A child whose `execvp` fails returns into the loop of `main` and forks for the
commands behind its own, and so do its children.  The outcomes of the loop are
a recursion over the commands that are left.
-/

namespace UnixPrograms
namespace OperatorStick

open Foundation Program

/-!
## Code that does not change the fate of a process
-/

def SameFate (own own' : Own Private) : Prop :=
  own'.pid = own.pid ∧ fateOf own' = fateOf own

theorem SameFate.refl (own : Own Private) : SameFate own own :=
  ⟨rfl, rfl⟩

theorem SameFate.trans {own own' own'' : Own Private} (h : SameFate own own')
    (h' : SameFate own' own'') : SameFate own own'' :=
  ⟨h'.left.trans h.left, h'.right.trans h.right⟩

def Call.quiet : Call -> Bool
  | openFile _ => true
  | printf _ => true
  | fstat _ => true
  | read _ _ => true
  | close _ => true
  | pipe => true
  | dup2 _ _ => true
  | fork => false
  | execvp _ _ => false
  | image _ _ => false
  | wait => false
  | exit _ => false

def AllQuiet {alpha : Type} : Code alpha -> Prop
  | ret _ => True
  | halt _ => False
  | call op next => op.quiet = true ∧ forall answer, AllQuiet (next answer)

theorem AllQuiet.bind {alpha beta : Type} {first : Code alpha}
    {rest : alpha -> Code beta} (h : AllQuiet first)
    (h' : forall value, AllQuiet (rest value)) :
    AllQuiet (first >>= rest) := by
  induction first with
  | ret value => exact h' value
  | halt reason => exact absurd h id
  | call op next ih => exact ⟨h.left, fun answer => ih answer (h.right answer)⟩

theorem allQuiet_ask {op : Call} (h : op.quiet = true) : AllQuiet (ask op) :=
  ⟨h, fun _ => trivial⟩

theorem allQuiet_closePipesFrom (pipes : List Nat) (count i : Nat) :
    AllQuiet (closePipesFrom pipes count i) := by
  induction count generalizing i with
  | zero => trivial
  | succ count ih =>
      apply AllQuiet.bind (allQuiet_ask rfl)
      intro _
      apply AllQuiet.bind (allQuiet_ask rfl)
      intro _
      exact ih (i + 1)

theorem allQuiet_createPipesFrom (count : Nat) (pipes : List Nat) :
    AllQuiet (createPipesFrom count pipes) := by
  induction count generalizing pipes with
  | zero => trivial
  | succ count ih =>
      apply AllQuiet.bind (allQuiet_ask rfl)
      intro ends
      exact ih (pipes ++ [ends.1, ends.2])

variable {input : Input}

abbrev anyway : Rules Call Private (List Nat) :=
  Rules.local (fun _ _ => True)

theorem quiet_forks {op : Call} (h : op.quiet = true) :
    (machine input).forks op = none ∧ parks op = false := by
  cases op <;> first | exact ⟨rfl, rfl⟩ | cases h

theorem sameFate_of_quiet {op : Call} {own own' : Own Private}
    {answer : op.Answer} (h : op.quiet = true)
    (hdoes : (machine input).does anyway op own answer own') :
    SameFate own own' := by
  rw [Machine.does, (quiet_forks h).left] at hdoes
  rcases hdoes with ⟨choice, w, after, w', -, hact, heq⟩
  rw [heq]
  cases op with
  | openFile _ | printf _ | fstat _ | read _ _ | close _ | pipe | dup2 _ _ =>
      injection hact with hact
      cases hact
      exact SameFate.refl own
  | fork | execvp _ _ | image _ _ | wait | exit _ => cases h

theorem AllQuiet.yields {alpha : Type} {first : Code alpha}
    {rest : alpha -> Code Unit} {own : Own Private} {out : Multiset Fate}
    (h : AllQuiet first)
    (hrest : forall own' value, SameFate own own' ->
      Yields (machine input) anyway fates own' (rest value) out) :
    Yields (machine input) anyway fates own (first >>= rest) out := by
  induction first generalizing own with
  | ret value => exact hrest own value (SameFate.refl own)
  | halt reason => exact absurd h id
  | call op next ih =>
      have hquiet := @quiet_forks input op h.left
      apply Yields.call hquiet.left trivial
      · intro hparks
        rw [show parks op = true from hparks] at hquiet
        cases hquiet.right
      · intro answer own' hdoes
        have hsame := sameFate_of_quiet h.left hdoes
        exact ih answer (h.right answer)
          (fun own'' value h'' => hrest own'' value (hsame.trans h''))

/-!
## The operations at which a process stays or ends
-/

theorem does_iff {op : Call} {own own' : Own Private} {answer : op.Answer}
    {needs : Call -> Own Private -> Prop}
    (hforks : (machine input).forks op = none) :
    (machine input).does (Rules.local needs) op own answer own' <->
      exists choice w after w',
        act input choice op own w = some (answer, after, w') ∧
          own' = { own with data := after } := by
  rw [Machine.does, hforks]
  constructor
  · rintro ⟨choice, w, after, w', -, hact, heq⟩
    exact ⟨choice, w, after, w', hact, heq⟩
  · rintro ⟨choice, w, after, w', hact, heq⟩
    exact ⟨choice, w, after, w', trivial, hact, heq⟩

theorem yields_exit (own : Own Private) (status : Nat) :
    Yields (machine input) anyway fates own (exit status) {fateOf own} := by
  change Yields (machine input) anyway fates own
    (ask (Call.exit status) >>= ret) {fateOf own}
  apply Yields.ask rfl trivial rfl
  intro choice w answer after w' _ hact
  injection hact with hact
  cases hact
  exact rfl

theorem yields_waitChildren {rest : Code Unit} (count : Nat) {own : Own Private}
    (hrest : forall own', SameFate own own' ->
      Yields (machine input) anyway fates own' rest {fateOf own}) :
    Yields (machine input) anyway fates own
      (waitChildren count >>= fun _ => rest) {fateOf own} := by
  induction count generalizing own with
  | zero => exact hrest own (SameFate.refl own)
  | succ count ih =>
      apply Yields.call rfl trivial
      · intro _
        rfl
      · intro answer own' hdoes
        have hsame : SameFate own own' := by
          rcases (does_iff rfl).mp hdoes with ⟨choice, w, after, w', hact, heq⟩
          rw [heq]
          simp only [act] at hact
          split at hact
          case isTrue _ =>
            injection hact with hact
            cases hact
            exact SameFate.refl own
          case isFalse _ =>
            split at hact
            case isTrue _ =>
              injection hact with hact
              cases hact
              exact ⟨rfl, rfl⟩
            case isFalse _ => cases hact
        rw [← hsame.right]
        apply ih
        intro own'' h''
        rw [hsame.right]
        exact hrest own'' (hsame.trans h'')

def Fate.tried (fate : Fate) (id : Nat) : Fate :=
  { fate with attempts := fate.attempts ++ [id] }

theorem yields_execvp {rest : Code Unit} {own : Own Private} {id : Nat}
    {argv : List Bytes} {out : Multiset Fate}
    (hok : execOf input id argv ≠ Exec.returned ->
      out = {(fateOf own).tried id})
    (hfail : execOf input id argv = Exec.returned ->
      forall own', own'.pid = own.pid ->
        fateOf own' = (fateOf own).tried id ->
        Yields (machine input) anyway fates own' rest out) :
    Yields (machine input) anyway fates own
      (execvp id argv >>= fun _ => rest) out := by
  apply Yields.call rfl trivial
  · intro hparks
    cases hparks
  · intro answer own' hdoes
    rcases (does_iff rfl).mp hdoes with ⟨choice, w, after, w', hact, heq⟩
    simp only [act] at hact
    rw [heq]
    cases hexec : execOf input id argv with
    | returned =>
        rw [hexec] at hact
        cases hact
        exact hfail hexec _ rfl rfl
    | killed =>
        rw [hexec] at hact
        cases hact
        rw [hok (by rw [hexec]; exact Exec.noConfusion)]
        exact rfl
    | replaced =>
        rw [hexec] at hact
        cases hact
        rw [hok (by rw [hexec]; exact Exec.noConfusion)]
        apply Yields.call rfl trivial
        · intro _
          rfl
        · intro _ own'' hdoes
          rcases (does_iff rfl).mp hdoes with ⟨choice, w, after, w', hact, heq⟩
          injection hact with hact
          cases hact
          rw [heq]
          exact rfl

theorem allQuiet_redirectInput (pipes : List Nat) (id : Nat) :
    AllQuiet (redirectInput pipes id) := by
  rw [redirectInput]
  split
  case isTrue _ => exact allQuiet_ask rfl
  case isFalse _ => trivial

theorem allQuiet_redirectOutput (pipes : List Nat) (count id : Nat) :
    AllQuiet (redirectOutput pipes count id) := by
  rw [redirectOutput]
  split
  case isTrue _ => exact allQuiet_ask rfl
  case isFalse _ => trivial

theorem yields_doSubcoms {rest : Code Unit} {own : Own Private}
    {command : Bytes} {pipes : List Nat} {count id : Nat} {out : Multiset Fate}
    (hok : execOf input id (tokens SPACE command) ≠ Exec.returned ->
      out = {(fateOf own).tried id})
    (hfail : execOf input id (tokens SPACE command) = Exec.returned ->
      forall own', own'.pid = own.pid ->
        fateOf own' = (fateOf own).tried id ->
        Yields (machine input) anyway fates own' rest out) :
    Yields (machine input) anyway fates own
      (doSubcoms command pipes count id >>= fun _ => rest) out := by
  have hexec : forall own', SameFate own own' ->
      Yields (machine input) anyway fates own'
        (execvp id (tokens SPACE command) >>= fun _ => rest) out := by
    intro own' hsame
    apply yields_execvp
    · rw [hsame.right]
      exact hok
    · intro hfails own'' hpid hfate
      rw [hsame.right] at hfate
      exact hfail hfails own'' (hpid.trans hsame.left) hfate
  simp only [doSubcoms, bind_assoc]
  apply (allQuiet_redirectInput pipes id).yields
  intro own1 _ h1
  apply (allQuiet_redirectOutput pipes count id).yields
  intro own2 _ h2
  apply (allQuiet_closePipesFrom pipes count 0).yields
  intro own3 _ h3
  exact hexec own3 ((h1.trans h2).trans h3)

/-!
## The loop
-/

/-- The fates of a process that has the commands from `i` on before it, and of
all its descendants. -/
def loopFates (input : Input) : Nat -> Nat -> Fate -> Multiset Fate
  | 0, _, fate => {fate}
  | todo + 1, i, fate =>
      let child : Fate :=
        { attempts := [i]
          isOriginal := false
          ofOriginal := fate.isOriginal
          forks := 0 }
      loopFates input todo (i + 1) { fate with forks := fate.forks + 1 } +
        (if input.returns i = true then
          loopFates input todo (i + 1) child
        else {child})

theorem yields_fork {next : Nat -> Code Unit} {own : Own Private}
    {parents childs : Multiset Fate}
    (h : forall pid, own.pid < pid ->
      Yields (machine input) anyway fates ((machine input).asParent own pid)
          (next pid) parents ∧
        Yields (machine input) anyway fates ((machine input).asChild own pid)
          (next 0) childs) :
    Yields (machine input) anyway fates own (fork >>= next)
      (parents + childs) :=
  @Yields.fork _ _ _ _ _ _ _ _ (machine input) anyway fates own Call.fork
    next (fun pid => pid) parents childs rfl h

theorem commandLoop_bind {pipes : List Nat} {count todo i : Nat}
    {allCommands command left : Bytes} (rest : Code Unit)
    (hnext : strtok BAR allCommands = some (command, left)) :
    (commandLoop pipes count (todo + 1) i allCommands >>= fun _ => rest) =
      (fork >>= fun pid =>
        if pid = 0 then
          doSubcoms command pipes count i >>= fun _ =>
            commandLoop pipes count todo (i + 1) left >>= fun _ => rest
        else commandLoop pipes count todo (i + 1) left >>= fun _ => rest) := by
  simp only [commandLoop, hnext, bind_assoc, ite_bind]

theorem next_command {todo i : Nat} {allCommands : Bytes}
    (hleft : tokens BAR allCommands = (tokens BAR input.allCommands).drop i)
    (htodo : (tokens BAR allCommands).length = todo + 1) :
    exists command left,
      strtok BAR allCommands = some (command, left) ∧
        input.words i = tokens SPACE command ∧
        tokens BAR left = (tokens BAR input.allCommands).drop (i + 1) ∧
        (tokens BAR left).length = todo := by
  rw [tokens_eq] at hleft htodo
  cases hnext : strtok BAR allCommands with
  | none =>
      rw [hnext] at htodo
      cases htodo
  | some found =>
      rcases found with ⟨command, left⟩
      rw [hnext] at hleft htodo
      have hget : (tokens BAR input.allCommands)[i]? = some command := by
        rw [← List.head?_drop, ← hleft]
        rfl
      refine ⟨command, left, rfl, ?_, ?_, Nat.succ_injective htodo⟩
      · rw [Input.words, List.getD_eq_getElem?_getD, hget]
        rfl
      · rw [← List.tail_drop, ← hleft]
        rfl

theorem yields_commandLoop {pipes : List Nat} {count : Nat} {rest : Code Unit}
    (hrest : forall own, Yields (machine input) anyway fates own rest
      {fateOf own})
    {todo i : Nat} {allCommands : Bytes}
    (hleft : tokens BAR allCommands = (tokens BAR input.allCommands).drop i)
    (htodo : (tokens BAR allCommands).length = todo) (own : Own Private)
    (hpid : 0 < own.pid) :
    Yields (machine input) anyway fates own
      (commandLoop pipes count todo i allCommands >>= fun _ => rest)
      (loopFates input todo i (fateOf own)) := by
  induction todo generalizing i allCommands own with
  | zero => exact hrest own
  | succ todo ih =>
      rcases next_command hleft htodo with
        ⟨command, left, hnext, hwords, hleft', htodo'⟩
      rw [loopFates, commandLoop_bind rest hnext]
      apply yields_fork
      intro pid hlater
      constructor
      · -- the parent goes on with the next command
        have hpositive : pid ≠ 0 := by lia
        rw [if_neg hpositive]
        exact ih hleft' htodo' ((machine input).asParent own pid) hpid
      · have hchild : (fateOf ((machine input).asChild own pid)).tried i =
            { attempts := [i]
              isOriginal := false
              ofOriginal := (fateOf own).isOriginal
              forks := 0 } := by
          have hyoung : decide (pid = 1) = false :=
            decide_eq_false (by lia)
          change Fate.mk [i] (decide (pid = 1)) (decide (own.pid = 1)) 0 = _
          rw [hyoung]
          rfl
        rw [if_pos rfl]
        apply yields_doSubcoms
        · intro hok
          have hreturns : input.returns i = false := by
            rw [Input.returns, hwords]
            exact decide_eq_false hok
          rw [hreturns, hchild]
          rfl
        · intro hfail own' hpid' hfate
          have hreturns : input.returns i = true := by
            rw [Input.returns, hwords]
            exact decide_eq_true hfail
          rw [hreturns, if_pos rfl, ← hchild, ← hfate]
          apply ih hleft' htodo'
          rw [hpid']
          exact Nat.lt_of_le_of_lt (Nat.zero_le _) hlater

theorem process_eq (program path : Bytes) :
    process [program, path] =
      (openFile path >>= fun fd =>
        fstat fd >>= fun fdSize =>
        read fd (fdSize - 1) >>= fun allCommands =>
        close fd >>= fun _ =>
        createPipes (getComsCount allCommands) >>= fun pipes =>
        commandLoop pipes (getComsCount allCommands)
            (getComsCount allCommands) 0 allCommands >>= fun _ =>
        closePipes pipes (getComsCount allCommands) >>= fun _ =>
        waitChildren (getComsCount allCommands) >>= fun _ =>
        exit 0) := by
  simp only [process, main, myOpen, myRead, bind_assoc, pure_eq_ret, ret_bind]

theorem yields_read {fd count : Nat} {rest : Bytes -> Code Unit}
    {own : Own Private} {out : Multiset Fate}
    (h : Yields (machine input) anyway fates own (rest input.allCommands)
      out) :
    Yields (machine input) anyway fates own (read fd count >>= rest) out := by
  apply Yields.value rfl trivial rfl
  · intro choice w
    rfl
  · intro choice
    exact h

theorem yields_process (program path : Bytes) (inherited : Inheritance) :
    Yields (machine input) anyway fates (original inherited)
      (process [program, path])
      (loopFates input input.count 0 (fateOf (original inherited))) := by
  have htail : forall pipes own,
      Yields (machine input) anyway fates own
        (closePipes pipes input.count >>= fun _ =>
          waitChildren input.count >>= fun _ => exit 0) {fateOf own} := by
    intro pipes own
    apply (allQuiet_closePipesFrom pipes input.count 0).yields
    intro own1 _ h1
    rw [← h1.right]
    apply yields_waitChildren
    intro own2 h2
    rw [← h2.right]
    exact yields_exit own2 0
  rw [process_eq]
  apply (allQuiet_ask rfl).yields
  intro own1 fd h1
  apply (allQuiet_ask rfl).yields
  intro own2 fdSize h2
  apply yields_read
  apply (allQuiet_ask rfl).yields
  intro own3 _ h3
  apply (allQuiet_createPipesFrom input.count []).yields
  intro own4 pipes h4
  have hsame := ((h1.trans h2).trans h3).trans h4
  rw [← hsame.right]
  apply yields_commandLoop (htail pipes)
  · rfl
  · rfl
  · rw [hsame.left]
    exact Nat.one_pos

/-!
## Counting attempts

A child whose `execvp` returns stays in the loop.  Each such command doubles the
number of processes that go on to the next one.
-/

def attemptsIn (out : Multiset Fate) (id : Nat) : Nat :=
  (out.map (fun fate => fate.attempts.count id)).sum

theorem attemptsIn_add (first second : Multiset Fate) (id : Nat) :
    attemptsIn (first + second) id =
      attemptsIn first id + attemptsIn second id := by
  rw [attemptsIn, Multiset.map_add, Multiset.sum_add]
  rfl

theorem attemptsIn_singleton (fate : Fate) (id : Nat) :
    attemptsIn {fate} id = fate.attempts.count id := by
  rw [attemptsIn, Multiset.map_singleton, Multiset.sum_singleton]

def failsBetween (input : Input) (i id : Nat) : Nat :=
  (List.range' i (id - i)).countP (fun k => input.returns k)

theorem failsBetween_self (input : Input) (i : Nat) :
    failsBetween input i i = 0 := by
  rw [failsBetween, Nat.sub_self]
  rfl

theorem failsBetween_of_lt (input : Input) {i id : Nat} (h : i < id) :
    failsBetween input i id =
      failsBetween input (i + 1) id +
        if input.returns i = true then 1 else 0 := by
  have hlength : id - i = id - (i + 1) + 1 := by lia
  rw [failsBetween, failsBetween, hlength, List.range'_succ, List.countP_cons]

/-- A command is tried once by each of the processes that the failing ones
before it have left in the loop, and each of these doubles their number. -/
theorem attemptsIn_loopFates (input : Input) (todo i : Nat) (fate : Fate)
    (id : Nat) :
    attemptsIn (loopFates input todo i fate) id =
      fate.attempts.count id +
        if i ≤ id ∧ id < i + todo then 2 ^ failsBetween input i id else 0 := by
  induction todo generalizing i fate with
  | zero =>
      have hempty : ¬ (i ≤ id ∧ id < i + 0) := by lia
      rw [loopFates, attemptsIn_singleton, if_neg hempty, Nat.add_zero]
  | succ todo ih =>
      have hown : List.count id [i] = if i = id then 1 else 0 := by
        rw [List.count_singleton]
        simp only [beq_iff_eq]
      rw [loopFates, attemptsIn_add, ih]
      rcases Nat.lt_trichotomy id i with h | h | h
      · -- the command has been passed
        have hbefore : ¬ (i + 1 ≤ id ∧ id < i + 1 + todo) := by lia
        have hbefore' : ¬ (i ≤ id ∧ id < i + (todo + 1)) := by lia
        have hne : i ≠ id := Nat.ne_of_gt h
        rw [if_neg hbefore, if_neg hbefore']
        split
        case isTrue _ =>
          rw [ih, hown, if_neg hbefore, if_neg hne]
        case isFalse _ =>
          rw [attemptsIn_singleton, hown, if_neg hne]
      · -- the command of this turn is tried by the child alone
        have hlater : ¬ (i + 1 ≤ id ∧ id < i + 1 + todo) := by lia
        have hnow : i ≤ id ∧ id < i + (todo + 1) := by lia
        have hfirst : failsBetween input i id = 0 := by
          rw [h]
          exact failsBetween_self input i
        rw [if_neg hlater, if_pos hnow, hfirst, pow_zero]
        rw [if_pos h.symm] at hown
        split
        case isTrue _ =>
          rw [ih, hown, if_neg hlater]
          rfl
        case isFalse _ =>
          rw [attemptsIn_singleton, hown]
          rfl
      · have hne : i ≠ id := Nat.ne_of_lt h
        have hsame : (i ≤ id ∧ id < i + (todo + 1)) <->
            (i + 1 ≤ id ∧ id < i + 1 + todo) := by lia
        simp only [hsame, failsBetween_of_lt input h]
        split
        case isTrue hin =>
          split
          case isTrue _ =>
            rw [ih, hown, if_neg hne, if_pos hin, pow_succ]
            lia
          case isFalse _ =>
            rw [attemptsIn_singleton, hown, if_neg hne]
            rfl
        case isFalse hout =>
          split
          case isTrue _ => rw [ih, hown, if_neg hne, if_neg hout]
          case isFalse _ => rw [attemptsIn_singleton, hown, if_neg hne]

theorem mem_loopFates {input : Input} {todo i : Nat} {fate fate' : Fate}
    (hok : forall k, i ≤ k -> k + 1 < i + todo -> input.returns k = false)
    (hmem : fate' ∈ loopFates input todo i fate) :
    fate' = { fate with forks := fate.forks + todo } ∨
      exists id,
        fate' =
          { attempts := [id]
            isOriginal := false
            ofOriginal := fate.isOriginal
            forks := 0 } := by
  induction todo generalizing i fate with
  | zero => exact Or.inl (Multiset.mem_singleton.mp hmem)
  | succ todo ih =>
      rcases Multiset.mem_add.mp hmem with hparent | hchild
      · rcases ih (fun k hle hlt => hok k (by lia) (by lia)) hparent with
          heq | hrest
        · left
          rw [heq, Nat.add_assoc, Nat.add_comm 1]
        · exact Or.inr hrest
      · right
        exists i
        split at hchild
        case isTrue hfails =>
          cases todo with
          | zero => exact Multiset.mem_singleton.mp hchild
          | succ todo =>
              rw [hok i (le_refl i) (by lia)] at hfails
              cases hfails
        case isFalse _ => exact Multiset.mem_singleton.mp hchild

/-!
## Main results
-/

/-- Each command has been tried once in all, by a child of the original
process, and the original process has forked once for each. -/
structure StartedOnce (input : Input) (pool : StickPool) : Prop where
  once : forall id, id < input.count ->
    (pool.procs.map (fun proc => proc.own.data.attempts.count id)).sum = 1
  byChild : forall proc, proc ∈ pool.procs ->
    proc.own.data.attempts ≠ [] -> proc.own.parent = 1
  forks : forall proc, proc ∈ pool.procs -> proc.own.pid = 1 ->
    proc.own.data.forks = input.count

theorem outcomes_eq_fates {pool : StickPool} (hsettled : pool.Settled fates) :
    pool.outcomes fates = pool.procs.map (fun proc => fateOf proc.own) := by
  rw [Pool.outcomes, ← List.filterMap_eq_map]
  apply List.filterMap_congr
  intro proc hmem
  have hsome := hsettled proc hmem
  rcases proc with ⟨own, code⟩
  cases code with
  | ret value => rfl
  | halt reason => rfl
  | call op next =>
      simp only [Process.outcome] at hsome ⊢
      split
      case isTrue _ => rfl
      case isFalse hstays =>
        rw [if_neg hstays] at hsome
        cases hsome

theorem fates_run {input : Input} {program path : Bytes}
    {inherited : Inheritance} {events : List (Nat × Nat)} {pool : StickPool}
    (hrun : run (Pool.step (machine input)) (pipeline program path inherited)
      events = some pool) (hsettled : pool.Settled fates) :
    ((pool.procs.map (fun proc => fateOf proc.own) : List Fate) :
        Multiset Fate) =
      loopFates input input.count 0 (fateOf (original inherited)) := by
  rw [← outcomes_eq_fates hsettled]
  have hforks : forall op, fates.parks op = true ->
      (machine input).forks op = none := by
    intro op hparks
    cases op <;> first | rfl | cases hparks
  exact (Pool.outcomes_run ((machine input).stable_local _) hforks rfl trivial
    (yields_process program path inherited) hrun hsettled).right

theorem startedOnce_iff {input : Input} {program path : Bytes}
    {inherited : Inheritance} {events : List (Nat × Nat)} {pool : StickPool}
    (hrun : run (Pool.step (machine input)) (pipeline program path inherited)
      events = some pool) (hsettled : pool.Settled fates) :
    StartedOnce input pool <->
      forall i, i + 1 < input.count -> input.returns i = false := by
  have hfates := fates_run hrun hsettled
  have hattempts : forall id, id < input.count ->
      (pool.procs.map (fun proc => proc.own.data.attempts.count id)).sum =
        2 ^ failsBetween input 0 id := by
    intro id hid
    have hcount := attemptsIn_loopFates input input.count 0
      (fateOf (original inherited)) id
    rw [← hfates, if_pos ⟨Nat.zero_le id, by lia⟩, attemptsIn,
      Multiset.map_coe, Multiset.sum_coe, List.map_map] at hcount
    exact hcount.trans (Nat.zero_add _)
  constructor
  · intro h i hi
    have hone := h.once (i + 1) hi
    rw [hattempts (i + 1) hi, Nat.pow_eq_one] at hone
    have hnone : failsBetween input 0 (i + 1) = 0 :=
      hone.resolve_left (by decide)
    rw [failsBetween, List.countP_eq_zero] at hnone
    exact Bool.eq_false_iff.mpr (hnone i (by simp))
  · intro hok
    have hmem : forall proc, proc ∈ pool.procs ->
        fateOf proc.own =
            { fateOf (original inherited) with forks := 0 + input.count } ∨
          exists id,
            fateOf proc.own =
              { attempts := [id]
                isOriginal := false
                ofOriginal := true
                forks := 0 } := by
      intro proc hproc
      have hin : fateOf proc.own ∈
          loopFates input input.count 0 (fateOf (original inherited)) := by
        rw [← hfates, Multiset.mem_coe]
        exact List.mem_map_of_mem hproc
      exact mem_loopFates (fun k _ hk => hok k (by lia)) hin
    constructor
    case once =>
      intro id hid
      have hnone : failsBetween input 0 id = 0 := by
        rw [failsBetween, List.countP_eq_zero]
        intro k hk
        rw [List.mem_range'_1] at hk
        exact Bool.eq_false_iff.mp (hok k (by lia))
      rw [hattempts id hid, hnone, pow_zero]
    case byChild =>
      intro proc hproc htried
      rcases hmem proc hproc with heq | ⟨id, heq⟩
      · exact absurd (congrArg Fate.attempts heq) htried
      · exact of_decide_eq_true (congrArg Fate.ofOriginal heq)
    case forks =>
      intro proc hproc hpid
      rcases hmem proc hproc with heq | ⟨id, heq⟩
      · exact (congrArg Fate.forks heq).trans (Nat.zero_add _)
      · have hnot := of_decide_eq_false (congrArg Fate.isOriginal heq)
        exact absurd hpid hnot

theorem act_enabled {input : Input} {op : Call} (own : Own Private)
    (exited : List Nat) (h : parks op = false) :
    exists choice answer after exited',
      act input choice op own exited = some (answer, after, exited') := by
  cases op with
  | wait => cases h
  | image _ _ => cases h
  | execvp id argv =>
      cases hexec : execOf input id argv <;>
        exact ⟨0, _, _, _, by simp only [act, hexec]; rfl⟩
  | _ => exact ⟨0, _, _, _, rfl⟩

theorem pipeline_settles (input : Input) (program path : Bytes)
    (inherited : Inheritance) :
    CanReach (Pool.step (machine input)) (pipeline program path inherited)
      (Pool.Settled fates) := by
  apply Pool.can_settle ((machine input).stable_local _) ?_ rfl trivial
    (yields_process program path inherited)
  intro op own exited _ _ _ hparks
  exact act_enabled own exited hparks

def missingFirst : Input where
  allCommands := text ['x', '|', 'y']
  missing := fun id => id = 0

def terminal : Inheritance where
  fds := [some (File.inherited 0), some (File.inherited 1),
    some (File.inherited 2)]
  standard := by decide
  foreign := by
    intro fd f h
    rcases fd with _ | _ | _ | fd
    · exact ⟨0, (Option.some.inj h).symm⟩
    · exact ⟨1, (Option.some.inj h).symm⟩
    · exact ⟨2, (Option.some.inj h).symm⟩
    · cases h

end OperatorStick
end UnixPrograms
