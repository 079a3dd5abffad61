import UnixPrograms.Backuper.Daemon
import UnixPrograms.Backuper.Disk

/-!
# The family of the daemon

The launched process and all processes that it has become, however the system
calls answer and whenever signals arrive.  `send_children` sends its signal to
the process group that is named by the caller's identifier, while every process
stays in the group of the launched process.
-/

namespace UnixPrograms
namespace Backuper
namespace Family

open Foundation Program

/-- A process beside its identifiers: its process group, the signals that it
catches, and whether its directory is watched. -/
structure Self where
  group : Nat
  caught : List Nat
  watching : Bool
deriving DecidableEq

structure Reply where
  result : Int
  mode : UInt32
  array : Bytes
  stream : Option (List Dirent)

/-- One operation.  `setgid` changes no process group, and who gets the signal
of `killpg` is said by `signalled`. -/
def act (reply : Reply) :
    (op : Call) -> Own Self -> Unit -> Option (op.Answer × Self × Unit)
  | Call.localArray, own, _ => some (reply.array, own.data, ())
  | Call.log _, own, _ => some ((), own.data, ())
  | Call.lstat _, own, _ => some ((reply.result, reply.mode), own.data, ())
  | Call.opendir _, own, _ => some (reply.stream, own.data, ())
  | Call.closedir, own, _ => some ((), own.data, ())
  | Call.mkdir _ _, own, _ => some (reply.result, own.data, ())
  | Call.cp _ _, own, _ => some ((), own.data, ())
  | Call.rm _, own, _ => some ((), own.data, ())
  | Call.fork, _, _ => none
  | Call.getpid, own, _ => some (own.pid, own.data, ())
  | Call.setgid _, own, _ => some ((), own.data, ())
  | Call.killpg _ _, own, _ => some ((), own.data, ())
  | Call.inotifyInit, own, _ => some (reply.result, own.data, ())
  | Call.inotifyAddWatch _ _ _, own, _ =>
      some
        (reply.result,
          { own.data with watching := decide (0 ≤ reply.result) }, ())
  | Call.close _, own, _ =>
      some ((), { own.data with watching := false }, ())
  | Call.usleep _, own, _ => some ((), own.data, ())
  | Call.print _, own, _ => some ((), own.data, ())
  | Call.openLog, own, _ => some (reply.result, own.data, ())
  | Call.signal number, own, _ =>
      some ((), { own.data with caught := number :: own.data.caught }, ())
  | Call.read _, own, _ => some ((reply.result, reply.array), own.data, ())

/-- A child is born into the group of its parent and catches the same signals;
it has no watch of its own yet. -/
def machine : Machine Call Call.Answer Self Unit Reply where
  forks := forks
  kept := fun own _ => own.data
  copied := fun own => { own.data with watching := false }
  act := act

abbrev Member := Process Call Call.Answer Stop Unit Self

abbrev Household := Pool Call Call.Answer Stop Unit Self Unit

def running (proc : Member) : Bool := proc.code.nextOp.isSome

def watches (proc : Member) : Bool :=
  running proc && proc.own.data.watching

/-- A process takes a step, or a signal arrives at it.  The handler finds some
values of the global variables; a signal that is not caught ends the
process. -/
inductive Happening where
  | turn (who : Nat) (reply : Reply)
  | signal (who number : Nat) (g : Globals)

def happen (pool : Household) : Happening -> Option Household
  | Happening.turn who reply => Pool.step machine pool (who, reply)
  | Happening.signal who number g =>
      match pool.procs[who]? with
      | none => none
      | some proc =>
          if running proc = true then
            some
              { pool with
                procs :=
                  pool.procs.set who
                    { proc with
                      code :=
                        if number ∈ proc.own.data.caught then
                          signalHandler number g >>= fun _ => proc.code
                        else halt (Stop.exit (128 + number)) } }
          else none

def launcher : Own Self where
  pid := 1
  parent := 0
  data :=
    { group := 1
      caught := []
      watching := false }

def launched (fuel : Nat) (srcPath destPath : Bytes) : Household :=
  Pool.single launcher (main fuel srcPath destPath) ()

inductive ForkedBy (procs : List Member) (caller : Nat) : Nat -> Prop where
  | child {proc : Member} :
      proc ∈ procs -> proc.own.parent = caller ->
      ForkedBy procs caller proc.own.pid
  | descendant {pid : Nat} {proc : Member} :
      ForkedBy procs caller pid -> proc ∈ procs -> proc.own.parent = pid ->
      ForkedBy procs caller proc.own.pid

def signalled (pool : Household) (group : Nat) : List Nat :=
  (pool.procs.filter
    (fun proc => running proc && proc.own.data.group = group)).map
    (fun proc => proc.own.pid)

def Ward (pool : Household) (caller : Nat) (proc : Member) : Prop :=
  proc ∈ pool.procs ∧ watches proc = true ∧
    ForkedBy pool.procs caller proc.own.pid

def ReachesWards (pool : Household) (caller group : Nat) : Prop :=
  forall proc, Ward pool caller proc -> proc.own.pid ∈ signalled pool group

/-!
## What the code does with groups and signals
-/

/-- A signal goes to the caller's own group, and only processes after the
launched one send or catch signals. -/
def Needs : Call -> Nat -> Prop
  | Call.killpg group _, pid => group = pid ∧ 1 < pid
  | Call.signal _, pid => 1 < pid
  | _, _ => True

def Does : (op : Call) -> Nat -> op.Answer -> Nat -> Prop
  | Call.fork, pid, answer, pid' =>
      exists child, pid < child ∧
        (answer = child ∧ pid' = pid ∨ answer = (0 : Nat) ∧ pid' = child)
  | Call.getpid, pid, answer, pid' => answer = pid ∧ pid' = pid
  | _, pid, _, pid' => pid' = pid

def calls : Contract Call Call.Answer Nat where
  needs := Needs
  does := Does

abbrev Obeys {alpha : Type} (post : Nat -> alpha -> Prop) (pid : Nat)
    (code : Code alpha) : Prop :=
  Ensures calls (fun _ _ => True) post pid code

section Code

variable {alpha : Type} {pid : Nat}

def plain : Call -> Bool
  | Call.fork => false
  | Call.getpid => false
  | Call.killpg _ _ => false
  | Call.signal _ => false
  | _ => true

theorem obeys_ask {op : Call} (hplain : plain op = true)
    {post : Nat -> op.Answer -> Prop} (h : forall answer, post pid answer) :
    Obeys post pid (ask op) := by
  cases op with
  | fork => cases hplain
  | getpid => cases hplain
  | killpg group signal => cases hplain
  | signal number => cases hplain
  | _ =>
      constructor
      · trivial
      · intro answer pid' hdoes
        rw [show pid' = pid from hdoes]
        exact h answer

theorem obeys_getpid {post : Nat -> Nat -> Prop} (h : post pid pid) :
    Obeys post pid getpid := by
  constructor
  · trivial
  · rintro answer pid' ⟨hanswer, hpid⟩
    rw [hanswer, hpid]
    exact h

theorem obeys_fork {post : Nat -> Nat -> Prop}
    (h : forall child, pid < child -> post pid child ∧ post child 0) :
    Obeys post pid fork := by
  constructor
  · trivial
  · rintro answer pid' ⟨child, hlater, ⟨hanswer, hpid⟩ | ⟨hanswer, hpid⟩⟩
    · rw [hanswer, hpid]
      exact (h child hlater).left
    · rw [hanswer, hpid]
      exact (h child hlater).right

theorem obeys_sendChildren {post : Nat -> Unit -> Prop} {signal : Nat}
    (hpid : 1 < pid) (h : post pid ()) :
    Obeys post pid (sendChildren signal) := by
  apply Ensures.bind
  apply obeys_getpid
  apply Ensures.bind
  apply obeys_ask rfl
  intro _
  constructor
  · exact ⟨rfl, hpid⟩
  · intro answer pid' hdoes
    rw [show pid' = pid from hdoes]
    exact h

theorem obeys_log {post : Nat -> Unit -> Prop} {message : Bytes}
    (h : post pid ()) : Obeys post pid (daemonLog message) :=
  @obeys_ask pid (Call.log message) rfl post (fun _ => h)

theorem obeys_isAlife {post : Nat -> Bool -> Prop} {path : Bytes}
    (h : forall alive, post pid alive) : Obeys post pid (isAlife path) := by
  apply Ensures.bind
  apply @obeys_ask pid (Call.lstat path) rfl
  rintro ⟨res, mode⟩
  apply Ensures.ite <;> exact fun _ => h _

theorem obeys_if {beta : Type} {post : Nat -> alpha -> Prop} {condition : Prop}
    [Decidable condition] {first : Code beta} {rest : beta -> Code alpha}
    {other : Code alpha}
    (hfirst : forall post' : Nat -> beta -> Prop,
      (forall value, post' pid value) -> Obeys post' pid first)
    (hrest : forall value, Obeys post pid (rest value))
    (hother : Obeys post pid other) :
    Obeys post pid (if condition then first >>= rest else other) := by
  apply Ensures.ite
  · intro _
    apply Ensures.bind
    exact hfirst _ hrest
  · intro _
    exact hother

theorem obeys_finish {post : Nat -> Unit -> Prop} {g : Globals}
    (hpid : 1 < pid) : Obeys post pid (finish g) := by
  unfold finish
  extract_lets done goodbye dest
  have hclosedir : forall post' : Nat -> Unit -> Prop,
      (forall value, post' pid value) -> Obeys post' pid (ask Call.closedir) :=
    fun post' h => @obeys_ask pid Call.closedir rfl post' h
  have hdone : forall r, Obeys post pid (done r) := fun _ => trivial
  have hgoodbye : forall r, Obeys post pid (goodbye r) := by
    intro _
    apply Ensures.bind
    apply @obeys_ask pid (Call.close g.inFd) rfl
    intro _
    apply Ensures.bind
    apply obeys_sendChildren hpid
    apply Ensures.bind
    apply obeys_getpid
    apply Ensures.bind
    apply obeys_log
    apply Ensures.bind
    apply obeys_getpid
    apply Ensures.ite
    · intro _
      apply Ensures.bind
      apply @obeys_ask pid (Call.usleep 1000000) rfl
      intro _
      apply Ensures.bind
      apply obeys_log
      exact hdone ()
    · intro _
      exact hdone ()
  have hdest : forall r, Obeys post pid (dest r) := by
    intro _
    apply Ensures.bind
    apply obeys_isAlife
    intro alive
    exact obeys_if hclosedir hgoodbye (hgoodbye ())
  apply Ensures.bind
  apply obeys_isAlife
  intro alive
  exact obeys_if hclosedir hdest (hdest ())

theorem obeys_checkFolder {post : Nat -> Unit -> Prop} {g : Globals}
    (hpid : 1 < pid) (h : post pid ()) :
    Obeys post pid (checkFolder g) := by
  apply Ensures.bind
  apply obeys_isAlife
  intro alive
  apply Ensures.ite
  · intro _
    exact obeys_finish hpid
  · intro _
    exact h

theorem obeys_signalHandler {post : Nat -> Unit -> Prop} {number : Nat}
    {g : Globals} (hpid : 1 < pid) (h : post pid ()) :
    Obeys post pid (signalHandler number g) := by
  apply Ensures.ite
  · intro _
    exact obeys_finish hpid
  · intro _
    exact obeys_checkFolder hpid h

theorem obeys_copyFile {post : Nat -> Unit -> Prop} {source dest : Bytes}
    (h : post pid ()) : Obeys post pid (copyFile source dest) := by
  apply Ensures.bind
  apply obeys_log
  exact @obeys_ask pid (Call.cp source dest) rfl post (fun _ => h)

theorem obeys_openDir {post : Nat -> List Dirent -> Prop} {path : Bytes}
    {flag : Age} (h : forall stream, post pid stream) :
    Obeys post pid (openDir path flag) := by
  unfold openDir
  extract_lets opened again
  have hopened : forall dir, Obeys post pid (opened dir) := by
    intro dir
    cases dir with
    | some stream => exact h stream
    | none =>
        apply Ensures.bind
        apply obeys_getpid
        apply Ensures.bind
        apply obeys_log
        trivial
  have hagain : forall r, Obeys post pid (again r) := by
    intro _
    apply Ensures.bind
    exact @obeys_ask pid (Call.opendir path) rfl _ hopened
  apply Ensures.bind
  apply @obeys_ask pid (Call.opendir path) rfl
  intro (dir : Option (List Dirent))
  apply Ensures.ite
  · intro _
    apply Ensures.bind
    apply @obeys_ask pid (Call.mkdir path S_IRWXU) rfl
    intro (check : Int)
    apply Ensures.ite
    · intro _
      apply Ensures.bind
      apply obeys_getpid
      apply Ensures.bind
      apply obeys_log
      trivial
    · intro _
      exact hagain ()
  · intro _
    exact hopened dir

theorem obeys_createInotify {post : Nat -> Globals -> Prop} {g : Globals}
    (h : forall g', post pid g') : Obeys post pid (createInotify g) := by
  apply Ensures.bind
  apply @obeys_ask pid Call.inotifyInit rfl
  intro (fd : Int)
  apply Ensures.ite
  · intro _
    apply Ensures.bind
    apply obeys_log
    trivial
  · intro _
    apply Ensures.bind
    apply @obeys_ask pid (Call.inotifyAddWatch fd g.srcPath watchMask) rfl
    intro (watch : Int)
    apply Ensures.ite
    · intro _
      apply Ensures.bind
      apply obeys_log
      trivial
    · intro _
      exact h _

def LoopObeys (fuel : Nat) : Prop :=
  forall {pid : Nat} {post : Nat -> Globals -> Prop} (last : Nat)
    (array : Bytes) (g : Globals), 1 < pid ->
    (forall pid' g', 1 < pid' -> post pid' g') ->
    Obeys post pid (copyLoop fuel last array g)

theorem obeys_copyDirectoryWith {fuel : Nat} (hloop : LoopObeys fuel)
    {post : Nat -> Globals -> Prop} {g : Globals} (hpid : 1 < pid)
    (h : forall pid' g', 1 < pid' -> post pid' g') :
    Obeys post pid (copyDirectoryWith (copyLoop fuel) g) := by
  apply Ensures.bind
  apply obeys_createInotify
  intro g
  apply Ensures.bind
  apply obeys_openDir
  intro source
  apply Ensures.bind
  apply obeys_openDir
  intro dest
  apply Ensures.bind
  apply @obeys_ask pid Call.localArray rfl
  intro array
  apply Ensures.bind
  apply obeys_getpid
  exact hloop pid array _ hpid h

theorem loopObeys (fuel : Nat) : LoopObeys fuel := by
  induction fuel with
  | zero =>
      intro pid post last array g _ _
      trivial
  | succ fuel ih =>
      intro pid post last array g hpid h
      rw [copyLoop]
      split
      · exact h pid g hpid
      · rename_i file entries _
        apply Ensures.ite
        · intro _
          exact h pid _ hpid
        · intro _
          apply Ensures.ite
          · intro _
            apply Ensures.ite
            · intro _
              apply Ensures.bind
              apply obeys_copyFile
              exact ih last _ _ hpid h
            · intro _
              apply Ensures.ite
              · intro _
                apply Ensures.bind
                apply obeys_fork
                intro child hchild
                constructor
                · rw [if_neg (by lia)]
                  exact ih child _ _ hpid h
                · rw [if_pos rfl]
                  have hlater : 1 < child := Nat.lt_trans hpid hchild
                  apply Ensures.bind
                  apply obeys_getpid
                  apply Ensures.bind
                  apply obeys_log
                  apply Ensures.bind
                  apply obeys_copyDirectoryWith ih hlater
                  intro pid' g' hpid'
                  exact ih 0 _ g' hpid' h
              · intro _
                apply Ensures.bind
                apply obeys_log
                exact ih last _ _ hpid h
          · intro _
            exact ih last _ _ hpid h

theorem obeys_isRegular {post : Nat -> Bool -> Prop} {path : Bytes}
    (h : forall regular, post pid regular) :
    Obeys post pid (isRegular path) := by
  apply Ensures.bind
  apply @obeys_ask pid (Call.lstat path) rfl
  rintro ⟨res, mode⟩
  apply Ensures.ite <;> exact fun _ => h _

theorem obeys_isDirectory {post : Nat -> Bool -> Prop} {path : Bytes}
    (h : forall directory, post pid directory) :
    Obeys post pid (isDirectory path) := by
  apply Ensures.bind
  apply @obeys_ask pid (Call.lstat path) rfl
  rintro ⟨res, mode⟩
  apply Ensures.ite <;> exact fun _ => h _

theorem obeys_eventCreate {fuel : Nat} {post : Nat -> Globals -> Prop}
    {name : Bytes} {g : Globals} (hpid : 1 < pid)
    (h : forall pid' g', 1 < pid' -> post pid' g') :
    Obeys post pid (eventCreate fuel name g) := by
  apply Ensures.bind
  apply @obeys_ask pid Call.localArray rfl
  intro arraySrc
  apply Ensures.bind
  apply @obeys_ask pid Call.localArray rfl
  intro arrayDest
  apply Ensures.bind
  apply obeys_isRegular
  intro regular
  apply Ensures.ite
  · intro _
    apply Ensures.bind
    apply obeys_copyFile
    exact h pid g hpid
  · intro _
    apply Ensures.bind
    apply obeys_isDirectory
    intro directory
    apply Ensures.ite
    · intro _
      apply Ensures.bind
      apply obeys_fork
      intro child hchild
      constructor
      · rw [if_neg (by lia)]
        exact h pid g hpid
      · rw [if_pos rfl]
        apply Ensures.bind
        apply obeys_getpid
        apply Ensures.bind
        apply obeys_log
        apply Ensures.bind
        apply obeys_copyDirectoryWith (loopObeys fuel)
          (Nat.lt_trans hpid hchild)
        exact fun pid' g' hpid' => h pid' _ hpid'
    · intro _
      exact h pid g hpid

theorem obeys_eventDelete {post : Nat -> Globals -> Prop} {name : Bytes}
    {g : Globals} (hpid : 1 < pid) (h : post pid g) :
    Obeys post pid (eventDelete name g) := by
  apply Ensures.bind
  apply @obeys_ask pid Call.localArray rfl
  intro array
  apply Ensures.bind
  apply Ensures.bind
  apply obeys_log
  apply Ensures.bind
  apply @obeys_ask pid (Call.rm _) rfl
  intro _
  exact obeys_sendChildren hpid h

theorem obeys_handler {fuel : Nat} {post : Nat -> Globals -> Prop}
    {kind : Handler} {name : Bytes} {g : Globals} (hpid : 1 < pid)
    (h : forall pid' g', 1 < pid' -> post pid' g') :
    Obeys post pid (kind.code fuel name g) := by
  cases kind with
  | eventCreate => exact obeys_eventCreate hpid h
  | eventModify => exact obeys_eventCreate hpid h
  | eventMoveTo =>
      apply Ensures.bind
      apply @obeys_ask pid (Call.usleep 1000) rfl
      intro _
      exact obeys_eventCreate hpid h
  | eventDelete => exact obeys_eventDelete hpid (h pid g hpid)
  | eventMoveFrom => exact obeys_eventDelete hpid (h pid g hpid)

theorem obeys_handleEvent {fuel : Nat} {post : Nat -> Globals -> Prop}
    {events : Bytes} {i : Nat} {g : Globals} (hpid : 1 < pid)
    (h : forall pid' g', 1 < pid' -> post pid' g') :
    Obeys post pid (handleEvent fuel events i g) := by
  apply Ensures.bind
  apply obeys_checkFolder hpid
  split
  · exact h pid g hpid
  · apply Ensures.bind
    apply obeys_log
    exact obeys_handler hpid h

/-!
## The daemon
-/

theorem obeys_forEvents {fuel left i : Nat} {post : Nat -> Globals -> Prop}
    {events : Bytes} {g : Globals} (hpid : 1 < pid)
    (h : forall pid' g', 1 < pid' -> post pid' g') :
    Obeys post pid (forEvents fuel events left i g) := by
  induction left generalizing pid i g with
  | zero => exact h pid g hpid
  | succ left ih =>
      apply Ensures.ite
      · intro _
        apply Ensures.bind
        apply obeys_handleEvent hpid
        intro pid' g' hpid'
        exact ih hpid'
      · intro _
        exact h pid g hpid

theorem obeys_whileWorking {fuel rounds : Nat} {post : Nat -> Globals -> Prop}
    {g : Globals} (hpid : 1 < pid)
    (h : forall pid' g', 1 < pid' -> post pid' g') :
    Obeys post pid (whileWorking fuel rounds g) := by
  induction rounds generalizing pid g with
  | zero => trivial
  | succ rounds ih =>
      apply Ensures.bind
      apply @obeys_ask pid (Call.read g.inFd) rfl
      rintro ⟨resRead, events⟩
      apply Ensures.ite
      · intro _
        exact h pid _ hpid
      · intro _
        apply Ensures.bind
        apply obeys_forEvents hpid
        intro pid' g' hpid'
        exact ih hpid'

theorem obeys_startDaemon {post : Nat -> Unit -> Prop} {g : Globals}
    (h : forall pid', pid < pid' -> post pid' ()) :
    Obeys post pid (startDaemon g) := by
  apply Ensures.bind
  apply obeys_fork
  intro child hchild
  constructor
  · rw [if_pos (by lia)]
    apply Ensures.bind
    apply @obeys_ask pid (Call.print _) rfl
    intro _
    apply Ensures.bind
    apply @obeys_ask pid (Call.usleep 2000000) rfl
    intro _
    trivial
  · rw [if_neg (by simp)]
    apply Ensures.bind
    apply Ensures.bind
    apply @obeys_ask child Call.openLog rfl
    intro (logFd : Int)
    apply Ensures.ite
    · intro _
      apply Ensures.bind
      apply @obeys_ask child (Call.print _) rfl
      intro _
      trivial
    · intro _
      apply Ensures.bind
      apply obeys_getpid
      apply obeys_log
      exact h child hchild

theorem obeys_main (fuel : Nat) (srcPath destPath : Bytes) :
    Obeys (fun _ _ => True) 1 (main fuel srcPath destPath) := by
  have hsignal : forall {pid number : Nat} {post : Nat -> Unit -> Prop},
      1 < pid -> post pid () -> Obeys post pid (ask (Call.signal number)) := by
    intro pid number post hpid h
    refine ⟨hpid, ?_⟩
    intro answer pid' hdoes
    rw [show pid' = pid from hdoes]
    exact h
  apply Ensures.bind
  apply obeys_startDaemon
  intro pid hpid
  apply Ensures.bind
  apply obeys_getpid
  apply Ensures.bind
  apply hsignal hpid
  apply Ensures.bind
  apply hsignal hpid
  apply Ensures.bind
  apply obeys_copyDirectoryWith (loopObeys fuel) hpid
  intro pid g hpid
  apply Ensures.bind
  apply obeys_whileWorking hpid
  intro pid g hpid
  exact obeys_finish hpid

end Code

/-!
## All processes stay in one group

`setgid` changes no process group, so that all processes stay in the group of the
launched one, and `killpg` of a pid other than that one reaches nobody.
-/

/-- What holds of every process: it is in the first group, it catches signals
only if it is not the launched one, and its code keeps to its own
identifier. -/
structure Tame (own : Own Self) (code : Code Unit) : Prop where
  group : own.data.group = 1
  catches : own.data.caught ≠ [] -> 1 < own.pid
  code : Obeys (fun _ _ => True) own.pid code

theorem does_of_act {op : Call} {own : Own Self} {reply : Reply}
    {answer : op.Answer} {after : Self} {w w' : Unit}
    (hact : act reply op own w = some (answer, after, w')) :
    Does op own.pid answer own.pid := by
  cases op with
  | getpid =>
      cases hact
      exact ⟨rfl, rfl⟩
  | fork => cases hact
  | _ => rfl

theorem Tame.act {own : Own Self} {op : Call}
    {next : op.Answer -> Code Unit} {reply : Reply} {answer : op.Answer}
    {after : Self} {w w' : Unit} (h : Tame own (Program.call op next))
    (hact : act reply op own w = some (answer, after, w')) :
    Tame { own with data := after } (next answer) := by
  have hcode := h.code.right answer own.pid (does_of_act hact)
  have hneeds : Needs op own.pid := h.code.left
  cases op with
  | signal number =>
      cases hact
      exact ⟨h.group, fun _ => hneeds, hcode⟩
  | fork => cases hact
  | _ =>
      cases hact
      exact ⟨h.group, h.catches, hcode⟩

theorem Tame.fork {own : Own Self} {op : Call}
    {next : op.Answer -> Code Unit} {answer : Nat -> op.Answer} {pid : Nat}
    (h : Tame own (Program.call op next)) (hforks : forks op = some answer)
    (hpid : own.pid < pid) :
    Tame (machine.asParent own pid) (next (answer pid)) ∧
      Tame (machine.asChild own pid) (next (answer 0)) := by
  cases op with
  | fork =>
      injection hforks with hforks
      subst hforks
      constructor
      · exact ⟨h.group, h.catches,
          h.code.right pid own.pid ⟨pid, hpid, Or.inl ⟨rfl, rfl⟩⟩⟩
      · exact ⟨h.group, fun hne => Nat.lt_trans (h.catches hne) hpid,
          h.code.right (0 : Nat) pid ⟨pid, hpid, Or.inr ⟨rfl, rfl⟩⟩⟩
  | _ => cases hforks

theorem Tame.signal {own : Own Self} {code : Code Unit} (h : Tame own code)
    (number : Nat) (g : Globals) :
    Tame own
      (if number ∈ own.data.caught then
        signalHandler number g >>= fun _ => code
      else halt (Stop.exit (128 + number))) := by
  refine ⟨h.group, h.catches, ?_⟩
  apply Ensures.ite
  · intro hcaught
    apply Ensures.bind
    exact obeys_signalHandler (h.catches (List.ne_nil_of_mem hcaught)) h.code
  · intro _
    trivial

def AllTame (pool : Household) : Prop :=
  pool.Numbered ∧ forall proc, proc ∈ pool.procs -> Tame proc.own proc.code

theorem allTame_step {pool pool' : Household} {happening : Happening}
    (h : AllTame pool) (hstep : happen pool happening = some pool') :
    AllTame pool' := by
  rcases h with ⟨hnumbered, htame⟩
  cases happening with
  | turn who reply =>
      refine ⟨hnumbered.step hstep, ?_⟩
      have heach : pool.Each (fun _ own code => Tame own code) := htame
      refine Pool.Each.step ?_ ?_ ?_ hnumbered heach hstep
      · intro w own op next answer pid hown hforks hpid
        exact hown.fork hforks hpid
      · intro w own op next reply answer after w' hown _ hact
        exact hown.act hact
      · intro w own code actor op next reply answer after w' hown _ _ _
        exact hown
  | signal who number g =>
      simp only [happen] at hstep
      split at hstep
      · cases hstep
      · rename_i proc hproc
        split at hstep
        · injection hstep with hstep
          subst hstep
          constructor
          · exact hnumbered.set hproc rfl rfl
          · intro proc' hmem
            rcases List.mem_or_eq_of_mem_set hmem with hkept | heq
            · exact htame proc' hkept
            · rw [heq]
              exact (htame proc (List.mem_of_getElem? hproc)).signal number g
        · cases hstep

theorem allTame_launched (fuel : Nat) (srcPath destPath : Bytes) :
    AllTame (launched fuel srcPath destPath) := by
  refine ⟨Pool.numbered_single rfl, ?_⟩
  intro proc hmem
  rw [List.mem_singleton.mp hmem]
  exact ⟨rfl, fun hne => absurd rfl hne, obeys_main fuel srcPath destPath⟩

/-- In whatever state of whatever run a process is about to send a signal with
`send_children`: the signal reaches all watching processes that it has forked
exactly if there are none. -/
theorem signals_reach {fuel : Nat} {srcPath destPath : Bytes}
    {happenings : List Happening} {pool : Household}
    (hrun : run happen (launched fuel srcPath destPath) happenings = some pool)
    {proc : Member} (hproc : proc ∈ pool.procs) {group signal : Nat}
    (hcall : proc.code.nextOp = some (Call.killpg group signal)) :
    ReachesWards pool proc.own.pid group <->
      ¬ exists ward, Ward pool proc.own.pid ward := by
  have htame : AllTame pool :=
    run_invariant AllTame (fun _ _ _ h _ hstep => allTame_step h hstep)
      (allTame_launched fuel srcPath destPath)
      (allSteps_of_forall (fun _ _ => trivial) happenings _) hrun
  have hcaller : group = proc.own.pid ∧ 1 < proc.own.pid := by
    have hcode := (htame.right proc hproc).code
    rcases proc with ⟨own, code⟩
    cases code with
    | ret value => cases hcall
    | halt reason => cases hcall
    | call op next =>
        injection hcall with hcall
        subst hcall
        exact hcode.left
  have hnobody : signalled pool group = [] := by
    simp only [signalled, List.map_eq_nil_iff, List.filter_eq_nil_iff]
    intro other hother
    have hgroup := (htame.right other hother).group
    have hne : other.own.data.group ≠ group := by
      lia
    simp [hne]
  constructor
  · rintro hreaches ⟨ward, hward⟩
    have hmem := hreaches ward hward
    rw [hnobody] at hmem
    cases hmem
  · intro hnone ward hward
    exact absurd ⟨ward, hward⟩ hnone

/-!
## Stopping the daemon
-/

def answering (result : Int) (stream : List Dirent) : Reply where
  result := result
  mode := S_IFDIR
  array := []
  stream := some stream

def daemonStarts (entries : List Dirent) : List Happening :=
  Happening.turn 0 (answering 0 []) ::
    (List.replicate 8 (answering 3 []) ++ [answering 3 entries] ++
      List.replicate 3 (answering 3 [])).map (Happening.turn 1)

def daemonStops : List Happening :=
  Happening.signal 1 SIG_STOP (Globals.start (text ['s']) (text ['d'])) ::
    List.replicate 7 (Happening.turn 1 (answering 0 []))

theorem not_forkedBy {procs : List Member} {caller : Nat}
    (h : forall proc, proc ∈ procs -> proc.own.parent ≠ caller) {pid : Nat} :
    ¬ ForkedBy procs caller pid := by
  intro hforked
  induction hforked with
  | child hmem hparent => exact h _ hmem hparent
  | descendant _ _ _ ih => exact ih

theorem signals_reach_empty :
    exists pool proc,
      run happen (launched 9 (text ['s']) (text ['d']))
          (daemonStarts [] ++ daemonStops) = some pool ∧
        proc ∈ pool.procs ∧
        proc.code.nextOp = some (Call.killpg proc.own.pid SIG_STOP) ∧
        ReachesWards pool proc.own.pid proc.own.pid := by
  have hrun : exists pool,
      run happen (launched 9 (text ['s']) (text ['d']))
          (daemonStarts [] ++ daemonStops) = some pool ∧
        (pool.procs[1]?.map
          (fun proc => (proc.own.pid, proc.code.nextOp))) =
            some (2, some (Call.killpg 2 SIG_STOP)) ∧
        forall proc, proc ∈ pool.procs -> proc.own.parent ≠ 2 := by
    decide +kernel
  rcases hrun with ⟨pool, hrun, hproc, hparent⟩
  rcases Option.map_eq_some_iff.mp hproc with ⟨proc, hproc, heq⟩
  injection heq with hpid hcall
  have hmem := List.mem_of_getElem? hproc
  have hnone : ¬ exists ward, Ward pool proc.own.pid ward := by
    rw [hpid]
    rintro ⟨ward, _, _, hforked⟩
    exact not_forkedBy hparent hforked
  have hreaches := (signals_reach hrun hmem hcall).mpr hnone
  rw [← hpid] at hcall
  refine ⟨pool, proc, hrun, hmem, hcall, ?_⟩
  rw [hpid] at hreaches ⊢
  exact hreaches

/-- The daemon watches a directory and its child the one directory in it; a
stop of the daemon does not reach the child. -/
theorem stop_misses_child :
    exists pool proc ward,
      run happen (launched 9 (text ['s']) (text ['d']))
          (daemonStarts [{ name := text ['a'], type := DT_DIR }] ++
            [Happening.turn 1 (answering 0 [])] ++
            List.replicate 4 (Happening.turn 2 (answering 3 [])) ++
            daemonStops) = some pool ∧
        proc ∈ pool.procs ∧
        proc.code.nextOp = some (Call.killpg 2 SIG_STOP) ∧
        Ward pool proc.own.pid ward ∧
        ¬ ReachesWards pool proc.own.pid 2 := by
  have hrun : exists pool,
      run happen (launched 9 (text ['s']) (text ['d']))
          (daemonStarts [{ name := text ['a'], type := DT_DIR }] ++
            [Happening.turn 1 (answering 0 [])] ++
            List.replicate 4 (Happening.turn 2 (answering 3 [])) ++
            daemonStops) = some pool ∧
        (pool.procs[1]?.map
          (fun proc => (proc.own.pid, proc.code.nextOp))) =
            some (2, some (Call.killpg 2 SIG_STOP)) ∧
        (pool.procs[2]?.map
          (fun proc => (proc.own.parent, watches proc))) = some (2, true) ∧
        signalled pool 2 = [] := by
    decide +kernel
  rcases hrun with ⟨pool, hrun, hproc, hward, hnobody⟩
  rcases Option.map_eq_some_iff.mp hproc with ⟨proc, hproc, heq⟩
  rcases Option.map_eq_some_iff.mp hward with ⟨ward, hward, heq'⟩
  injection heq with hpid hcall
  injection heq' with hparent hwatches
  have hmem := List.mem_of_getElem? hward
  have hchild : Ward pool proc.own.pid ward :=
    ⟨hmem, hwatches, ForkedBy.child hmem (hparent.trans hpid.symm)⟩
  refine ⟨pool, proc, ward, hrun, List.mem_of_getElem? hproc, hcall, hchild,
    ?_⟩
  intro hreaches
  have hreached := hreaches ward hchild
  rw [hnobody] at hreached
  cases hreached

end Family
end Backuper
end UnixPrograms
