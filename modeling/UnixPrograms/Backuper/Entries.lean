import UnixPrograms.Foundation.Extension
import UnixPrograms.Backuper.Daemon

/-!
# The scan, entry by entry

The code of the backuper with `readdir` as an operation of its own, between the
`opendir` that answers with a stream and the work on an entry.  Where every
`readdir` takes the next entry of the list that `opendir` has answered with, it
is the code with whole lists.
-/

namespace UnixPrograms
namespace Backuper
namespace Watchers

open Foundation Program

inductive Scan where
  | readdir (source : List Dirent)

def Scan.Answer : Scan -> Type
  | readdir _ => Option Dirent × List Dirent

abbrev Code (alpha : Type) :=
  Extended Call Scan Call.Answer Scan.Answer Stop alpha

def plain {alpha : Type} (code : Backuper.Code alpha) : Code alpha :=
  embed code

def readdir (source : List Dirent) : Code (Option Dirent × List Dirent) :=
  askMore (Scan.readdir source)

def copyDirectoryWith (loop : Nat -> Bytes -> Globals -> Code Globals)
    (g : Globals) : Code Globals := do
  let g ← plain (createInotify g)
  let source ← plain (openDir g.srcPath Age.OLD)
  let dest ← plain (openDir g.destPath Age.NEW)
  let filePathSrc ← plain localArray
  let pid ← plain getpid
  loop pid filePathSrc { g with source := source, dest := dest }

def copyLoop : Nat -> Nat -> Bytes -> Globals -> Code Globals
  | 0, _, _, _ => halt Stop.outOfFuel
  | fuel + 1, pid, filePathSrc, g => do
      let (file, source) ← readdir g.source
      let g := { g with source := source }
      match file with
      | none => pure g
      | some file =>
          if pid = 0 then pure g
          else if file.name ≠ DOT ∧ file.name ≠ DOTDOT then
            let filePathSrc := makePath filePathSrc g.srcPath file.name
            if file.type &&& DT_REG ≠ 0 then do
              plain (copyFile filePathSrc g.destPath)
              copyLoop fuel pid filePathSrc g
            else if file.type &&& DT_DIR ≠ 0 then do
              let pid ← plain fork
              if pid = 0 then do
                let g :=
                  { g with
                    srcPath := makePath g.srcPath g.srcPath file.name
                    destPath := makePath g.destPath g.destPath file.name }
                let myPid ← plain getpid
                plain (daemonLog (text "New process!\t Pid: ".toList ++
                  number myPid ++ text "\t Directory: ".toList ++ g.srcPath ++
                  text "\t\n".toList))
                let g ← copyDirectoryWith (copyLoop fuel) g
                copyLoop fuel pid filePathSrc g
              else copyLoop fuel pid filePathSrc g
            else do
              plain (daemonLog (text "Dont work with such files\n".toList))
              copyLoop fuel pid filePathSrc g
          else copyLoop fuel pid filePathSrc g

def copyDirectory (fuel : Nat) : Globals -> Code Globals :=
  copyDirectoryWith (copyLoop fuel)

def eventCreate (fuel : Nat) (name : Bytes) (g : Globals) : Code Globals := do
  let filePathSrc ← plain localArray
  let filePathDest ← plain localArray
  let filePathSrc := makePath filePathSrc g.srcPath name
  let filePathDest := makePath filePathDest g.destPath name
  if (← plain (isRegular filePathSrc)) then do
    plain (copyFile filePathSrc g.destPath)
    pure g
  else if (← plain (isDirectory filePathSrc)) then do
    let pid ← plain fork
    if pid = 0 then do
      let g := { g with srcPath := filePathSrc, destPath := filePathDest }
      let myPid ← plain getpid
      plain (daemonLog (text "New process!\t Pid: ".toList ++ number myPid ++
        text "\t Directory: ".toList ++ g.srcPath ++
        text "\t(in event_create)\n".toList))
      let g ← copyDirectory fuel g
      pure { g with checkFlag := false }
    else pure g
  else pure g

def eventMoveTo (fuel : Nat) (name : Bytes) (g : Globals) : Code Globals := do
  plain (ask (Call.usleep 1000))
  eventCreate fuel name g

def handlerCode (fuel : Nat) (name : Bytes) (g : Globals) :
    Handler -> Code Globals
  | Handler.eventCreate => eventCreate fuel name g
  | Handler.eventDelete => plain (eventDelete name g)
  | Handler.eventModify => eventCreate fuel name g
  | Handler.eventMoveTo => eventMoveTo fuel name g
  | Handler.eventMoveFrom => plain (eventDelete name g)

def handleEvent (fuel : Nat) (events : Bytes) (i : Nat) (g : Globals) :
    Code Globals := do
  plain (checkFolder g)
  match checkEvent events i with
  | none => pure g
  | some dispatch => do
      plain (daemonLog (number (i + 1) ++ text ")event: ".toList ++
        dispatch.handler.word ++ text "\t file: ".toList ++ g.srcPath ++
        SLASH :: dispatch.name ++ text "\n".toList))
      handlerCode fuel dispatch.name g dispatch.handler

def forEvents (fuel : Nat) (events : Bytes) :
    Nat -> Nat -> Globals -> Code Globals
  | 0, _, g => pure g
  | left + 1, i, g =>
      if g.checkFlag = true then do
        let g ← handleEvent fuel events i g
        forEvents fuel events left (i + 1) g
      else pure g

def whileWorking (fuel : Nat) : Nat -> Globals -> Code Globals
  | 0, _ => halt Stop.outOfFuel
  | rounds + 1, g => do
      let g := { g with checkFlag := true }
      let (resRead, events) ← plain (read g.inFd)
      let count := eventCount resRead
      if count ≤ 0 then pure g
      else do
        let g ← forEvents fuel events count.toNat 0 g
        whileWorking fuel rounds g

def daemon (fuel : Nat) (g : Globals) : Code Unit := do
  let pid ← plain getpid
  let g := { g with mainPid := pid }
  plain (ask (Call.signal SIG_STOP))
  plain (ask (Call.signal SIG_CHECK))
  let g ← copyDirectory fuel g
  let g ← whileWorking fuel fuel g
  plain (finish g)

/-!
## With whole lists
-/

def taken : (op : Scan) -> op.Answer
  | Scan.readdir source => (source.head?, source.tail)

@[simp] theorem settle_plain {alpha : Type} (code : Backuper.Code alpha) :
    settle taken (plain code) = code :=
  settle_embed taken code

@[simp] theorem settle_readdir (source : List Dirent) :
    settle taken (readdir source) = ret (source.head?, source.tail) := rfl

theorem settle_copyDirectoryWith
    {loop : Nat -> Bytes -> Globals -> Code Globals}
    {loop' : Nat -> Bytes -> Globals -> Backuper.Code Globals}
    (h : forall pid filePathSrc g, settle taken (loop pid filePathSrc g) =
      loop' pid filePathSrc g) (g : Globals) :
    settle taken (copyDirectoryWith loop g) =
      Backuper.copyDirectoryWith loop' g := by
  simp only [copyDirectoryWith, Backuper.copyDirectoryWith, settle_bind,
    settle_plain, h]

theorem settle_copyLoop (fuel pid : Nat) (filePathSrc : Bytes) (g : Globals) :
    settle taken (copyLoop fuel pid filePathSrc g) =
      Backuper.copyLoop fuel pid filePathSrc g := by
  induction fuel generalizing pid filePathSrc g with
  | zero => rfl
  | succ fuel ih =>
      rw [copyLoop, Backuper.copyLoop, settle_bind, settle_readdir, ret_bind]
      cases hsource : g.source with
      | nil =>
          have hsame : ({ g with source := [] } : Globals) = g := by
            rw [← hsource]
          exact congrArg ret hsame
      | cons file entries =>
          simp only [List.head?_cons, List.tail_cons, settle_ite, settle_bind,
            settle_plain, ih, settle_copyDirectoryWith ih, pure_eq_ret,
            settle_ret]

theorem settle_eventCreate (fuel : Nat) (name : Bytes) (g : Globals) :
    settle taken (eventCreate fuel name g) =
      Backuper.eventCreate fuel name g := by
  simp only [eventCreate, Backuper.eventCreate, settle_bind, settle_plain,
    settle_ite, pure_eq_ret, settle_ret, copyDirectory, Backuper.copyDirectory,
    settle_copyDirectoryWith (settle_copyLoop fuel)]

theorem settle_handlerCode (fuel : Nat) (name : Bytes) (g : Globals)
    (handler : Handler) :
    settle taken (handlerCode fuel name g handler) =
      Handler.code fuel name g handler := by
  cases handler with
  | eventCreate | eventModify => exact settle_eventCreate fuel name g
  | eventDelete | eventMoveFrom => exact settle_plain _
  | eventMoveTo =>
      simp only [handlerCode, eventMoveTo, settle_bind, settle_eventCreate]
      rfl

theorem settle_forEvents (fuel : Nat) (events : Bytes) (left i : Nat)
    (g : Globals) :
    settle taken (forEvents fuel events left i g) =
      Backuper.forEvents fuel events left i g := by
  induction left generalizing i g with
  | zero => rfl
  | succ left ih =>
      have hevent : settle taken (handleEvent fuel events i g) =
          Backuper.handleEvent fuel events i g := by
        rw [handleEvent, Backuper.handleEvent, settle_bind, settle_plain]
        congr 1
        funext _
        cases checkEvent events i with
        | none => rfl
        | some dispatch =>
            simp only [settle_bind, settle_plain, settle_handlerCode]
      simp only [forEvents, Backuper.forEvents, settle_ite, settle_bind, hevent,
        ih, pure_eq_ret, settle_ret]

theorem settle_whileWorking (fuel rounds : Nat) (g : Globals) :
    settle taken (whileWorking fuel rounds g) =
      Backuper.whileWorking fuel rounds g := by
  induction rounds generalizing g with
  | zero => rfl
  | succ rounds ih =>
      simp only [whileWorking, Backuper.whileWorking, settle_bind, settle_plain,
        settle_ite, settle_forEvents, ih, pure_eq_ret, settle_ret]

/-- `main` starts the daemon, whose `readdir` takes the entries from the list. -/
theorem main_eq (fuel : Nat) (srcPath destPath : Bytes) :
    main fuel srcPath destPath =
      (startDaemon (Globals.start srcPath destPath) >>= fun _ =>
        settle taken (daemon fuel (Globals.start srcPath destPath))) := by
  simp only [main, daemon, settle_bind, settle_plain, copyDirectory,
    Backuper.copyDirectory, settle_copyDirectoryWith (settle_copyLoop fuel),
    settle_whileWorking]
  rfl

end Watchers
end Backuper
end UnixPrograms
