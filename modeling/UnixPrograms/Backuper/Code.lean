import UnixPrograms.Foundation.Program
import UnixPrograms.Foundation.Decimal
import UnixPrograms.Backuper.Events

/-!
# The code of the backuper

The functions of `backuper.c` that a watching process runs.  A local array
enters with what the stack held, a directory stream is the list of the entries
that it has still to deliver, and the child processes that run `cp` and `rm`
belong to the calls that wait for them.
-/

namespace UnixPrograms
namespace Backuper

open Foundation

/-- `struct dirent`: `d_name` and `d_type`. -/
structure Dirent where
  name : Bytes
  type : UInt8
deriving DecidableEq

def DT_DIR : UInt8 := 4
def DT_REG : UInt8 := 8

def S_IFMT : UInt32 := 0xF000
def S_IFDIR : UInt32 := 0x4000
def S_IFREG : UInt32 := 0x8000
def S_IRWXU : Nat := 0o700

def IN_DELETE_SELF : UInt32 := 0x400
def IN_MOVE_SELF : UInt32 := 0x800

def SIG_STOP : Nat := 2
def SIG_CHECK : Nat := 12

def watchMask : UInt32 :=
  IN_CREATE ||| IN_DELETE ||| IN_MODIFY ||| IN_DELETE_SELF ||| IN_MOVE_SELF |||
    IN_MOVED_TO ||| IN_MOVED_FROM

/-!
## What the code asks of its surroundings
-/

inductive Call where
  | localArray
  | log (message : Bytes)
  | lstat (path : Bytes)
  | opendir (path : Bytes)
  | closedir
  | mkdir (path : Bytes) (mode : Nat)
  /-- `fork`, `execlp("cp", ...)` and `waitpid`. -/
  | cp (source dest : Bytes)
  /-- `fork`, `execlp("rm", "rm", "-r", ...)` and `waitpid`. -/
  | rm (path : Bytes)
  | fork
  | getpid
  | setgid (group : Nat)
  | killpg (group signal : Nat)
  | inotifyInit
  | inotifyAddWatch (fd : Int) (path : Bytes) (mask : UInt32)
  | close (fd : Int)
  | usleep (duration : Nat)
  | print (message : Bytes)
  /-- `open(my_fifo, O_WRONLY)`. -/
  | openLog
  /-- `signal` with the handler of the signal. -/
  | signal (number : Nat)
  /-- `read` into the array of events. -/
  | read (fd : Int)
deriving DecidableEq

/-- The answers: `lstat` leaves its result and the field `st_mode`, `opendir` a
stream or `NULL`, and `read` its result and the array. -/
def Call.Answer : Call -> Type
  | localArray => Bytes
  | log _ => Unit
  | lstat _ => Int × UInt32
  | opendir _ => Option (List Dirent)
  | closedir => Unit
  | mkdir _ _ => Int
  | cp _ _ => Unit
  | rm _ => Unit
  | fork => Nat
  | getpid => Nat
  | setgid _ => Unit
  | killpg _ _ => Unit
  | inotifyInit => Int
  | inotifyAddWatch _ _ _ => Int
  | close _ => Unit
  | usleep _ => Unit
  | print _ => Unit
  | openLog => Int
  | signal _ => Unit
  | read _ => Int × Bytes

inductive Stop where
  | exit (status : Nat)
  | outOfFuel
deriving DecidableEq

abbrev Code (alpha : Type) := Program Call Call.Answer Stop alpha

structure Globals where
  inFd : Int
  checkFlag : Bool
  srcPath : Bytes
  destPath : Bytes
  source : List Dirent
  dest : List Dirent
  mainPid : Nat
deriving DecidableEq

open Program

def localArray : Code Bytes := ask Call.localArray
def lstat (path : Bytes) : Code (Int × UInt32) := ask (Call.lstat path)
def opendir (path : Bytes) : Code (Option (List Dirent)) :=
  ask (Call.opendir path)
def mkdir (path : Bytes) (mode : Nat) : Code Int := ask (Call.mkdir path mode)
def fork : Code Nat := ask Call.fork
def getpid : Code Nat := ask Call.getpid
def inotifyInit : Code Int := ask Call.inotifyInit
def inotifyAddWatch (fd : Int) (path : Bytes) (mask : UInt32) : Code Int :=
  ask (Call.inotifyAddWatch fd path mask)

def daemonLog (message : Bytes) : Code Unit := ask (Call.log message)

def exit (status : Nat) : Code Unit := halt (Stop.exit status)

def number (n : Nat) : Bytes := decimal n

def sendChildren (signal : Nat) : Code Unit := do
  let myPid ← getpid
  ask (Call.setgid (myPid + 1))
  ask (Call.killpg myPid signal)

def isRegular (path : Bytes) : Code Bool := do
  let (_, mode) ← lstat path
  if mode &&& S_IFMT ≠ S_IFREG then pure false else pure true

def isDirectory (path : Bytes) : Code Bool := do
  let (_, mode) ← lstat path
  if mode &&& S_IFMT ≠ S_IFDIR then pure false else pure true

/-- The `flag` of `open_dir`. -/
inductive Age where
  | OLD
  | NEW
deriving DecidableEq

def openDir (path : Bytes) (flag : Age) : Code (List Dirent) := do
  let dir ← opendir path
  let dir ←
    if flag = Age.NEW ∧ dir = none then do
      let check ← mkdir path S_IRWXU
      if check ≠ 0 then do
        let pid ← getpid
        daemonLog (text "Can't create directory ".toList ++ path ++
          text "\tPid: ".toList ++ number pid ++ text "\n".toList)
        exit 1
      opendir path
    else pure dir
  match dir with
  | none => do
      let pid ← getpid
      daemonLog (text "Can't open directory ".toList ++ path ++
        text "\tPid: ".toList ++ number pid ++ text "\n".toList)
      halt (Stop.exit 1)
  | some dir => pure dir

def SLASH : UInt8 := 47

/-- The string that `make_path` leaves in `file_path`. -/
def makePath (filePath dirPath name : Bytes) : Bytes :=
  (if filePath ≠ dirPath then dirPath else filePath) ++ SLASH :: name

def copyFile (source dest : Bytes) : Code Unit := do
  daemonLog (text "Copy file: ".toList ++ source ++ text " to ".toList ++ dest ++
    text "\n".toList)
  ask (Call.cp source dest)

def createInotify (g : Globals) : Code Globals := do
  let fd ← inotifyInit
  if fd < 0 then do
    daemonLog (text "Can't create iniotify\n".toList)
    exit 1
  let watch ← inotifyAddWatch fd g.srcPath watchMask
  if watch < 0 then do
    daemonLog (text "Can't add watch\n".toList)
    exit 1
  pure { g with inFd := fd }

def DOT : Bytes := [46]
def DOTDOT : Bytes := [46, 46]

/-- `copy_directory` around its loop, which is given `pid` and
`file_path_src`. -/
def copyDirectoryWith (loop : Nat -> Bytes -> Globals -> Code Globals)
    (g : Globals) : Code Globals := do
  let g ← createInotify g
  let source ← openDir g.srcPath Age.OLD
  let dest ← openDir g.destPath Age.NEW
  let filePathSrc ← localArray
  let pid ← getpid
  loop pid filePathSrc { g with source := source, dest := dest }

def copyLoop : Nat -> Nat -> Bytes -> Globals -> Code Globals
  | 0, _, _, _ => halt Stop.outOfFuel
  | fuel + 1, pid, filePathSrc, g =>
      match g.source with
      | [] => pure g
      | file :: entries =>
          let g := { g with source := entries }
          if pid = 0 then pure g
          else if file.name ≠ DOT ∧ file.name ≠ DOTDOT then
            let filePathSrc := makePath filePathSrc g.srcPath file.name
            if file.type &&& DT_REG ≠ 0 then do
              copyFile filePathSrc g.destPath
              copyLoop fuel pid filePathSrc g
            else if file.type &&& DT_DIR ≠ 0 then do
              let pid ← fork
              if pid = 0 then do
                let g :=
                  { g with
                    srcPath := makePath g.srcPath g.srcPath file.name
                    destPath := makePath g.destPath g.destPath file.name }
                let myPid ← getpid
                daemonLog (text "New process!\t Pid: ".toList ++ number myPid ++
                  text "\t Directory: ".toList ++ g.srcPath ++
                  text "\t\n".toList)
                let g ← copyDirectoryWith (copyLoop fuel) g
                copyLoop fuel pid filePathSrc g
              else copyLoop fuel pid filePathSrc g
            else do
              daemonLog (text "Dont work with such files\n".toList)
              copyLoop fuel pid filePathSrc g
          else copyLoop fuel pid filePathSrc g

def copyDirectory (fuel : Nat) : Globals -> Code Globals :=
  copyDirectoryWith (copyLoop fuel)

def del (path : Bytes) : Code Unit := do
  daemonLog (text "Delete: ".toList ++ path ++ text "\n".toList)
  ask (Call.rm path)
  sendChildren SIG_CHECK

def isAlife (path : Bytes) : Code Bool := do
  let (res, _) ← lstat path
  if res = -1 then pure false else pure true

def finish (g : Globals) : Code Unit := do
  if (← isAlife g.srcPath) then ask Call.closedir
  if (← isAlife g.destPath) then ask Call.closedir
  ask (Call.close g.inFd)
  sendChildren SIG_STOP
  let pid ← getpid
  daemonLog (text "End of watching!\t Pid: ".toList ++ number pid ++
    text "\t Directory: ".toList ++ g.srcPath ++ text "\n".toList)
  let pid ← getpid
  if pid = g.mainPid then do
    ask (Call.usleep 1000000)
    daemonLog (text "END OF BACKUP!\tFolder:".toList ++ g.srcPath ++
      text "\n\n".toList)
  exit 0

def checkFolder (g : Globals) : Code Unit := do
  if ¬ (← isAlife g.srcPath) then finish g

/-!
## The handlers
-/

def eventCreate (fuel : Nat) (name : Bytes) (g : Globals) : Code Globals := do
  let filePathSrc ← localArray
  let filePathDest ← localArray
  let filePathSrc := makePath filePathSrc g.srcPath name
  let filePathDest := makePath filePathDest g.destPath name
  if (← isRegular filePathSrc) then do
    copyFile filePathSrc g.destPath
    pure g
  else if (← isDirectory filePathSrc) then do
    let pid ← fork
    if pid = 0 then do
      let g := { g with srcPath := filePathSrc, destPath := filePathDest }
      let myPid ← getpid
      daemonLog (text "New process!\t Pid: ".toList ++ number myPid ++
        text "\t Directory: ".toList ++ g.srcPath ++
        text "\t(in event_create)\n".toList)
      let g ← copyDirectory fuel g
      pure { g with checkFlag := false }
    else pure g
  else pure g

def eventDelete (name : Bytes) (g : Globals) : Code Globals := do
  let path ← localArray
  del (makePath path g.destPath name)
  pure g

def eventModify (fuel : Nat) (name : Bytes) (g : Globals) : Code Globals :=
  eventCreate fuel name g

def eventMoveTo (fuel : Nat) (name : Bytes) (g : Globals) : Code Globals := do
  ask (Call.usleep 1000)
  eventCreate fuel name g

def eventMoveFrom (name : Bytes) (g : Globals) : Code Globals :=
  eventDelete name g

def Handler.word : Handler -> Bytes
  | eventCreate => text "create".toList
  | eventDelete => text "delete".toList
  | eventModify => text "modify".toList
  | eventMoveTo => text "move_to".toList
  | eventMoveFrom => text "move_from".toList

def Handler.code (fuel : Nat) (name : Bytes) (g : Globals) :
    Handler -> Code Globals
  | eventCreate => Backuper.eventCreate fuel name g
  | eventDelete => Backuper.eventDelete name g
  | eventModify => Backuper.eventModify fuel name g
  | eventMoveTo => Backuper.eventMoveTo fuel name g
  | eventMoveFrom => Backuper.eventMoveFrom name g

/-- The body of the `for` loop of `main` on the event at `i`: `check_folder`,
then the branch that `check_event` takes. -/
def handleEvent (fuel : Nat) (events : Bytes) (i : Nat) (g : Globals) :
    Code Globals := do
  checkFolder g
  match checkEvent events i with
  | none => pure g
  | some dispatch => do
      daemonLog (number (i + 1) ++ text ")event: ".toList ++
        dispatch.handler.word ++ text "\t file: ".toList ++ g.srcPath ++
        SLASH :: dispatch.name ++ text "\n".toList)
      dispatch.handler.code fuel dispatch.name g

end Backuper
end UnixPrograms
