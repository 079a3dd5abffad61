import UnixPrograms.Backuper.Code

/-!
# The daemon

The start of the daemon and `main`: the launched process forks the daemon and
ends, and the daemon copies its directory and handles events until `read`
delivers none.
-/

namespace UnixPrograms
namespace Backuper

open Foundation Program

def openLog : Code Int := ask Call.openLog
def read (fd : Int) : Code (Int × Bytes) := ask (Call.read fd)

def startLog : Code Unit := do
  let logFd ← openLog
  if logFd = -1 then do
    ask (Call.print (text "Can't open fifo fifo_log for logging\n".toList))
    halt (Stop.exit 1)
  else pure ()

def startLine (pid : Nat) (g : Globals) : Bytes :=
  text "Start daemon with pid: ".toList ++ number pid ++
    text "\t Source: ".toList ++ g.srcPath ++
    text "\t Destination: ".toList ++ g.destPath ++ text "\n".toList

def startDaemon (g : Globals) : Code Unit := do
  let tmpPid ← fork
  if tmpPid ≠ 0 then do
    ask (Call.print (startLine tmpPid g))
    ask (Call.usleep 2000000)
    halt (Stop.exit 0)
  else do
    startLog
    let pid ← getpid
    daemonLog (text "\n".toList ++ startLine pid g)

/-- `count = res_read / sizeof(struct inotify_event)`: an unsigned division,
whose quotient is cut to an `int`. -/
def eventCount (resRead : Int) : Int :=
  (resRead % 2 ^ 64 / EVENT_HEADER).bmod (2 ^ 32)

/-- The `for` loop of `main` over the events from `i` on. -/
def forEvents (fuel : Nat) (events : Bytes) :
    Nat -> Nat -> Globals -> Code Globals
  | 0, _, g => pure g
  | left + 1, i, g =>
      if g.checkFlag = true then do
        let g ← handleEvent fuel events i g
        forEvents fuel events left (i + 1) g
      else pure g

def whileWorking (fuel : Nat) : Nat -> Globals -> Code Globals
  | 0, _ => halt Stop.outOfFuel
  | rounds + 1, g => do
      let g := { g with checkFlag := true }
      let (resRead, events) ← read g.inFd
      let count := eventCount resRead
      if count ≤ 0 then pure g
      else do
        let g ← forEvents fuel events count.toNat 0 g
        whileWorking fuel rounds g

def Globals.start (srcPath destPath : Bytes) : Globals where
  inFd := -1
  checkFlag := true
  srcPath := srcPath
  destPath := destPath
  source := []
  dest := []
  mainPid := 0

def main (fuel : Nat) (srcPath destPath : Bytes) : Code Unit := do
  let g := Globals.start srcPath destPath
  startDaemon g
  let pid ← getpid
  let g := { g with mainPid := pid }
  ask (Call.signal SIG_STOP)
  ask (Call.signal SIG_CHECK)
  let g ← copyDirectory fuel g
  let g ← whileWorking fuel fuel g
  finish g

def signalHandler (signal : Nat) (g : Globals) : Code Unit :=
  if signal = SIG_STOP then finish g else checkFolder g

end Backuper
end UnixPrograms
