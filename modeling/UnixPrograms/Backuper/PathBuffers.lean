import UnixPrograms.Foundation.Annotation
import UnixPrograms.Backuper.Daemon

/-!
# The arrays for paths

The code of the backuper with a note wherever it builds a string in an array
of `PATH_SIZE` or `lOG_SIZE` bytes, and where a name comes from outside: as an
argument, as an entry of a directory or with an event.
-/

namespace UnixPrograms
namespace Backuper
namespace Noting

open Foundation Program

def PATH_SIZE : Nat := 128
def LOG_SIZE : Nat := 512

inductive Buffer where
  | srcPath
  | destPath
  /-- The arrays that are local to a function. -/
  | filePath
  | logStr
deriving DecidableEq

def Buffer.size : Buffer -> Nat
  | logStr => LOG_SIZE
  | _ => PATH_SIZE

inductive Note where
  | arguments (srcPath destPath : Bytes)
  /-- `readdir` has delivered an entry. -/
  | entry (srcPath destPath : Bytes) (file : Dirent)
  /-- `check_event` calls a handler. -/
  | event (srcPath destPath : Bytes) (dispatch : Dispatch)
  | store (buffer : Buffer) (string : Bytes)
deriving DecidableEq

abbrev Code (alpha : Type) := Annotated Call Note Call.Answer Stop alpha

/-- The messages are built in `log_str`; the child of `del` builds one when
`execlp` fails. -/
def logNotes : Call -> List Note
  | Call.log message => [Note.store Buffer.logStr message]
  | Call.rm _ =>
      [Note.store Buffer.logStr (text "Error in exec in delete\n".toList)]
  | _ => []

def plain {alpha : Type} (code : Backuper.Code alpha) : Code alpha :=
  annotate logNotes code

def strcpy (buffer : Buffer) (string : Bytes) : Code Bytes := do
  note (Note.store buffer string)
  pure string

def makePath (buffer : Buffer) (filePath dirPath name : Bytes) : Code Bytes :=
  strcpy buffer (Backuper.makePath filePath dirPath name)

def copyDirectoryWith (loop : Nat -> Bytes -> Globals -> Code Globals)
    (g : Globals) : Code Globals := do
  let g ← plain (createInotify g)
  let source ← plain (openDir g.srcPath Age.OLD)
  let dest ← plain (openDir g.destPath Age.NEW)
  let filePathSrc ← plain localArray
  let pid ← plain getpid
  loop pid filePathSrc { g with source := source, dest := dest }

def copyLoop : Nat -> Nat -> Bytes -> Globals -> Code Globals
  | 0, _, _, _ => halt Stop.outOfFuel
  | fuel + 1, pid, filePathSrc, g =>
      match g.source with
      | [] => pure g
      | file :: entries =>
          let g := { g with source := entries }
          if pid = 0 then pure g
          else if file.name ≠ DOT ∧ file.name ≠ DOTDOT then do
            note (Note.entry g.srcPath g.destPath file)
            let filePathSrc ←
              makePath Buffer.filePath filePathSrc g.srcPath file.name
            if file.type &&& DT_REG ≠ 0 then do
              plain (copyFile filePathSrc g.destPath)
              copyLoop fuel pid filePathSrc g
            else if file.type &&& DT_DIR ≠ 0 then do
              let pid ← plain fork
              if pid = 0 then do
                let srcPath ←
                  makePath Buffer.srcPath g.srcPath g.srcPath file.name
                let destPath ←
                  makePath Buffer.destPath g.destPath g.destPath file.name
                let g := { g with srcPath := srcPath, destPath := destPath }
                let myPid ← plain getpid
                plain (daemonLog (text "New process!\t Pid: ".toList ++
                  number myPid ++ text "\t Directory: ".toList ++ g.srcPath ++
                  text "\t\n".toList))
                let g ← copyDirectoryWith (copyLoop fuel) g
                copyLoop fuel pid filePathSrc g
              else copyLoop fuel pid filePathSrc g
            else do
              plain (daemonLog (text "Dont work with such files\n".toList))
              copyLoop fuel pid filePathSrc g
          else copyLoop fuel pid filePathSrc g

def copyDirectory (fuel : Nat) : Globals -> Code Globals :=
  copyDirectoryWith (copyLoop fuel)

def eventCreate (fuel : Nat) (name : Bytes) (g : Globals) : Code Globals := do
  let filePathSrc ← plain localArray
  let filePathDest ← plain localArray
  let filePathSrc ← makePath Buffer.filePath filePathSrc g.srcPath name
  let filePathDest ← makePath Buffer.filePath filePathDest g.destPath name
  if (← plain (isRegular filePathSrc)) then do
    plain (copyFile filePathSrc g.destPath)
    pure g
  else if (← plain (isDirectory filePathSrc)) then do
    let pid ← plain fork
    if pid = 0 then do
      let srcPath ← strcpy Buffer.srcPath filePathSrc
      let destPath ← strcpy Buffer.destPath filePathDest
      let g := { g with srcPath := srcPath, destPath := destPath }
      let myPid ← plain getpid
      plain (daemonLog (text "New process!\t Pid: ".toList ++ number myPid ++
        text "\t Directory: ".toList ++ g.srcPath ++
        text "\t(in event_create)\n".toList))
      let g ← copyDirectory fuel g
      pure { g with checkFlag := false }
    else pure g
  else pure g

def eventDelete (name : Bytes) (g : Globals) : Code Globals := do
  let path ← plain localArray
  let path ← makePath Buffer.filePath path g.destPath name
  plain (del path)
  pure g

def eventMoveTo (fuel : Nat) (name : Bytes) (g : Globals) : Code Globals := do
  plain (ask (Call.usleep 1000))
  eventCreate fuel name g

def handlerCode (fuel : Nat) (name : Bytes) (g : Globals) :
    Handler -> Code Globals
  | Handler.eventCreate => eventCreate fuel name g
  | Handler.eventDelete => eventDelete name g
  | Handler.eventModify => eventCreate fuel name g
  | Handler.eventMoveTo => eventMoveTo fuel name g
  | Handler.eventMoveFrom => eventDelete name g

def handleEvent (fuel : Nat) (events : Bytes) (i : Nat) (g : Globals) :
    Code Globals := do
  plain (checkFolder g)
  match checkEvent events i with
  | none => pure g
  | some dispatch => do
      note (Note.event g.srcPath g.destPath dispatch)
      plain (daemonLog (number (i + 1) ++ text ")event: ".toList ++
        dispatch.handler.word ++ text "\t file: ".toList ++ g.srcPath ++
        SLASH :: dispatch.name ++ text "\n".toList))
      handlerCode fuel dispatch.name g dispatch.handler

def forEvents (fuel : Nat) (events : Bytes) :
    Nat -> Nat -> Globals -> Code Globals
  | 0, _, g => pure g
  | left + 1, i, g =>
      if g.checkFlag = true then do
        let g ← handleEvent fuel events i g
        forEvents fuel events left (i + 1) g
      else pure g

def whileWorking (fuel : Nat) : Nat -> Globals -> Code Globals
  | 0, _ => halt Stop.outOfFuel
  | rounds + 1, g => do
      let g := { g with checkFlag := true }
      let (resRead, events) ← plain (read g.inFd)
      let count := eventCount resRead
      if count ≤ 0 then pure g
      else do
        let g ← forEvents fuel events count.toNat 0 g
        whileWorking fuel rounds g

def main (fuel : Nat) (srcPath destPath : Bytes) : Code Unit := do
  note (Note.arguments srcPath destPath)
  let srcPath ← strcpy Buffer.srcPath srcPath
  let destPath ← strcpy Buffer.destPath destPath
  let g := Globals.start srcPath destPath
  plain (startDaemon g)
  let pid ← plain getpid
  let g := { g with mainPid := pid }
  plain (ask (Call.signal SIG_STOP))
  plain (ask (Call.signal SIG_CHECK))
  let g ← copyDirectory fuel g
  let g ← whileWorking fuel fuel g
  plain (finish g)

/-!
## Without the notes
-/

@[simp] theorem erase_plain {alpha : Type} (code : Backuper.Code alpha) :
    erase (plain code) = code :=
  erase_annotate logNotes code

@[simp] theorem erase_strcpy (buffer : Buffer) (string : Bytes) :
    erase (strcpy buffer string) = ret string := rfl

@[simp] theorem erase_makePath (buffer : Buffer)
    (filePath dirPath name : Bytes) :
    erase (makePath buffer filePath dirPath name) =
      ret (Backuper.makePath filePath dirPath name) := rfl

theorem erase_copyDirectoryWith
    {loop : Nat -> Bytes -> Globals -> Code Globals}
    {loop' : Nat -> Bytes -> Globals -> Backuper.Code Globals}
    (h : forall pid filePathSrc g, erase (loop pid filePathSrc g) =
      loop' pid filePathSrc g) (g : Globals) :
    erase (copyDirectoryWith loop g) = Backuper.copyDirectoryWith loop' g := by
  simp only [copyDirectoryWith, Backuper.copyDirectoryWith, erase_bind,
    erase_plain, h]

theorem erase_copyLoop (fuel pid : Nat) (filePathSrc : Bytes) (g : Globals) :
    erase (copyLoop fuel pid filePathSrc g) =
      Backuper.copyLoop fuel pid filePathSrc g := by
  induction fuel generalizing pid filePathSrc g with
  | zero => rfl
  | succ fuel ih =>
      rw [copyLoop, Backuper.copyLoop]
      cases g.source with
      | nil => rfl
      | cons file entries =>
          simp only [erase_ite, erase_bind, erase_note, erase_makePath,
            erase_plain, ret_bind, ih, erase_copyDirectoryWith ih,
            pure_eq_ret, erase_ret]

theorem erase_copyDirectory (fuel : Nat) (g : Globals) :
    erase (copyDirectory fuel g) = Backuper.copyDirectory fuel g :=
  erase_copyDirectoryWith (erase_copyLoop fuel) g

theorem erase_eventCreate (fuel : Nat) (name : Bytes) (g : Globals) :
    erase (eventCreate fuel name g) = Backuper.eventCreate fuel name g := by
  simp only [eventCreate, Backuper.eventCreate, erase_bind, erase_plain,
    erase_makePath, erase_strcpy, erase_ite, ret_bind, pure_eq_ret, erase_ret,
    erase_copyDirectory]

theorem erase_eventDelete (name : Bytes) (g : Globals) :
    erase (eventDelete name g) = Backuper.eventDelete name g := by
  simp only [eventDelete, Backuper.eventDelete, erase_bind, erase_plain,
    erase_makePath, ret_bind, pure_eq_ret, erase_ret]

theorem erase_handlerCode (fuel : Nat) (name : Bytes) (g : Globals)
    (handler : Handler) :
    erase (handlerCode fuel name g handler) =
      Handler.code fuel name g handler := by
  cases handler with
  | eventCreate | eventModify => exact erase_eventCreate fuel name g
  | eventDelete | eventMoveFrom => exact erase_eventDelete name g
  | eventMoveTo =>
      simp only [handlerCode, eventMoveTo, erase_bind, erase_eventCreate]
      rfl

theorem erase_handleEvent (fuel : Nat) (events : Bytes) (i : Nat)
    (g : Globals) :
    erase (handleEvent fuel events i g) =
      Backuper.handleEvent fuel events i g := by
  rw [handleEvent, Backuper.handleEvent, erase_bind, erase_plain]
  congr 1
  funext _
  cases checkEvent events i with
  | none => rfl
  | some dispatch =>
      simp only [erase_bind, erase_note, ret_bind, erase_plain,
        erase_handlerCode]

theorem erase_forEvents (fuel : Nat) (events : Bytes) (left i : Nat)
    (g : Globals) :
    erase (forEvents fuel events left i g) =
      Backuper.forEvents fuel events left i g := by
  induction left generalizing i g with
  | zero => rfl
  | succ left ih =>
      simp only [forEvents, Backuper.forEvents, erase_ite, erase_bind,
        erase_handleEvent, ih, pure_eq_ret, erase_ret]

theorem erase_whileWorking (fuel rounds : Nat) (g : Globals) :
    erase (whileWorking fuel rounds g) =
      Backuper.whileWorking fuel rounds g := by
  induction rounds generalizing g with
  | zero => rfl
  | succ rounds ih =>
      simp only [whileWorking, Backuper.whileWorking, erase_bind, erase_plain,
        erase_ite, erase_forEvents, ih, pure_eq_ret, erase_ret]

/-- The notes change nothing. -/
theorem erase_main (fuel : Nat) (srcPath destPath : Bytes) :
    erase (main fuel srcPath destPath) =
      Backuper.main fuel srcPath destPath := by
  simp only [main, Backuper.main, erase_bind, erase_note, erase_strcpy,
    erase_plain, ret_bind, erase_copyDirectory, erase_whileWorking]
  rfl

/-!
## Short names
-/

/-- The branch of `copy_directory` that forks. -/
def IsSubdirectory (file : Dirent) : Prop :=
  file.type &&& DT_REG = 0 ∧ file.type &&& DT_DIR ≠ 0

def LooksUp : Handler -> Prop
  | Handler.eventCreate | Handler.eventModify | Handler.eventMoveTo => True
  | Handler.eventDelete | Handler.eventMoveFrom => False

def RoomBehind (path name : Bytes) : Prop :=
  path.length + 1 + name.length < PATH_SIZE

/-- What comes from outside is short enough for the paths of the process. -/
def Note.Short : Note -> Prop
  | arguments srcPath destPath =>
      srcPath.length < PATH_SIZE ∧ destPath.length < PATH_SIZE
  | entry srcPath destPath file =>
      RoomBehind srcPath file.name ∧
        (IsSubdirectory file -> RoomBehind destPath file.name)
  | event srcPath destPath dispatch =>
      RoomBehind destPath dispatch.name ∧
        (LooksUp dispatch.handler -> RoomBehind srcPath dispatch.name)
  | store _ _ => True

def Note.Fits : Note -> Prop
  | store buffer string => string.length < buffer.size
  | _ => True

/-- Process identifiers are nonnegative `int`s. -/
def Ordinary : (op : Call) -> op.Answer -> Prop
  | Call.getpid, pid => (show Nat from pid) < 2 ^ 31
  | _, _ => True

/-- Notes fit as long as what comes from outside is short. -/
def bounded : Contract (Call ⊕ Note) (Noted Call.Answer Note) Unit where
  needs := fun op _ =>
    match op with
    | Sum.inl _ => True
    | Sum.inr n => n.Fits
  does := fun op _ answer _ =>
    match op, answer with
    | Sum.inl op, answer => Ordinary op answer
    | Sum.inr n, _ => n.Short

def Bounded {alpha : Type} (post : alpha -> Prop) (code : Code alpha) : Prop :=
  Ensures bounded (fun _ _ => True) (fun _ => post) () code

def Speaks {alpha : Type} (post : alpha -> Prop) (code : Backuper.Code alpha) :
    Prop :=
  Ensures (underNotes bounded logNotes) (fun _ _ => True) (fun _ => post) () code

structure PathsFit (g : Globals) : Prop where
  src : g.srcPath.length < PATH_SIZE
  dest : g.destPath.length < PATH_SIZE

section Rules

variable {alpha beta : Type} {post : alpha -> Prop}

theorem Speaks.bounded {code : Backuper.Code alpha} (h : Speaks post code) :
    Bounded post (plain code) :=
  Ensures.annotated h

theorem Bounded.bind {middle : alpha -> Prop} {post : beta -> Prop}
    {first : Code alpha} {rest : alpha -> Code beta}
    (hfirst : Bounded middle first)
    (hrest : forall value, middle value -> Bounded post (rest value)) :
    Bounded post (first >>= rest) :=
  Ensures.seq hfirst (fun _ => hrest)

theorem Speaks.bind {middle : alpha -> Prop} {post : beta -> Prop}
    {first : Backuper.Code alpha} {rest : alpha -> Backuper.Code beta}
    (hfirst : Speaks middle first)
    (hrest : forall value, middle value -> Speaks post (rest value)) :
    Speaks post (first >>= rest) :=
  Ensures.seq hfirst (fun _ => hrest)

theorem Speaks.ite {condition : Prop} [Decidable condition]
    {yes no : Backuper.Code alpha} (hyes : condition -> Speaks post yes)
    (hno : ¬ condition -> Speaks post no) :
    Speaks post (if condition then yes else no) :=
  Ensures.ite hyes hno

theorem Speaks.whenever {condition : Prop} [Decidable condition]
    {middle : beta -> Prop} {first : Backuper.Code beta}
    {rest : beta -> Backuper.Code alpha} {after : Backuper.Code alpha}
    (hfirst : Speaks middle first) (hsame : forall value, rest value = after)
    (hafter : Speaks post after) :
    Speaks post (if condition then first >>= rest else after) := by
  apply Speaks.ite
  · intro _
    apply Speaks.bind hfirst
    intro value _
    rw [hsame value]
    exact hafter
  · intro _
    exact hafter

theorem Bounded.note {n : Note} {rest : Unit -> Code alpha} (hfits : n.Fits)
    (hrest : n.Short -> Bounded post (rest ())) :
    Bounded post (note n >>= rest) :=
  ⟨hfits, fun _ _ => hrest⟩

theorem Bounded.strcpy {buffer : Buffer} {string : Bytes}
    {rest : Bytes -> Code alpha} (hfits : string.length < buffer.size)
    (hrest : Bounded post (rest string)) :
    Bounded post (strcpy buffer string >>= rest) :=
  ⟨hfits, fun _ _ _ => hrest⟩

theorem speaks_ask {op : Call} (h : logNotes op = []) :
    Speaks (Ordinary op) (ask op) := by
  refine ⟨⟨?_, trivial⟩, fun _ _ hdoes => hdoes⟩
  intro n hn
  rw [h] at hn
  cases hn

theorem speaks_localArray : Speaks (fun _ => True) localArray :=
  speaks_ask rfl

theorem speaks_fork : Speaks (fun _ => True) fork :=
  speaks_ask rfl

theorem speaks_getpid : Speaks (fun pid => pid < 2 ^ 31) getpid :=
  speaks_ask rfl

theorem speaks_daemonLog {message : Bytes} (h : message.length < LOG_SIZE) :
    Speaks (fun _ => True) (daemonLog message) := by
  refine ⟨⟨?_, trivial⟩, fun _ _ _ => trivial⟩
  intro n hn
  rw [List.mem_singleton.mp hn]
  exact h

end Rules

/-!
## Messages
-/

theorem number_length {n : Nat} (h : n < 2 ^ 31) : (number n).length ≤ 10 :=
  (decimal_length_le_iff (by decide)).mpr (h.trans (by decide))

theorem makePath_length (filePath dirPath name : Bytes) :
    (Backuper.makePath filePath dirPath name).length =
      dirPath.length + 1 + name.length := by
  have hpath : Backuper.makePath filePath dirPath name =
      dirPath ++ SLASH :: name := by
    unfold Backuper.makePath
    by_cases h : filePath ≠ dirPath
    · rw [if_pos h]
    · rw [if_neg h, not_not.mp h]
  rw [hpath, List.length_append, List.length_cons]
  lia

theorem speaks_sendChildren (signal : Nat) :
    Speaks (fun _ => True) (sendChildren signal) := by
  apply Speaks.bind (speaks_ask rfl)
  intro _ _
  apply Speaks.bind (speaks_ask rfl)
  intro _ _
  exact speaks_ask rfl

theorem speaks_openDir {path : Bytes} (h : path.length < PATH_SIZE)
    (flag : Age) : Speaks (fun _ => True) (openDir path flag) := by
  have hcreate : forall pid, pid < 2 ^ 31 ->
      (text "Can't create directory ".toList ++ path ++
        text "\tPid: ".toList ++ number pid ++ text "\n".toList).length <
        LOG_SIZE := by
    intro pid hpid
    have hnumber := number_length hpid
    simp only [List.length_append]
    change 23 + path.length + 6 + (number pid).length + 1 < 512
    change path.length < 128 at h
    lia
  have hopen : forall pid, pid < 2 ^ 31 ->
      (text "Can't open directory ".toList ++ path ++
        text "\tPid: ".toList ++ number pid ++ text "\n".toList).length <
        LOG_SIZE := by
    intro pid hpid
    have hnumber := number_length hpid
    simp only [List.length_append]
    change 21 + path.length + 6 + (number pid).length + 1 < 512
    change path.length < 128 at h
    lia
  have hnone : Speaks (fun _ : List Dirent => True) (do
      let pid ← getpid
      daemonLog (text "Can't open directory ".toList ++ path ++
        text "\tPid: ".toList ++ number pid ++ text "\n".toList)
      halt (Stop.exit 1)) := by
    apply Speaks.bind (speaks_ask rfl)
    intro pid hpid
    exact Speaks.bind (speaks_daemonLog (hopen pid hpid)) (fun _ _ => trivial)
  unfold openDir
  refine Speaks.bind (speaks_ask rfl) (fun dir _ => ?_)
  dsimp only
  apply Speaks.ite
  · intro _
    refine Speaks.bind (speaks_ask rfl) (fun check _ => ?_)
    apply Speaks.ite
    · intro _
      apply Speaks.bind (speaks_ask rfl)
      intro pid hpid
      exact Speaks.bind (speaks_daemonLog (hcreate pid hpid)) (fun _ _ => trivial)
    · intro _
      apply Speaks.bind (speaks_ask rfl)
      intro dir _
      cases dir with
      | none => exact hnone
      | some dir => exact trivial
  · intro _
    cases dir with
    | none => exact hnone
    | some dir => exact trivial

theorem speaks_createInotify (g : Globals) :
    Speaks (fun g' => g' = { g with inFd := g'.inFd }) (createInotify g) := by
  unfold createInotify
  refine Speaks.bind (speaks_ask rfl) (fun fd _ => ?_)
  dsimp only
  have hrest : Speaks (fun g' => g' = { g with inFd := g'.inFd })
      (do
        let watch ← inotifyAddWatch fd g.srcPath watchMask
        if watch < 0 then do
          daemonLog (text "Can't add watch\n".toList)
          exit 1
        pure { g with inFd := fd }) := by
    refine Speaks.bind (speaks_ask rfl) (fun watch _ => ?_)
    apply Speaks.ite
    · intro _
      exact Speaks.bind (speaks_daemonLog (by decide)) (fun _ _ => trivial)
    · intro _
      exact rfl
  apply Speaks.ite
  · intro _
    exact Speaks.bind (speaks_daemonLog (by decide)) (fun _ _ => trivial)
  · intro _
    exact hrest

theorem speaks_copyFile {source dest : Bytes} (hsource : source.length < PATH_SIZE)
    (hdest : dest.length < PATH_SIZE) :
    Speaks (fun _ => True) (copyFile source dest) := by
  have hmessage : (text "Copy file: ".toList ++ source ++ text " to ".toList ++
      dest ++ text "\n".toList).length < LOG_SIZE := by
    simp only [List.length_append]
    change 11 + source.length + 4 + dest.length + 1 < 512
    change source.length < 128 at hsource
    change dest.length < 128 at hdest
    lia
  apply Speaks.bind (speaks_daemonLog hmessage)
  intro _ _
  exact speaks_ask rfl

theorem speaks_del {path : Bytes} (h : path.length < PATH_SIZE) :
    Speaks (fun _ => True) (del path) := by
  have hmessage : (text "Delete: ".toList ++ path ++ text "\n".toList).length <
      LOG_SIZE := by
    simp only [List.length_append]
    change 8 + path.length + 1 < 512
    change path.length < 128 at h
    lia
  have hrm : Speaks (fun _ => True) (ask (Call.rm path)) := by
    refine ⟨⟨?_, trivial⟩, fun _ _ _ => trivial⟩
    intro n hn
    rw [List.mem_singleton.mp hn]
    exact (by decide : (text "Error in exec in delete\n".toList).length < LOG_SIZE)
  apply Speaks.bind (speaks_daemonLog hmessage)
  intro _ _
  apply Speaks.bind hrm
  intro _ _
  exact speaks_sendChildren SIG_CHECK

theorem speaks_isAlife (path : Bytes) : Speaks (fun _ => True) (isAlife path) := by
  apply Speaks.bind (speaks_ask rfl)
  intro found _
  apply Speaks.ite
  · intro _
    exact trivial
  · intro _
    exact trivial

theorem speaks_finish {g : Globals} (h : g.srcPath.length < PATH_SIZE) :
    Speaks (fun _ => True) (finish g) := by
  change g.srcPath.length < 128 at h
  have hend : (text "END OF BACKUP!\tFolder:".toList ++ g.srcPath ++
      text "\n\n".toList).length < LOG_SIZE := by
    simp only [List.length_append]
    change 22 + g.srcPath.length + 2 < 512
    lia
  have hwatch : forall pid, pid < 2 ^ 31 ->
      (text "End of watching!\t Pid: ".toList ++ number pid ++
        text "\t Directory: ".toList ++ g.srcPath ++
        text "\n".toList).length < LOG_SIZE := by
    intro pid hpid
    have hnumber := number_length hpid
    simp only [List.length_append]
    change 23 + (number pid).length + 13 + g.srcPath.length + 1 < 512
    lia
  unfold finish
  apply Speaks.bind (speaks_isAlife g.srcPath)
  intro _ _
  dsimp only
  refine Speaks.whenever (speaks_ask rfl) (fun _ => rfl) ?_
  apply Speaks.bind (speaks_isAlife g.destPath)
  intro _ _
  refine Speaks.whenever (speaks_ask rfl) (fun _ => rfl) ?_
  apply Speaks.bind (speaks_ask rfl)
  intro _ _
  apply Speaks.bind (speaks_sendChildren SIG_STOP)
  intro _ _
  apply Speaks.bind (speaks_ask rfl)
  intro pid hpid
  apply Speaks.bind (speaks_daemonLog (hwatch pid hpid))
  intro _ _
  refine Speaks.bind (speaks_ask rfl) (fun pid _ => ?_)
  apply Speaks.ite
  · intro _
    apply Speaks.bind (speaks_ask rfl)
    intro _ _
    exact Speaks.bind (speaks_daemonLog hend) (fun _ _ => trivial)
  · intro _
    exact trivial

theorem speaks_checkFolder {g : Globals} (h : g.srcPath.length < PATH_SIZE) :
    Speaks (fun _ => True) (checkFolder g) := by
  apply Speaks.bind (speaks_isAlife g.srcPath)
  intro _ _
  apply Speaks.ite
  · intro _
    exact speaks_finish h
  · intro _
    exact trivial

theorem speaks_startDaemon {g : Globals} (h : PathsFit g) :
    Speaks (fun _ => True) (startDaemon g) := by
  have hsrc := h.src
  have hdest := h.dest
  change g.srcPath.length < 128 at hsrc
  change g.destPath.length < 128 at hdest
  have hmessage : forall pid, pid < 2 ^ 31 ->
      (text "\n".toList ++ startLine pid g).length < LOG_SIZE := by
    intro pid hpid
    have hnumber := number_length hpid
    simp only [startLine, List.length_append]
    change 1 + (23 + (number pid).length + 10 + g.srcPath.length + 15 +
      g.destPath.length + 1) < 512
    lia
  have hlog : Speaks (fun _ => True) startLog := by
    refine Speaks.bind (speaks_ask rfl) (fun logFd _ => ?_)
    apply Speaks.ite
    · intro _
      exact Speaks.bind (speaks_ask rfl) (fun _ _ => trivial)
    · intro _
      exact trivial
  refine Speaks.bind (speaks_ask rfl) (fun tmpPid _ => ?_)
  apply Speaks.ite
  · intro _
    apply Speaks.bind (speaks_ask rfl)
    intro _ _
    exact Speaks.bind (speaks_ask rfl) (fun _ _ => trivial)
  · intro _
    apply Speaks.bind hlog
    intro _ _
    apply Speaks.bind (speaks_ask rfl)
    intro pid hpid
    exact speaks_daemonLog (hmessage pid hpid)

theorem newProcess_length {srcPath : Bytes} (h : srcPath.length < PATH_SIZE)
    {pid : Nat} (hpid : pid < 2 ^ 31) {ending : Bytes}
    (hending : ending.length ≤ 32) :
    (text "New process!\t Pid: ".toList ++ number pid ++
      text "\t Directory: ".toList ++ srcPath ++ ending).length < LOG_SIZE := by
  have hnumber := number_length hpid
  change srcPath.length < 128 at h
  simp only [List.length_append]
  change 19 + (number pid).length + 13 + srcPath.length + ending.length < 512
  lia

/-!
## The code with its notes

Every function keeps `PathsFit`.  A path is built only behind a note of the name
that is appended, and the note brings the room.
-/

theorem bounded_copyDirectoryWith
    {loop : Nat -> Bytes -> Globals -> Code Globals}
    (h : forall pid filePathSrc g, PathsFit g ->
      Bounded PathsFit (loop pid filePathSrc g)) {g : Globals} (hg : PathsFit g) :
    Bounded PathsFit (copyDirectoryWith loop g) := by
  apply Bounded.bind (speaks_createInotify g).bounded
  intro g' hg'
  have hfits : PathsFit g' := by
    rw [hg']
    exact ⟨hg.src, hg.dest⟩
  apply Bounded.bind (speaks_openDir hfits.src Age.OLD).bounded
  intro source _
  apply Bounded.bind (speaks_openDir hfits.dest Age.NEW).bounded
  intro dest _
  apply Bounded.bind speaks_localArray.bounded
  intro filePathSrc _
  apply Bounded.bind speaks_getpid.bounded
  intro pid _
  exact h pid filePathSrc _ ⟨hfits.src, hfits.dest⟩

theorem bounded_copyLoop {fuel pid : Nat} {filePathSrc : Bytes} {g : Globals}
    (hg : PathsFit g) :
    Bounded PathsFit (copyLoop fuel pid filePathSrc g) := by
  induction fuel generalizing pid filePathSrc g with
  | zero => exact trivial
  | succ fuel ih =>
      rw [copyLoop]
      cases g.source with
      | nil => exact hg
      | cons file entries =>
          have hleft : PathsFit { g with source := entries } :=
            ⟨hg.src, hg.dest⟩
          dsimp only
          split
          case isTrue _ => exact hleft
          case isFalse _ =>
            split
            case isTrue _ =>
              refine Bounded.note trivial (fun hshort => ?_)
              have hroom : (Backuper.makePath filePathSrc g.srcPath
                  file.name).length < PATH_SIZE := by
                rw [makePath_length]
                exact hshort.left
              refine Bounded.strcpy hroom ?_
              split
              case isTrue _ =>
                apply Bounded.bind (speaks_copyFile hroom hg.dest).bounded
                intro _ _
                exact ih hleft
              case isFalse hreg =>
                split
                case isTrue hdir =>
                  have hchild : PathsFit
                      { g with
                        source := entries
                        srcPath := Backuper.makePath g.srcPath g.srcPath file.name
                        destPath :=
                          Backuper.makePath g.destPath g.destPath file.name } := by
                    constructor
                    case src =>
                      rw [makePath_length]
                      exact hshort.left
                    case dest =>
                      rw [makePath_length]
                      exact hshort.right ⟨not_not.mp hreg, hdir⟩
                  apply Bounded.bind speaks_fork.bounded
                  intro child _
                  split
                  case isTrue _ =>
                    refine Bounded.strcpy hchild.src ?_
                    refine Bounded.strcpy hchild.dest ?_
                    apply Bounded.bind speaks_getpid.bounded
                    intro myPid hmyPid
                    apply Bounded.bind (speaks_daemonLog
                      (newProcess_length hchild.src hmyPid (by decide))).bounded
                    intro _ _
                    refine Bounded.bind
                      (bounded_copyDirectoryWith (fun _ _ _ h => ih h) hchild)
                      (fun g' hg' => ?_)
                    exact ih hg'
                  case isFalse _ => exact ih hleft
                case isFalse _ =>
                  apply Bounded.bind (speaks_daemonLog (by decide)).bounded
                  intro _ _
                  exact ih hleft
            case isFalse _ => exact ih hleft

theorem bounded_copyDirectory (fuel : Nat) {g : Globals} (hg : PathsFit g) :
    Bounded PathsFit (copyDirectory fuel g) :=
  bounded_copyDirectoryWith (fun _ _ _ => bounded_copyLoop) hg

theorem bounded_eventCreate (fuel : Nat) {name : Bytes} {g : Globals}
    (hg : PathsFit g) (hsrc : RoomBehind g.srcPath name)
    (hdest : RoomBehind g.destPath name) :
    Bounded PathsFit (eventCreate fuel name g) := by
  apply Bounded.bind speaks_localArray.bounded
  intro stale _
  apply Bounded.bind speaks_localArray.bounded
  intro stale' _
  have hfileSrc : (Backuper.makePath stale g.srcPath name).length < PATH_SIZE := by
    rw [makePath_length]
    exact hsrc
  have hfileDest :
      (Backuper.makePath stale' g.destPath name).length < PATH_SIZE := by
    rw [makePath_length]
    exact hdest
  have hkind : forall path,
      Speaks (fun _ => True) (isRegular path) ∧
        Speaks (fun _ => True) (isDirectory path) := by
    intro path
    constructor
    · refine Speaks.bind (speaks_ask rfl) (fun _ _ => ?_)
      exact Speaks.ite (fun _ => trivial) (fun _ => trivial)
    · refine Speaks.bind (speaks_ask rfl) (fun _ _ => ?_)
      exact Speaks.ite (fun _ => trivial) (fun _ => trivial)
  refine Bounded.strcpy hfileSrc ?_
  refine Bounded.strcpy hfileDest ?_
  apply Bounded.bind (hkind _).left.bounded
  intro regular _
  split
  case isTrue _ =>
    exact Bounded.bind (speaks_copyFile hfileSrc hg.dest).bounded (fun _ _ => hg)
  case isFalse _ =>
    apply Bounded.bind (hkind _).right.bounded
    intro directory _
    split
    case isTrue _ =>
      apply Bounded.bind speaks_fork.bounded
      intro pid _
      split
      case isTrue _ =>
        refine Bounded.strcpy hfileSrc ?_
        refine Bounded.strcpy hfileDest ?_
        apply Bounded.bind speaks_getpid.bounded
        intro myPid hmyPid
        apply Bounded.bind (speaks_daemonLog
          (newProcess_length hfileSrc hmyPid (by decide))).bounded
        intro _ _
        apply Bounded.bind (bounded_copyDirectory fuel ⟨hfileSrc, hfileDest⟩)
        intro g' hg'
        exact ⟨hg'.src, hg'.dest⟩
      case isFalse _ => exact hg
    case isFalse _ => exact hg

theorem bounded_eventDelete {name : Bytes} {g : Globals} (hg : PathsFit g)
    (hdest : RoomBehind g.destPath name) :
    Bounded PathsFit (eventDelete name g) := by
  apply Bounded.bind speaks_localArray.bounded
  intro stale _
  have hpath : (Backuper.makePath stale g.destPath name).length < PATH_SIZE := by
    rw [makePath_length]
    exact hdest
  refine Bounded.strcpy hpath ?_
  exact Bounded.bind (speaks_del hpath).bounded (fun _ _ => hg)

theorem bounded_handlerCode (fuel : Nat) {name : Bytes} {g : Globals}
    (hg : PathsFit g) {handler : Handler} (hdest : RoomBehind g.destPath name)
    (hsrc : LooksUp handler -> RoomBehind g.srcPath name) :
    Bounded PathsFit (handlerCode fuel name g handler) := by
  cases handler with
  | eventCreate | eventModify =>
      exact bounded_eventCreate fuel hg (hsrc trivial) hdest
  | eventDelete | eventMoveFrom => exact bounded_eventDelete hg hdest
  | eventMoveTo =>
      apply Bounded.bind (@speaks_ask (Call.usleep 1000) rfl).bounded
      intro _ _
      exact bounded_eventCreate fuel hg (hsrc trivial) hdest

theorem bounded_handleEvent (fuel : Nat) (events : Bytes) {i : Nat}
    (hi : i + 1 < 2 ^ 31) {g : Globals} (hg : PathsFit g) :
    Bounded PathsFit (handleEvent fuel events i g) := by
  apply Bounded.bind (speaks_checkFolder hg.src).bounded
  intro _ _
  cases checkEvent events i with
  | none => exact hg
  | some dispatch =>
      refine Bounded.note trivial (fun hshort => ?_)
      have hnumber := number_length hi
      have hword : dispatch.handler.word.length ≤ 9 := by
        cases dispatch.handler <;> decide
      have hname := hshort.left
      have hsrc := hg.src
      have hmessage : (number (i + 1) ++ text ")event: ".toList ++
          dispatch.handler.word ++ text "\t file: ".toList ++ g.srcPath ++
          SLASH :: dispatch.name ++ text "\n".toList).length < LOG_SIZE := by
        simp only [List.length_append, List.length_cons]
        change (number (i + 1)).length + 8 + dispatch.handler.word.length + 8 +
          g.srcPath.length + (dispatch.name.length + 1) + 1 < 512
        change g.destPath.length + 1 + dispatch.name.length < 128 at hname
        change g.srcPath.length < 128 at hsrc
        lia
      apply Bounded.bind (speaks_daemonLog hmessage).bounded
      intro _ _
      exact bounded_handlerCode fuel hg hshort.left hshort.right

theorem bounded_forEvents (fuel : Nat) (events : Bytes) {left i : Nat}
    (hcount : i + left < 2 ^ 31) {g : Globals} (hg : PathsFit g) :
    Bounded PathsFit (forEvents fuel events left i g) := by
  induction left generalizing i g with
  | zero => exact hg
  | succ left ih =>
      rw [forEvents]
      split
      case isTrue _ =>
        apply Bounded.bind (bounded_handleEvent fuel events (by lia) hg)
        intro g' hg'
        exact ih (by lia) hg'
      case isFalse _ => exact hg

theorem eventCount_lt (resRead : Int) : eventCount resRead < 2 ^ 31 := by
  have hlt := @Int.bmod_lt (resRead % 2 ^ 64 / EVENT_HEADER) (2 ^ 32) (by decide)
  exact lt_of_lt_of_le hlt (by decide)

theorem bounded_whileWorking (fuel : Nat) {rounds : Nat} {g : Globals}
    (hg : PathsFit g) : Bounded PathsFit (whileWorking fuel rounds g) := by
  induction rounds generalizing g with
  | zero => exact trivial
  | succ rounds ih =>
      apply Bounded.bind (@speaks_ask (Call.read g.inFd) rfl).bounded
      intro found _
      rcases found with ⟨resRead, events⟩
      have hcount := eventCount_lt resRead
      dsimp only
      split
      case isTrue _ => exact ⟨hg.src, hg.dest⟩
      case isFalse hpos =>
        have hsame : PathsFit { g with checkFlag := true } := ⟨hg.src, hg.dest⟩
        apply Bounded.bind (bounded_forEvents fuel events (by lia) hsame)
        intro g' hg'
        exact ih hg'

theorem bounded_main (fuel : Nat) (srcPath destPath : Bytes) :
    Bounded (fun _ => True) (main fuel srcPath destPath) := by
  refine Bounded.note trivial (fun hshort => ?_)
  refine Bounded.strcpy hshort.left ?_
  refine Bounded.strcpy hshort.right ?_
  have hstart : PathsFit (Globals.start srcPath destPath) :=
    ⟨hshort.left, hshort.right⟩
  apply Bounded.bind (speaks_startDaemon hstart).bounded
  intro _ _
  apply Bounded.bind speaks_getpid.bounded
  intro pid _
  apply Bounded.bind (@speaks_ask (Call.signal SIG_STOP) rfl).bounded
  intro _ _
  apply Bounded.bind (@speaks_ask (Call.signal SIG_CHECK) rfl).bounded
  intro _ _
  have hdaemon : PathsFit
      { Globals.start srcPath destPath with mainPid := pid } :=
    ⟨hshort.left, hshort.right⟩
  apply Bounded.bind (bounded_copyDirectory fuel hdaemon)
  intro g hg
  apply Bounded.bind (bounded_whileWorking fuel hg)
  intro g' hg'
  exact (speaks_finish hg'.src).bounded

/-!
## All runs
-/

abbrev History := List (Sigma (Noted Call.Answer Note))

def did (op : Call) (answer : op.Answer) : Sigma (Noted Call.Answer Note) :=
  ⟨Sum.inl op, answer⟩

def noted (n : Note) : Sigma (Noted Call.Answer Note) :=
  ⟨Sum.inr n, ()⟩

def AllShort (history : History) : Prop :=
  forall taken, taken ∈ history -> bounded.does taken.1 () taken.2 ()

/-- As long as the arguments, the entries and the names of the events are short
for the paths of the process, every string fits into its array, also those of
the signal handlers. -/
theorem paths_fit {fuel : Nat} {srcPath destPath : Bytes} {history : History}
    (hshort : AllShort history) :
    (Follows (main fuel srcPath destPath) history ->
        forall buffer string, noted (Note.store buffer string) ∈ history ->
          string.length < buffer.size) ∧
      forall signal g, PathsFit g ->
        Follows (plain (signalHandler signal g)) history ->
        forall buffer string, noted (Note.store buffer string) ∈ history ->
          string.length < buffer.size := by
  constructor
  · intro hfollows buffer string hmem
    exact Ensures.follows (bounded_main fuel srcPath destPath) hfollows hshort
      _ hmem
  · intro signal g hg hfollows buffer string hmem
    have hhandler : Speaks (fun _ => True) (signalHandler signal g) := by
      apply Speaks.ite
      · intro _
        exact speaks_finish hg.src
      · intro _
        exact speaks_checkFolder hg.src
    exact Ensures.follows hhandler.bounded hfollows hshort _ hmem

def oneEntry (name : Bytes) : History :=
  let file : Dirent :=
    { name := name
      type := DT_REG }
  let g := Globals.start [97] [98]
  [noted (Note.arguments [97] [98]),
    noted (Note.store Buffer.srcPath [97]),
    noted (Note.store Buffer.destPath [98]),
    did Call.fork (0 : Nat),
    did Call.openLog (3 : Int),
    did Call.getpid (7 : Nat),
    noted (Note.store Buffer.logStr (text "\n".toList ++ startLine 7 g)),
    did (Call.log (text "\n".toList ++ startLine 7 g)) (),
    did Call.getpid (7 : Nat),
    did (Call.signal SIG_STOP) (),
    did (Call.signal SIG_CHECK) (),
    did Call.inotifyInit (4 : Int),
    did (Call.inotifyAddWatch 4 [97] watchMask) (1 : Int),
    did (Call.opendir [97]) (some [file]),
    did (Call.opendir [98]) (some []),
    did Call.localArray ([0] : Bytes),
    did Call.getpid (7 : Nat),
    noted (Note.entry [97] [98] file),
    noted (Note.store Buffer.filePath (Backuper.makePath [0] [97] name))]

theorem follows_oneEntry (rest : Bytes) :
    Follows (main 1 [97] [98]) (oneEntry (97 :: rest)) :=
  ⟨_, rfl, _, rfl, _, rfl, _, rfl, _, rfl, _, rfl, _, rfl, _, rfl, _, rfl, _, rfl,
    _, rfl, _, rfl, _, rfl, _, rfl, _, rfl, _, rfl, _, rfl, _, rfl, _, rfl,
    follows_nil _⟩

theorem paths_fit_short :
    AllShort (oneEntry ([97])) ∧
      forall buffer string,
        noted (Note.store buffer string) ∈ oneEntry ([97]) ->
          string.length < buffer.size := by
  have hshort : AllShort (oneEntry ([97])) := by
    have hpid : (7 : Nat) < 2 ^ 31 := by decide
    have harguments : Note.Short (Note.arguments [97] [98]) :=
      ⟨by decide, by decide⟩
    have hentry : Note.Short (Note.entry [97] [98]
        { name := [97]
          type := DT_REG }) :=
      ⟨(by decide : 1 + 1 + 1 < 128), fun _ => (by decide : 1 + 1 + 1 < 128)⟩
    unfold AllShort oneEntry
    simp only [List.forall_mem_cons]
    exact ⟨harguments, trivial, trivial, trivial, trivial, hpid, trivial,
      trivial, hpid, trivial, trivial, trivial, trivial, trivial, trivial,
      trivial, hpid, hentry, trivial, fun _ h => by cases h⟩
  exact ⟨hshort, (paths_fit hshort).left (follows_oneEntry [])⟩

theorem long_name_overruns :
    Follows (main 1 [97] [98]) (oneEntry (List.replicate 255 97)) ∧
      exists buffer string,
        noted (Note.store buffer string) ∈ oneEntry (List.replicate 255 97) ∧
          ¬ string.length < buffer.size := by
  refine ⟨follows_oneEntry (List.replicate 254 97), Buffer.filePath,
    Backuper.makePath [0] [97] (List.replicate 255 97), ?_, ?_⟩
  · exact List.mem_of_getLast? rfl
  · rw [makePath_length]
    decide +kernel

end Noting
end Backuper
end UnixPrograms
