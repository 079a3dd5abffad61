import UnixPrograms.Backuper.Convergence
import UnixPrograms.Backuper.Entries
import UnixPrograms.Backuper.Disk

/-!
# Processes and directories that come and go

The users make, remove and rename directories of the source while the processes
of the backuper add their watches, open their directories, read them entry by
entry, fork and handle events.  A watch and a stream follow their directory when
that is renamed.
-/

namespace UnixPrograms
namespace Backuper
namespace Watchers

open Foundation Program

/-!
## Events
-/

def broughtAt (events : Bytes) (i : Nat) : Option Bytes :=
  match checkEvent events i with
  | none => none
  | some dispatch =>
      if dispatch.handler.brings = true then some dispatch.name else none

def namesFrom (events : Bytes) (i left : Nat) : List Bytes :=
  (List.range' i left).filterMap (broughtAt events)

def broughtBy (record : Record) : Option FileName :=
  match record.dispatch with
  | none => none
  | some dispatch =>
      if dispatch.handler.brings = true then FileName.ofBytes dispatch.name
      else none

/-- The record of a change of a directory in the watched one.  Every process has
an inotify instance of its own, with one watch. -/
def dirRecord (kind : Handler) (cookie : UInt32) (name : FileName) : Record :=
  { Notice.record 1
      { kind := kind
        cookie := cookie
        name := name } with
    mask := kind.mask ||| IN_ISDIR }

def IN_IGNORED : UInt32 := 0x8000

/-- The record of a change of the watched directory itself. -/
def selfRecord (mask : UInt32) : Record where
  wd := 1
  mask := mask
  cookie := 0
  name := []
  aligned := rfl
  short := by decide
  terminated := fun h => absurd rfl h

/-!
## The state
-/

inductive Stage where
  | starting
  /-- The directory is open. -/
  | scanning
  /-- `readdir` has come to the end. -/
  | scanned
deriving DecidableEq

/-- What a process has for itself: its `src_path`, as it is set right after the
fork, and whether `finish` has begun; how far it is with its directory, and the
directories that were there when it was opened and that `readdir` has not
delivered; the names in the array of events, and apart from them the one that
`readdir` or `lstat` has just shown to be a directory; and the signals that it
catches. -/
structure Seat where
  path : List FileName
  ending : Bool
  stage : Stage
  found : List FileName
  handling : List FileName
  looking : Option FileName
  caught : List Nat
deriving DecidableEq

/-- The directories of the source by their paths from its root; for each process
the directory that it watches, under its present path, the events that it has
not read yet, the directory that it reads, likewise, and the directories that
have come into that since it was opened. -/
structure Kernel where
  dirs : List (List FileName)
  watched : Nat -> Option (List FileName)
  queue : Nat -> List Record
  opened : Nat -> Option (List FileName)
  arrived : Nat -> List FileName

/-- What a system call may answer.  `count` is the number of records that `read`
delivers, and `array` is what lies behind them. -/
structure Reply where
  result : Int
  mode : UInt32
  array : Bytes
  opens : Bool
  entry : Option Dirent
  count : Nat

def Seat.next (seat : Seat) : Option FileName := seat.looking

def Seat.kept (seat : Seat) : Seat := { seat with looking := none }

def Seat.born (seat : Seat) : Seat where
  path := seat.path ++ seat.next.toList
  ending := seat.ending
  stage := Stage.starting
  found := []
  handling := []
  looking := none
  caught := seat.caught

/-!
## System calls
-/

def Forks (file : Dirent) : Prop :=
  (file.name ≠ DOT ∧ file.name ≠ DOTDOT) ∧ ¬ file.type &&& DT_REG ≠ 0 ∧
    file.type &&& DT_DIR ≠ 0

instance (file : Dirent) : Decidable (Forks file) :=
  inferInstanceAs (Decidable (_ ∧ _))

def childrenOf (dirs : List (List FileName)) (path : List FileName) :
    List FileName :=
  dirs.filterMap
    (fun dir =>
      match dir.getLast? with
      | none => none
      | some name => if dir.dropLast = path then some name else none)

def Kernel.dirAt (kernel : Kernel) (site path : Bytes) :
    Option (List FileName) :=
  kernel.dirs.find? (fun dir => join site dir = path)

def Seat.names (seat : Seat) : List FileName :=
  seat.looking.toList ++ seat.handling

def Seat.named (seat : Seat) (site path : Bytes) : Option FileName :=
  seat.names.find? (fun name => join site (seat.path ++ [name]) = path)

def Seat.looked (seat : Seat) (site path : Bytes) (directory : Bool)
    (result : Int) : Seat :=
  match seat.named site path with
  | some name =>
      if directory = true then
        { seat with
          looking := some name
          handling := seat.names.erase name }
      else
        { seat with
          looking := none
          handling := seat.names }
  | none =>
      -- `check_folder` goes on with `finish`
      if path = join site seat.path ∧ result = -1 then
        { seat with ending := true }
      else seat

def Kernel.delivered (kernel : Kernel) (pid count : Nat) : List Record :=
  (kernel.queue pid).take count

/-- One operation.  What is no directory of the source may be anything else; a
field `st_mode` that `lstat` does not fill is anything.  A stream that has just
been opened has no entry in its buffer. -/
def act (site : Bytes) (reply : Reply) :
    (op : Call) -> Own Seat -> Kernel -> Option (op.Answer × Seat × Kernel)
  | Call.localArray, own, kernel => some (reply.array, own.data, kernel)
  | Call.log _, own, kernel => some ((), own.data, kernel)
  | Call.lstat path, own, kernel =>
      match kernel.dirAt site path with
      | some _ =>
          if reply.mode &&& S_IFMT = S_IFDIR then
            some
              ((0, reply.mode), own.data.looked site path true 0, kernel)
          else none
      | none =>
          if reply.mode &&& S_IFMT = S_IFDIR ∧ reply.result ≠ -1 ∧
              (own.data.named site path).isSome = true then none
          else
            some
              ((reply.result, reply.mode),
                own.data.looked site path false reply.result, kernel)
  | Call.opendir path, own, kernel =>
      if reply.opens = false then some (none, own.data, kernel)
      else if path = join site own.data.path ∧
          own.data.stage = Stage.starting then
        if own.data.path ∈ kernel.dirs then
          some
            (some [],
              { own.data with
                stage := Stage.scanning
                found := childrenOf kernel.dirs own.data.path },
              { kernel with
                opened :=
                  Function.update kernel.opened own.pid (some own.data.path)
                arrived := Function.update kernel.arrived own.pid [] })
        else none
      else some (some [], own.data, kernel)
  | Call.closedir, own, kernel => some ((), own.data, kernel)
  | Call.mkdir _ _, own, kernel => some (reply.result, own.data, kernel)
  | Call.cp _ _, own, kernel => some ((), own.data, kernel)
  | Call.rm _, own, kernel => some ((), own.data, kernel)
  | Call.fork, _, _ => none
  | Call.getpid, own, kernel => some (own.pid, own.data, kernel)
  | Call.setgid _, own, kernel => some ((), own.data, kernel)
  | Call.killpg _ _, own, kernel => some ((), own.data, kernel)
  | Call.inotifyInit, own, kernel => some (reply.result, own.data, kernel)
  | Call.inotifyAddWatch _ path _, own, kernel =>
      if reply.result < 0 then some (reply.result, own.data, kernel)
      else
        some
          (reply.result, own.data,
            { kernel with
              watched :=
                Function.update kernel.watched own.pid
                  (kernel.dirAt site path)
              queue := Function.update kernel.queue own.pid [] })
  | Call.close _, own, kernel => some ((), own.data, kernel)
  | Call.usleep _, own, kernel => some ((), own.data, kernel)
  | Call.print _, own, kernel => some ((), own.data, kernel)
  | Call.openLog, own, kernel => some (reply.result, own.data, kernel)
  | Call.signal number, own, kernel =>
      some
        ((), { own.data with caught := number :: own.data.caught }, kernel)
  | Call.read _, own, kernel =>
      if eventCount reply.result ≤ 0 then
        -- `main` goes on with `finish`
        some
          ((reply.result, reply.array),
            { own.data with
              ending := true
              handling := []
              looking := none }, kernel)
      else
        let bytes := (kernel.delivered own.pid reply.count).flatMap Record.bytes
        let array := bytes ++ reply.array
        if reply.result = bytes.length ∧
            bytes.length ≤ EVENT_HEADER * EVENTS_SIZE then
          some
            ((reply.result, array),
              { own.data with
                handling :=
                  (namesFrom array 0
                    (eventCount reply.result).toNat).filterMap FileName.ofBytes
                looking := none },
              { kernel with
                queue :=
                  Function.update kernel.queue own.pid
                    ((kernel.queue own.pid).drop reply.count) })
        else none

/-- `readdir`.  A directory that was there when the stream was opened, or has
come since, is delivered once, at any time and also when it is gone, or not at
all; what is no directory may be anything else, but there are no block devices.
Behind the end a stream says anything. -/
def readEntry (reply : Reply) (source : List Dirent) (own : Own Seat)
    (kernel : Kernel) :
    Option ((Option Dirent × List Dirent) × Seat × Kernel) :=
  if own.data.stage = Stage.scanned then
    some ((reply.entry, source), own.data, kernel)
  else
    match reply.entry with
    | none =>
        some
          ((none, source),
            { own.data with
              stage := Stage.scanned
              found := [] },
            { kernel with
              opened := Function.update kernel.opened own.pid none })
    | some file =>
        if Forks file then
          match FileName.ofBytes file.name with
          | none => none
          | some name =>
              let shown := { own.data with looking := some name }
              if name ∈ own.data.found then
                some
                  ((some file, source),
                    { shown with found := own.data.found.erase name }, kernel)
              else if name ∈ kernel.arrived own.pid then
                some
                  ((some file, source), shown,
                    { kernel with
                      arrived :=
                        Function.update kernel.arrived own.pid
                          ((kernel.arrived own.pid).erase name) })
              else none
        else some ((some file, source), own.data, kernel)

abbrev Query := Call ⊕ Scan

abbrev Query.Answer : Query -> Type := Answers Call.Answer Scan.Answer

def forks : (query : Query) -> Option (Nat -> query.Answer)
  | Sum.inl op => Backuper.forks op
  | Sum.inr _ => none

def answer (site : Bytes) (reply : Reply) :
    (query : Query) -> Own Seat -> Kernel ->
      Option (query.Answer × Seat × Kernel)
  | Sum.inl op, own, kernel => act site reply op own kernel
  | Sum.inr (Scan.readdir source), own, kernel =>
      readEntry reply source own kernel

def machine (site : Bytes) :
    Machine Query Query.Answer Seat Kernel Reply where
  forks := forks
  kept := fun own _ => own.data.kept
  copied := fun own => own.data.born
  act := answer site

abbrev Member := Process Query Query.Answer Stop Unit Seat

abbrev House := Pool Query Query.Answer Stop Unit Seat Kernel

def running (proc : Member) : Bool := proc.code.nextOp.isSome

def active (proc : Member) : Bool := running proc && !proc.own.data.ending

/-!
## Runs
-/

def moved (old new dir : List FileName) : List FileName :=
  if old <+: dir then new ++ dir.drop old.length else dir

/-- A process takes a step, a signal arrives at a process, or the users change
the source: they make, remove or rename a directory, or do something with what
is no directory, of which the watchers of a directory get a record. -/
inductive Happening where
  | turn (who : Nat) (reply : Reply)
  | signal (who number : Nat) (g : Globals)
  | make (parent : List FileName) (name : FileName)
  | remove (parent : List FileName) (name : FileName)
  | rename (oldParent : List FileName) (old : FileName)
      (newParent : List FileName) (new : FileName) (cookie : UInt32)
  | tell (dir : List FileName) (record : Record)

def Vacant (dirs : List (List FileName)) (path : List FileName) : Prop :=
  forall dir, dir ∈ dirs -> path <+: dir -> dir = path

instance (dirs : List (List FileName)) (path : List FileName) :
    Decidable (Vacant dirs path) :=
  inferInstanceAs (Decidable (forall dir, dir ∈ dirs -> _))

/-- What the users can do.  A directory may be renamed onto an empty one. -/
def Happening.Possible (dirs : List (List FileName)) : Happening -> Prop
  | turn _ _ => False
  | signal _ _ _ => False
  | make parent name => parent ∈ dirs ∧ parent ++ [name] ∉ dirs
  | remove parent name =>
      parent ++ [name] ∈ dirs ∧ Vacant dirs (parent ++ [name])
  | rename oldParent old newParent new _ =>
      oldParent ++ [old] ∈ dirs ∧ newParent ∈ dirs ∧
        Vacant dirs (newParent ++ [new]) ∧
        ¬ oldParent ++ [old] <+: newParent ++ [new]
  | tell dir record =>
      forall name, name ∈ broughtBy record -> dir ++ [name] ∉ dirs

instance (dirs : List (List FileName)) (happening : Happening) :
    Decidable (happening.Possible dirs) :=
  match happening with
  | Happening.turn _ _ => isFalse id
  | Happening.signal _ _ _ => isFalse id
  | Happening.make _ _ => inferInstanceAs (Decidable (_ ∧ _))
  | Happening.remove _ _ => inferInstanceAs (Decidable (_ ∧ _))
  | Happening.rename _ _ _ _ _ => inferInstanceAs (Decidable (_ ∧ _))
  | Happening.tell _ _ => inferInstanceAs (Decidable (forall _, _ ∈ _ -> _))

def Happening.dirs (dirs : List (List FileName)) :
    Happening -> List (List FileName)
  | make parent name => dirs ++ [parent ++ [name]]
  | remove parent name => dirs.filter (fun dir => dir ≠ parent ++ [name])
  | rename oldParent old newParent new _ =>
      (dirs.filter (fun dir => dir ≠ newParent ++ [new])).map
        (moved (oldParent ++ [old]) (newParent ++ [new]))
  | _ => dirs

def Happening.follow (dir : List FileName) :
    Happening -> Option (List FileName)
  | remove parent name => if dir = parent ++ [name] then none else some dir
  | rename oldParent old newParent new _ =>
      if dir = newParent ++ [new] then none
      else some (moved (oldParent ++ [old]) (newParent ++ [new]) dir)
  | _ => some dir

def Happening.news : Happening -> List (List FileName × Record)
  | turn _ _ => []
  | signal _ _ _ => []
  | make parent name => [(parent, dirRecord Handler.eventCreate 0 name)]
  | remove parent name =>
      [(parent ++ [name], selfRecord IN_DELETE_SELF),
        (parent ++ [name], selfRecord IN_IGNORED),
        (parent, dirRecord Handler.eventDelete 0 name)]
  | rename oldParent old newParent new cookie =>
      [(oldParent, dirRecord Handler.eventMoveFrom cookie old),
        (newParent, dirRecord Handler.eventMoveTo cookie new),
        (oldParent ++ [old], selfRecord IN_MOVE_SELF),
        (newParent ++ [new], selfRecord IN_DELETE_SELF),
        (newParent ++ [new], selfRecord IN_IGNORED)]
  | tell dir record => [(dir, record)]

def Happening.arrivals : Happening -> List (List FileName × FileName)
  | make parent name => [(parent, name)]
  | rename _ _ newParent new _ => [(newParent, new)]
  | _ => []

def arrivalsIn (happening : Happening) (dir : List FileName) : List FileName :=
  (happening.arrivals.filter (fun one => one.1 = dir)).map Prod.snd

def newsOf (news : List (List FileName × Record)) (dir : List FileName) :
    List Record :=
  (news.filter (fun one => one.1 = dir)).map Prod.snd

def Kernel.change (kernel : Kernel) (happening : Happening) : Option Kernel :=
  if happening.Possible kernel.dirs then
    some
      { dirs := happening.dirs kernel.dirs
        watched := fun pid =>
          (kernel.watched pid).bind (fun dir => happening.follow dir)
        queue := fun pid =>
          kernel.queue pid ++
            (kernel.watched pid).toList.flatMap (newsOf happening.news)
        opened := fun pid =>
          (kernel.opened pid).bind (fun dir => happening.follow dir)
        arrived := fun pid =>
          kernel.arrived pid ++
            (kernel.opened pid).toList.flatMap (arrivalsIn happening) }
  else none

def reading (proc : Member) : Bool :=
  match proc.code.nextOp with
  | some (Sum.inl (Call.read _)) => true
  | _ => false

/-- A signal arrives at a process.  The handler finds the process's own
`src_path`. -/
def interrupted (site : Bytes) (number : Nat) (g : Globals) (proc : Member) :
    Member :=
  if number ∈ proc.own.data.caught then
    { own :=
        { proc.own with
          data :=
            { proc.own.data with
              ending := proc.own.data.ending || number == SIG_STOP
              handling :=
                if reading proc = true then [] else proc.own.data.handling } }
      code :=
        plain
            (signalHandler number
              { g with srcPath := join site proc.own.data.path }) >>=
          fun _ => proc.code }
  else
    { proc with
      code := halt (Stop.exit (128 + number)) }

def happen (site : Bytes) (house : House) (happening : Happening) :
    Option House :=
  match happening with
  | Happening.turn who reply => Pool.step (machine site) house (who, reply)
  | Happening.signal who number g =>
      match house.procs[who]? with
      | none => none
      | some proc =>
          if running proc = true then
            some
              { house with
                procs :=
                  house.procs.set who (interrupted site number g proc) }
          else none
  | _ =>
      (house.world.change happening).map
        (fun kernel => { house with world := kernel })

/-- No two processes that live and have not begun `finish` have the same
`src_path`. -/
def OneEach (house : House) : Prop :=
  forall (i j : Nat) (proc proc' : Member), house.procs[i]? = some proc ->
    house.procs[j]? = some proc' -> active proc = true ->
    active proc' = true -> proc.own.data.path = proc'.own.data.path -> i = j

/-!
## Calm runs
-/

def Seat.below (seat : Seat) (name : FileName) : List FileName :=
  seat.path ++ [name]

/-- The `src_path` of a process, and the paths for which it is going to fork. -/
def held (proc : Member) : List (List FileName) :=
  if active proc = true then
    proc.own.data.path ::
      (proc.own.data.found ++ proc.own.data.looking.toList).map
        proc.own.data.below
  else []

/-- The names in the array of events, before the next `read`, and in the events
that are not read yet, for which `event_create` is to run. -/
def pending (kernel : Kernel) (proc : Member) : List FileName :=
  (if reading proc = true then [] else proc.own.data.handling) ++
    (kernel.queue proc.own.pid).filterMap broughtBy

def wanted (kernel : Kernel) (proc : Member) : List (List FileName) :=
  if active proc = true then
    (pending kernel proc).map proc.own.data.below
  else []

def claims (kernel : Kernel) (proc : Member) : List (List FileName) :=
  held proc ++ wanted kernel proc

def Unclaimed (house : House) (path : List FileName) : Prop :=
  path ∉ house.procs.flatMap (claims house.world)

instance (house : House) (path : List FileName) :
    Decidable (Unclaimed house path) :=
  inferInstanceAs (Decidable (path ∉ _))

/-- No process of a directory is between adding its watch and the end of its
scan, and none reads the directory. -/
def Quiescent (house : House) (dir : List FileName) : Prop :=
  forall proc, proc ∈ house.procs -> active proc = true ->
    (proc.own.data.path = dir ->
      (house.world.watched proc.own.pid).isSome = true ->
      proc.own.data.stage = Stage.scanned) ∧
    house.world.opened proc.own.pid ≠ some dir

instance (house : House) (dir : List FileName) :
    Decidable (Quiescent house dir) :=
  inferInstanceAs (Decidable (forall proc, proc ∈ house.procs -> _))

/-- A field that `lstat` does not fill does not say that a name in the array is
a directory, and `check_event` finds no other names in the array than those of
the records. -/
def CalmCall (site : Bytes) (reply : Reply) (op : Call) (own : Own Seat)
    (kernel : Kernel) : Prop :=
  match op with
  | Call.lstat path =>
      (own.data.named site path).isSome = true ->
        kernel.dirAt site path = none -> reply.mode &&& S_IFMT ≠ S_IFDIR
  | Call.read _ =>
      let records := kernel.delivered own.pid reply.count
      0 < eventCount reply.result ->
        namesFrom (records.flatMap Record.bytes ++ reply.array) 0
            (eventCount reply.result).toNat =
          (records.filterMap broughtBy).map FileName.bytes
  | _ => True

instance (site : Bytes) (reply : Reply) (op : Call) (own : Own Seat)
    (kernel : Kernel) : Decidable (CalmCall site reply op own kernel) :=
  match op with
  | Call.lstat _ => inferInstanceAs (Decidable (_ -> _ -> _))
  | Call.read _ => inferInstanceAs (Decidable (_ -> _))
  | Call.localArray | Call.log _ | Call.opendir _ | Call.closedir
  | Call.mkdir _ _ | Call.cp _ _ | Call.rm _ | Call.fork | Call.getpid
  | Call.setgid _ | Call.killpg _ _ | Call.inotifyInit
  | Call.inotifyAddWatch _ _ _ | Call.close _ | Call.usleep _ | Call.print _
  | Call.openLog | Call.signal _ => isTrue trivial

def CalmQuery (site : Bytes) (reply : Reply) (query : Query) (own : Own Seat)
    (kernel : Kernel) : Prop :=
  match query with
  | Sum.inl op => CalmCall site reply op own kernel
  | Sum.inr _ => True

instance (site : Bytes) (reply : Reply) (query : Query) (own : Own Seat)
    (kernel : Kernel) : Decidable (CalmQuery site reply query own kernel) :=
  match query with
  | Sum.inl op => inferInstanceAs (Decidable (CalmCall site reply op own kernel))
  | Sum.inr _ => isTrue trivial

/-- Directories are made, or renamed to, where no process has anything to do. -/
def Calm (site : Bytes) (house : House) : Happening -> Prop
  | Happening.turn who reply =>
      forall proc, proc ∈ house.procs[who]? ->
        forall query, query ∈ proc.code.nextOp ->
          CalmQuery site reply query proc.own house.world
  | Happening.make parent name =>
      Unclaimed house (parent ++ [name]) ∧ Quiescent house parent
  | Happening.rename oldParent old newParent new _ =>
      Quiescent house newParent ∧
        forall dir, dir ∈ house.world.dirs -> oldParent ++ [old] <+: dir ->
          Unclaimed house
            (moved (oldParent ++ [old]) (newParent ++ [new]) dir)
  | _ => True

instance (site : Bytes) (house : House) (happening : Happening) :
    Decidable (Calm site house happening) :=
  match happening with
  | Happening.turn _ _ => inferInstanceAs (Decidable (forall _, _ ∈ _ -> _))
  | Happening.make _ _ => inferInstanceAs (Decidable (_ ∧ _))
  | Happening.rename _ _ _ _ _ => inferInstanceAs (Decidable (_ ∧ _))
  | Happening.signal _ _ _ | Happening.remove _ _ | Happening.tell _ _ =>
      isTrue trivial

/-!
## The daemon
-/

def daemonOwn : Own Seat where
  pid := 1
  parent := 0
  data :=
    { path := []
      ending := false
      stage := Stage.starting
      found := []
      handling := []
      looking := none
      caught := [] }

def started (fuel : Nat) (srcPath destPath : Bytes)
    (dirs : List (List FileName)) : House :=
  Pool.single daemonOwn (daemon fuel (Globals.start srcPath destPath))
    { dirs := dirs
      watched := fun _ => none
      queue := fun _ => []
      opened := fun _ => none
      arrived := fun _ => [] }

end Watchers
end Backuper
end UnixPrograms
