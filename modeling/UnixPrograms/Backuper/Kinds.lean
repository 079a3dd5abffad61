import UnixPrograms.Foundation.Plan
import UnixPrograms.Backuper.Disk

/-!
# Files of every kind

Source trees with regular files, directories, symbolic links, pipes, sockets
and devices, and what the system calls of `copy_directory` and of `event_create`
do on a disk with such a tree.  What a job of the backuper is to write is its
plan.
-/

namespace UnixPrograms
namespace Backuper
namespace Kinds

open Foundation

/-- What is no directory.  `cp` makes a copy of the file that a link points to,
or it fails because it cannot be read or is a directory.  A link does not point
to a pipe or a device: `cp` would wait there, or read it without end. -/
inductive Leaf where
  | regular (content : Bytes)
  | link (copied : Option Bytes)
  | fifo
  | socket
  | charDevice
  | blockDevice
deriving DecidableEq

inductive Thing where
  | directory
  | leaf (leaf : Leaf)
deriving DecidableEq

def DT_FIFO : UInt8 := 1
def DT_CHR : UInt8 := 2
def DT_BLK : UInt8 := 6
def DT_LNK : UInt8 := 10
def DT_SOCK : UInt8 := 12

def S_IFIFO : UInt32 := 0x1000
def S_IFCHR : UInt32 := 0x2000
def S_IFBLK : UInt32 := 0x6000
def S_IFLNK : UInt32 := 0xA000
def S_IFSOCK : UInt32 := 0xC000

def Leaf.type : Leaf -> UInt8
  | regular _ => DT_REG
  | link _ => DT_LNK
  | fifo => DT_FIFO
  | socket => DT_SOCK
  | charDevice => DT_CHR
  | blockDevice => DT_BLK

def Leaf.format : Leaf -> UInt32
  | regular _ => S_IFREG
  | link _ => S_IFLNK
  | fifo => S_IFIFO
  | socket => S_IFSOCK
  | charDevice => S_IFCHR
  | blockDevice => S_IFBLK

def Thing.type : Thing -> UInt8
  | directory => DT_DIR
  | leaf l => l.type

def Thing.format : Thing -> UInt32
  | directory => S_IFDIR
  | leaf l => l.format

/-- What `cp` copies.  A socket cannot be opened, and `cp` is not called for
the other kinds. -/
def Leaf.copied : Leaf -> Option Bytes
  | regular content => some content
  | link copied => copied
  | _ => none

def Leaf.noticed : Leaf -> Option Bytes
  | regular content => some content
  | _ => none

abbrev Place := List FileName × Thing

abbrev Disk := Bytes -> Option Thing

/-- The two directories; neither is below the other one. -/
structure Setting where
  srcPath : Bytes
  destPath : Bytes
  apart : forall path path', join srcPath path ≠ join destPath path'

def Setting.present (setting : Setting) (places : List Place) (disk : Disk) :
    Disk :=
  Plan.overlay (places.map (fun p => (join setting.srcPath p.1, p.2))) disk

def Thing.counterpart (copied : Leaf -> Option Bytes) : Thing -> Option Thing
  | directory => some directory
  | leaf l => (copied l).map (fun content => leaf (Leaf.regular content))

def Setting.writes (setting : Setting) (copied : Leaf -> Option Bytes)
    (places : List Place) : List (Bytes × Thing) :=
  places.filterMap
    (fun p =>
      (p.2.counterpart copied).map
        (fun thing => (join setting.destPath p.1, thing)))

namespace Setting

variable {setting : Setting} {places : List Place} {disk : Disk}

theorem mem_writes {copied : Leaf -> Option Bytes} {path : Bytes}
    {thing : Thing} :
    (path, thing) ∈ setting.writes copied places <->
      exists p, p ∈ places ∧ p.2.counterpart copied = some thing ∧
        path = join setting.destPath p.1 := by
  simp only [writes, List.mem_filterMap, Option.map_eq_some_iff,
    Prod.mk.injEq]
  constructor
  · rintro ⟨p, hp, thing', hthing, hpath, heq⟩
    rw [heq] at hthing
    exact ⟨p, hp, hthing, hpath.symm⟩
  · rintro ⟨p, hp, hthing, hpath⟩
    exact ⟨p, hp, thing, hthing, hpath.symm, rfl⟩

theorem functional_writes (copied : Leaf -> Option Bytes)
    (hplaces : Plan.Functional places) :
    Plan.Functional (setting.writes copied places) := by
  intro path thing thing' h h'
  rcases mem_writes.mp h with ⟨p, hp, hthing, hpath⟩
  rcases mem_writes.mp h' with ⟨p', hp', hthing', hpath'⟩
  have hnames : p.1 = p'.1 := join_injective (hpath.symm.trans hpath')
  have hsame : p.2 = p'.2 := by
    apply hplaces p'.1 p.2 p'.2 ?_ hp'
    rw [← hnames]
    exact hp
  rw [hsame, hthing'] at hthing
  injection hthing with heq
  exact heq.symm

theorem functional_sources (hplaces : Plan.Functional places) :
    Plan.Functional
      (places.map (fun p => (join setting.srcPath p.1, p.2))) := by
  intro path thing thing' h h'
  rcases List.mem_map.mp h with ⟨p, hp, heq⟩
  rcases List.mem_map.mp h' with ⟨p', hp', heq'⟩
  injection heq with hpath hthing
  injection heq' with hpath' hthing'
  have hnames : p.1 = p'.1 := join_injective (hpath.trans hpath'.symm)
  apply hplaces p.1 thing thing'
  · rw [← hthing]
    exact hp
  · rw [hnames, ← hthing']
    exact hp'

theorem present_of_mem (hplaces : Plan.Functional places) {p : Place}
    (hp : p ∈ places) :
    setting.present places disk (join setting.srcPath p.1) = some p.2 :=
  Plan.overlay_of_mem (functional_sources hplaces)
    (List.mem_map.mpr ⟨p, hp, rfl⟩)

theorem present_of_ne {path : Bytes}
    (h : forall p, p ∈ places -> join setting.srcPath p.1 ≠ path) :
    setting.present places disk path = disk path := by
  apply Plan.overlay_of_not_writes
  rintro ⟨thing, hmem⟩
  rcases List.mem_map.mp hmem with ⟨p, hp, heq⟩
  injection heq with hpath _
  exact h p hp hpath

theorem present_dest (path : List FileName) :
    setting.present places disk (join setting.destPath path) =
      disk (join setting.destPath path) :=
  present_of_ne (fun p _ => setting.apart p.1 path)

end Setting

/-!
## The system calls
-/

structure Deeds where
  made : List Bytes
  opened : List Bytes
  written : List (Bytes × Bytes)
deriving DecidableEq

/-- What the surroundings choose: the content of a local array, the order of
the entries of a source directory, the entries of another one, a descriptor and
the other bits of a mode. -/
structure Choices where
  array : Bytes
  order : List Dirent
  stream : List Dirent
  number : Nat
  mode : UInt32

def Setting.direntAt (setting : Setting) (path : Bytes) (p : Place) :
    Option Dirent :=
  match p.1.getLast? with
  | none => none
  | some name =>
      if join setting.srcPath p.1.dropLast = path then
        some { name := name.bytes, type := p.2.type }
      else none

def Setting.direntsOf (setting : Setting) (places : List Place)
    (path : Bytes) : List Dirent :=
  { name := DOT, type := DT_DIR } :: { name := DOTDOT, type := DT_DIR } ::
    places.filterMap (setting.direntAt path)

def Setting.InSource (setting : Setting) (places : List Place)
    (path : Bytes) : Prop :=
  path = setting.srcPath ∨
    exists p, p ∈ places ∧ p.2 = Thing.directory ∧
      join setting.srcPath p.1 = path

instance (setting : Setting) (places : List Place) (path : Bytes) :
    Decidable (setting.InSource places path) :=
  inferInstanceAs (Decidable (_ ∨ _))

def cpTarget (disk : Disk) (source dest : Bytes) : Bytes :=
  if disk dest = some Thing.directory then dest ++ SLASH :: baseName source
  else dest

/-- `cp` to a path at which there is nothing or a regular file. -/
def Writable (disk : Disk) (path : Bytes) : Bool :=
  match disk path with
  | none => true
  | some (Thing.leaf (Leaf.regular _)) => true
  | _ => false

/-- One operation.  No two processes make one directory. -/
def act (setting : Setting) (places : List Place) (choices : Choices) :
    (op : Call) -> Own Deeds -> Disk -> Option (op.Answer × Deeds × Disk)
  | Call.localArray, own, disk => some (choices.array, own.data, disk)
  | Call.log _, own, disk => some ((), own.data, disk)
  | Call.lstat path, own, disk =>
      match disk path with
      | none => some ((-1, choices.mode), own.data, disk)
      | some thing =>
          if choices.mode &&& S_IFMT = thing.format then
            some ((0, choices.mode), own.data, disk)
          else none
  | Call.opendir path, own, disk =>
      if disk path = some Thing.directory then
        let after := { own.data with opened := own.data.opened ++ [path] }
        if setting.InSource places path then
          if choices.order.Perm (setting.direntsOf places path) then
            some (some choices.order, after, disk)
          else none
        else some (some choices.stream, after, disk)
      else some (none, own.data, disk)
  | Call.mkdir path _, own, disk =>
      if disk path = none then
        some
          ((0 : Int), { own.data with made := own.data.made ++ [path] },
            Function.update disk path (some Thing.directory))
      else none
  | Call.cp source dest, own, disk =>
      let target := cpTarget disk source dest
      match disk source with
      | some (Thing.leaf l) =>
          match l.copied with
          | none => some ((), own.data, disk)
          | some content =>
              if Writable disk target = true then
                some
                  ((),
                    { own.data with
                      written := own.data.written ++ [(target, content)] },
                    Function.update disk target
                      (some (Thing.leaf (Leaf.regular content))))
              else none
      | _ => some ((), own.data, disk)
  | Call.getpid, own, disk => some (own.pid, own.data, disk)
  | Call.inotifyInit, own, disk => some ((choices.number : Int), own.data, disk)
  | Call.inotifyAddWatch _ _ _, own, disk =>
      some ((choices.number : Int), own.data, disk)
  -- no calls of the two functions
  | _, _, _ => none

def machine (setting : Setting) (places : List Place) :
    Machine Call Call.Answer Deeds Disk Choices where
  forks := forks
  kept := fun own _ => own.data
  copied := fun _ =>
    { made := []
      opened := []
      written := [] }
  act := act setting places

/-!
## Jobs

A job is what is to be written, and each process writes a part of it.  The parts
agree where they meet, so that their order does not matter.
-/

def Fits (disk : Disk) (path : Bytes) (thing : Thing) : Prop :=
  disk path = none ∨
    (disk path = some Thing.directory ∧ thing = Thing.directory) ∨
    (exists content content',
      disk path = some (Thing.leaf (Leaf.regular content)) ∧
        thing = Thing.leaf (Leaf.regular content'))

theorem Fits.of_eq {disk disk' : Disk} {path : Bytes} {thing : Thing}
    (h : Fits disk path thing) (heq : disk' path = disk path) :
    Fits disk' path thing := by
  unfold Fits
  rw [heq]
  exact h

/-- A scan, or the handling of one event: the source tree, what is to be
written, and the disk before. -/
structure Job where
  setting : Setting
  places : List Place
  plan : List (Bytes × Thing)
  start : Disk
  functional : Plan.Functional plan
  root : start setting.srcPath = some Thing.directory
  present : forall p, p ∈ places ->
    start (join setting.srcPath p.1) = some p.2
  inDest : forall path thing, (path, thing) ∈ plan ->
    exists names, path = join setting.destPath names
  fits : forall path thing, (path, thing) ∈ plan -> Fits start path thing

namespace Job

structure Known (job : Job) (own : Own Deeds) (disk : Disk) : Prop where
  within : Plan.Within job.plan job.start disk
  made : forall path, path ∈ own.data.made ->
    disk path = some Thing.directory
  opened : forall path, path ∈ own.data.opened ->
    disk path = some Thing.directory
  written : forall w, w ∈ own.data.written ->
    (w.1, Thing.leaf (Leaf.regular w.2)) ∈ job.plan ∧
      disk w.1 = some (Thing.leaf (Leaf.regular w.2))

/-- What the calls need: a planned directory is made, and a file is copied as
planned into a directory that was there before or that the process has open. -/
def Needs (job : Job) : Call -> Own Deeds -> Prop
  | Call.mkdir path _, _ => (path, Thing.directory) ∈ job.plan
  | Call.cp source dest, own =>
      (dest ∈ own.data.opened ∨ job.start dest = some Thing.directory) ∧
        exists p l, p ∈ job.places ∧ p.2 = Thing.leaf l ∧
          source = join job.setting.srcPath p.1 ∧
          forall content, l.copied = some content ->
            (dest ++ SLASH :: baseName source,
              Thing.leaf (Leaf.regular content)) ∈ job.plan
  | Call.localArray, _ => True
  | Call.log _, _ => True
  | Call.lstat _, _ => True
  | Call.opendir _, _ => True
  | Call.getpid, _ => True
  | Call.inotifyInit, _ => True
  | Call.inotifyAddWatch _ _ _, _ => True
  | _, _ => False

def rules (job : Job) : Rules Call Deeds Disk where
  known := job.Known
  needs := job.Needs

abbrev tasks (job : Job) : Machine Call Call.Answer Deeds Disk Choices :=
  machine job.setting job.places

variable {job : Job} {own : Own Deeds} {disk disk' : Disk}

theorem not_writes_source (path : List FileName) :
    ¬ Plan.Writes job.plan (join job.setting.srcPath path) := by
  rintro ⟨thing, hmem⟩
  rcases job.inDest _ thing hmem with ⟨names, heq⟩
  exact job.setting.apart path names heq

theorem Known.source (h : job.Known own disk) {p : Place}
    (hp : p ∈ job.places) :
    disk (join job.setting.srcPath p.1) = some p.2 := by
  rw [h.within.others _ (not_writes_source p.1)]
  exact job.present p hp

theorem Known.sourceRoot (h : job.Known own disk) :
    disk job.setting.srcPath = some Thing.directory := by
  have hroot := h.within.others _ (@not_writes_source job [])
  rw [join_nil] at hroot
  rw [hroot]
  exact job.root

theorem Known.writable (h : job.Known own disk) {path content : Bytes}
    (hplan : (path, Thing.leaf (Leaf.regular content)) ∈ job.plan) :
    Writable disk path = true := by
  unfold Writable
  rcases h.within.planned path _ hplan with heq | heq
  · rw [heq]
    rcases job.fits path _ hplan with hnone | ⟨_, hbad⟩ | ⟨c, _, hc, _⟩
    · rw [hnone]
    · cases hbad
    · rw [hc]
  · rw [heq]

theorem Known.step (h : job.Known own disk)
    (hstep : Plan.Step job.plan disk disk') : job.Known own disk' := by
  have hdirectory : forall path, disk path = some Thing.directory ->
      disk' path = some Thing.directory := by
    intro path hpath
    cases hstep with
    | stay => exact hpath
    | @write k v hmem =>
        by_cases hk : path = k
        · subst hk
          rw [Function.update_self]
          cases v with
          | directory => rfl
          | leaf l =>
              rcases h.within.planned path _ hmem with heq | heq
              · rw [heq] at hpath
                rcases job.fits path _ hmem with hnone | ⟨_, hbad⟩ |
                  ⟨_, _, hc, _⟩
                · rw [hnone] at hpath
                  cases hpath
                · cases hbad
                · rw [hc] at hpath
                  cases hpath
              · rw [heq] at hpath
                cases hpath
        · rw [Function.update_of_ne hk]
          exact hpath
  constructor
  case within => exact h.within.step job.functional hstep
  case made => exact fun path hmem => hdirectory path (h.made path hmem)
  case opened => exact fun path hmem => hdirectory path (h.opened path hmem)
  case written =>
    intro w hmem
    rcases h.written w hmem with ⟨hplan, hdisk⟩
    exact ⟨hplan, hstep.kept job.functional hplan hdisk⟩

theorem Known.directory_kept (h : job.Known own disk) {path : Bytes}
    (hstart : job.start path = some Thing.directory) :
    disk path = some Thing.directory := by
  by_cases hwrites : Plan.Writes job.plan path
  · rcases hwrites with ⟨thing, hplan⟩
    rcases h.within.planned path thing hplan with heq | heq
    · rw [heq]
      exact hstart
    · rcases job.fits path thing hplan with hnone | ⟨_, hthing⟩ |
        ⟨_, _, hfile, _⟩
      · rw [hstart] at hnone
        cases hnone
      · rw [heq, hthing]
      · rw [hstart] at hfile
        cases hfile
  · rw [h.within.others path hwrites]
    exact hstart

theorem Known.cpTarget_eq (h : job.Known own disk) {source dest : Bytes}
    (hopen : dest ∈ own.data.opened ∨
      job.start dest = some Thing.directory) :
    cpTarget disk source dest = dest ++ SLASH :: baseName source := by
  have hdirectory : disk dest = some Thing.directory :=
    hopen.elim (h.opened dest) h.directory_kept
  rw [cpTarget, if_pos hdirectory]

theorem Known.act (h : job.Known own disk) {op : Call} {choices : Choices}
    {answer : op.Answer} {after : Deeds} (hneeds : job.Needs op own)
    (hact : act job.setting job.places choices op own disk =
      some (answer, after, disk')) :
    Plan.Step job.plan disk disk' ∧
      job.Known { own with data := after } disk' := by
  cases op with
  | localArray | log _ | getpid | inotifyInit | inotifyAddWatch _ _ _ =>
      cases hact
      exact ⟨Plan.Step.stay, h⟩
  | lstat path =>
      simp only [Kinds.act] at hact
      split at hact
      · cases hact
        exact ⟨Plan.Step.stay, h⟩
      · split at hact
        · cases hact
          exact ⟨Plan.Step.stay, h⟩
        · cases hact
  | opendir path =>
      simp only [Kinds.act] at hact
      split at hact
      case isTrue hdirectory =>
        have hopened : job.Known
            { own with
              data :=
                { own.data with opened := own.data.opened ++ [path] } }
            disk :=
          { h with
            opened := by
              intro path' hmem
              rcases List.mem_append.mp hmem with hold | hnew
              · exact h.opened path' hold
              · rw [List.mem_singleton.mp hnew]
                exact hdirectory }
        split at hact
        case isTrue _ =>
          split at hact
          case isTrue _ =>
            cases hact
            exact ⟨Plan.Step.stay, hopened⟩
          case isFalse _ => cases hact
        case isFalse _ =>
          cases hact
          exact ⟨Plan.Step.stay, hopened⟩
      case isFalse _ =>
        cases hact
        exact ⟨Plan.Step.stay, h⟩
  | mkdir path mode =>
      have hplan : (path, Thing.directory) ∈ job.plan := hneeds
      simp only [Kinds.act] at hact
      split at hact
      case isTrue hnone =>
        cases hact
        have hstep : Plan.Step job.plan disk
            (Function.update disk path (some Thing.directory)) :=
          Plan.Step.write hplan
        have hknown := h.step hstep
        refine ⟨hstep, { hknown with made := ?_ }⟩
        intro path' hmem
        rcases List.mem_append.mp hmem with hold | hnew
        · exact hknown.made path' hold
        · rw [List.mem_singleton.mp hnew]
          exact Function.update_self _ _ _
      case isFalse _ => cases hact
  | cp source dest =>
      rcases hneeds with ⟨hopen, p, l, hp, hthing, hsource, hplanned⟩
      have hdisk : disk source = some (Thing.leaf l) := by
        rw [hsource, h.source hp, hthing]
      simp only [Kinds.act, hdisk, h.cpTarget_eq hopen] at hact
      split at hact
      · cases hact
        exact ⟨Plan.Step.stay, h⟩
      · rename_i content hcopied
        have hplan := hplanned content hcopied
        rw [if_pos (h.writable hplan)] at hact
        cases hact
        have hstep : Plan.Step job.plan disk
            (Function.update disk (dest ++ SLASH :: baseName source)
              (some (Thing.leaf (Leaf.regular content)))) :=
          Plan.Step.write hplan
        have hknown := h.step hstep
        refine ⟨hstep, { hknown with written := ?_ }⟩
        intro w hmem
        rcases List.mem_append.mp hmem with hold | hnew
        · exact hknown.written w hold
        · rw [List.mem_singleton.mp hnew]
          exact ⟨hplan, Function.update_self _ _ _⟩
  | closedir | rm _ | fork | setgid _ | killpg _ _ | close _ | usleep _
  | print _ | openLog | signal _ | read _ => exact absurd hneeds id

theorem known_idle (hwithin : Plan.Within job.plan job.start disk)
    (pid parent : Nat) : job.Known ⟨pid, parent, ⟨[], [], []⟩⟩ disk := by
  constructor
  case within => exact hwithin
  case made =>
    intro path hmem
    cases hmem
  case opened =>
    intro path hmem
    cases hmem
  case written =>
    intro w hmem
    cases hmem

theorem stable (job : Job) : job.tasks.Stable job.rules where
  parent := fun _ _ _ h => h
  child := fun own _ pid h => known_idle h.within pid own.pid
  act := fun _ _ _ _ _ _ _ h hneeds hact => (h.act hneeds hact).right
  others := fun _ _ _ _ _ _ _ _ h hactor hneeds hact =>
    h.step (hactor.act hneeds hact).left

end Job

end Kinds
end Backuper
end UnixPrograms
