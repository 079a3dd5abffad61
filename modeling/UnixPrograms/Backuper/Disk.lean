import UnixPrograms.Foundation.ForkTree
import UnixPrograms.Backuper.Tree

/-!
# The disk of the initial copy

One disk has the source tree and its counterpart.  The system calls that
`copy_directory` makes succeed, but for `opendir` on a directory that is not
there yet, and nothing changes the source tree.  A path may be of any length;
the arrays of `backuper.c` hold the ones below `PATH_SIZE`.
-/

namespace UnixPrograms
namespace Backuper

open Foundation

inductive Kind where
  | directory
  | regular (content : Bytes)
deriving DecidableEq

abbrev Disk := Bytes -> Option Kind

namespace Listing

def On (root : Listing) (path : Bytes) (disk : Disk) : Prop :=
  forall d, d ∈ root.directories ->
    disk (join path d.1) = some Kind.directory ∧
      forall f, f ∈ d.2.files ->
        disk (join path (d.1 ++ [f.1])) = some (Kind.regular f.2)

/-- Below a path the disk has nothing, or files of the same kind. -/
def Fits (root : Listing) (path : Bytes) (disk : Disk) : Prop :=
  forall d, d ∈ root.directories ->
    (disk (join path d.1) = none ∨
        disk (join path d.1) = some Kind.directory) ∧
      forall f, f ∈ d.2.files ->
        disk (join path (d.1 ++ [f.1])) ≠ some Kind.directory

instance (root : Listing) (path : Bytes) (disk : Disk) :
    Decidable (root.On path disk) :=
  inferInstanceAs (Decidable (forall d, d ∈ root.directories -> _))

instance (root : Listing) (path : Bytes) (disk : Disk) :
    Decidable (root.Fits path disk) :=
  inferInstanceAs (Decidable (forall d, d ∈ root.directories -> _))

end Listing

structure SourceTree where
  root : Listing
  distinct : root.Distinct
  srcPath : Bytes
  destPath : Bytes

def SourceTree.listingAt (tree : SourceTree) (path : Bytes) : Option Listing :=
  (tree.root.directories.find? (fun d => join tree.srcPath d.1 = path)).map
    Prod.snd

def baseName (path : Bytes) : Bytes :=
  (path.reverse.takeWhile (fun b => b ≠ SLASH)).reverse

def cpTarget (disk : Disk) (source dest : Bytes) : Bytes :=
  if disk dest = some Kind.directory then dest ++ SLASH :: baseName source
  else dest

/-- What a process has done: the directories that it has made and opened, and
the arguments of `cp`. -/
structure Traces where
  made : List Bytes
  opened : List Bytes
  copies : List (Bytes × Bytes)
deriving DecidableEq

/-- What the surroundings choose: the content of a local array, the order of
the entries of a directory of the tree, the entries of another one, and a
descriptor. -/
structure Choices where
  array : Bytes
  order : List Entry
  stream : List Dirent
  number : Nat

/-- One operation.  A file that would change the source tree is not copied. -/
def act (tree : SourceTree) (choices : Choices) :
    (op : Call) -> Own Traces -> Disk -> Option (op.Answer × Traces × Disk)
  | Call.localArray, own, disk => some (choices.array, own.data, disk)
  | Call.log _, own, disk => some ((), own.data, disk)
  | Call.opendir path, own, disk =>
      if disk path = some Kind.directory then
        let after := { own.data with opened := own.data.opened ++ [path] }
        match tree.listingAt path with
        | none => some (some choices.stream, after, disk)
        | some listing =>
            if choices.order.Perm listing.listed then
              some (some (choices.order.map Entry.dirent), after, disk)
            else none
      else some (none, own.data, disk)
  | Call.mkdir path _, own, disk =>
      if disk path = none then
        some
          ((0 : Int), { own.data with made := own.data.made ++ [path] },
            Function.update disk path (some Kind.directory))
      else none
  | Call.cp source dest, own, disk =>
      let target := cpTarget disk source dest
      match disk source with
      | some (Kind.regular content) =>
          let disk' :=
            Function.update disk target (some (Kind.regular content))
          if disk target ≠ some Kind.directory ∧ target ≠ source ∧
              tree.root.On tree.srcPath disk' then
            some
              ((),
                { own.data with
                  copies := own.data.copies ++ [(source, dest)] },
                disk')
          else none
      | _ => none
  | Call.getpid, own, disk => some (own.pid, own.data, disk)
  | Call.inotifyInit, own, disk => some ((choices.number : Int), own.data, disk)
  | Call.inotifyAddWatch _ _ _, own, disk =>
      some ((choices.number : Int), own.data, disk)
  -- no calls of `copy_directory`
  | _, _, _ => none

def forks : (op : Call) -> Option (Nat -> op.Answer)
  | Call.fork => some (fun pid => pid)
  | _ => none

def machine (tree : SourceTree) :
    Machine Call Call.Answer Traces Disk Choices where
  forks := forks
  kept := fun own _ => own.data
  copied := fun _ =>
    { made := []
      opened := []
      copies := [] }
  act := act tree

/-!
## What a process knows of the disk

Directories never vanish and copies stay, so that what a process has seen is
still true when others have taken their turns.
-/

structure SourceTree.Copies (tree : SourceTree) (c : Bytes × Bytes)
    (d : List FileName × Listing) (f : FileName × Bytes) : Prop where
  directory : d ∈ tree.root.directories
  file : f ∈ d.2.files
  source : c.1 = join tree.srcPath (d.1 ++ [f.1])
  dest : c.2 = join tree.destPath d.1

structure SourceTree.Known (tree : SourceTree) (own : Own Traces)
    (disk : Disk) : Prop where
  source : tree.root.On tree.srcPath disk
  fits : tree.root.Fits tree.destPath disk
  made : forall path, path ∈ own.data.made ->
    disk path = some Kind.directory
  opened : forall path, path ∈ own.data.opened ->
    disk path = some Kind.directory
  copied : forall c, c ∈ own.data.copies ->
    exists d f, tree.Copies c d f ∧
      disk (join tree.destPath (d.1 ++ [f.1])) = some (Kind.regular f.2)

/-- What the calls need: directories are made for directories of the tree, and
files are copied into a directory that is open. -/
def SourceTree.Needs (tree : SourceTree) : Call -> Own Traces -> Prop
  | Call.mkdir path _, _ =>
      exists d, d ∈ tree.root.directories ∧ path = join tree.destPath d.1
  | Call.cp source dest, own =>
      dest ∈ own.data.opened ∧ exists d f, tree.Copies (source, dest) d f
  | Call.localArray, _ => True
  | Call.log _, _ => True
  | Call.opendir _, _ => True
  | Call.getpid, _ => True
  | Call.inotifyInit, _ => True
  | Call.inotifyAddWatch _ _ _, _ => True
  | _, _ => False

def SourceTree.rules (tree : SourceTree) : Rules Call Traces Disk where
  known := tree.Known
  needs := tree.Needs

inductive SourceTree.Grows (tree : SourceTree) (disk : Disk) :
    Disk -> Prop where
  | same : Grows tree disk disk
  | directory {d : List FileName × Listing} :
      d ∈ tree.root.directories -> disk (join tree.destPath d.1) = none ->
      Grows tree disk
        (Function.update disk (join tree.destPath d.1) (some Kind.directory))
  | file {d : List FileName × Listing} {f : FileName × Bytes} :
      d ∈ tree.root.directories -> f ∈ d.2.files ->
      tree.root.On tree.srcPath
        (Function.update disk (join tree.destPath (d.1 ++ [f.1]))
          (some (Kind.regular f.2))) ->
      Grows tree disk
        (Function.update disk (join tree.destPath (d.1 ++ [f.1]))
          (some (Kind.regular f.2)))

theorem baseName_append (dir : Bytes) (name : FileName) :
    baseName (dir ++ SLASH :: name.bytes) = name.bytes := by
  have hname : forall b, b ∈ name.bytes.reverse -> b ≠ SLASH := by
    intro b hb heq
    rw [heq] at hb
    exact name.noSlash (List.mem_reverse.mp hb)
  rw [baseName, List.reverse_append, List.reverse_cons, List.append_assoc,
    List.takeWhile_append_of_pos (by simpa using hname)]
  simp

namespace SourceTree

variable {tree : SourceTree} {disk disk' : Disk} {own : Own Traces}

theorem directory_unique {d d' : List FileName × Listing}
    (h : d ∈ tree.root.directories) (h' : d' ∈ tree.root.directories)
    (heq : d.1 = d'.1) : d.2 = d'.2 := by
  have hlookup := (Listing.lookup_directory tree.distinct h).left
  rw [heq, (Listing.lookup_directory tree.distinct h').left] at hlookup
  injection hlookup with hlookup
  injection hlookup with hlookup
  exact hlookup.symm

theorem directory_ne_file {path : Bytes} {d d' : List FileName × Listing}
    {f : FileName × Bytes} (h : d ∈ tree.root.directories)
    (h' : d' ∈ tree.root.directories) (hf : f ∈ d'.2.files) :
    join path d.1 ≠ join path (d'.1 ++ [f.1]) := by
  intro heq
  have hlookup := (Listing.lookup_directory tree.distinct h).left
  rw [join_injective heq, Listing.lookup_file tree.distinct h' hf] at hlookup
  cases hlookup

theorem file_unique {path : Bytes} {d d' : List FileName × Listing}
    {f f' : FileName × Bytes} (h : d ∈ tree.root.directories)
    (h' : d' ∈ tree.root.directories) (hf : f ∈ d.2.files)
    (hf' : f' ∈ d'.2.files)
    (heq : join path (d.1 ++ [f.1]) = join path (d'.1 ++ [f'.1])) :
    f.2 = f'.2 := by
  have hlookup := Listing.lookup_file tree.distinct h hf
  rw [join_injective heq, Listing.lookup_file tree.distinct h' hf'] at hlookup
  injection hlookup with hlookup
  injection hlookup with hlookup
  exact hlookup.symm

theorem listingAt_join {d : List FileName × Listing}
    (h : d ∈ tree.root.directories) :
    tree.listingAt (join tree.srcPath d.1) = some d.2 := by
  have hsome : (tree.root.directories.find?
      (fun e => join tree.srcPath e.1 = join tree.srcPath d.1)).isSome := by
    rw [List.find?_isSome]
    exact ⟨d, h, by simp⟩
  rcases Option.isSome_iff_exists.mp hsome with ⟨e, he⟩
  have hjoin : join tree.srcPath e.1 = join tree.srcPath d.1 := by
    simpa using List.find?_some he
  rw [listingAt, he]
  exact congrArg some (directory_unique (List.mem_of_find?_eq_some he) h
    (join_injective hjoin))

/-!
## The steps keep what is known
-/

theorem Grows.on (h : tree.Grows disk disk')
    (hon : tree.root.On tree.srcPath disk) :
    tree.root.On tree.srcPath disk' := by
  cases h with
  | same => exact hon
  | @directory d hd hnone =>
      have hother : forall path kind, disk path = some kind ->
          Function.update disk (join tree.destPath d.1)
            (some Kind.directory) path = some kind := by
        intro path kind hpath
        rw [Function.update_of_ne, hpath]
        intro heq
        rw [heq, hnone] at hpath
        cases hpath
      intro d' hd'
      constructor
      · exact hother _ _ (hon d' hd').left
      · intro f hf
        exact hother _ _ ((hon d' hd').right f hf)
  | file hd hf hon' => exact hon'

theorem Grows.fits (h : tree.Grows disk disk')
    (hfits : tree.root.Fits tree.destPath disk) :
    tree.root.Fits tree.destPath disk' := by
  cases h with
  | same => exact hfits
  | @directory d hd hnone =>
      intro d' hd'
      constructor
      · by_cases heq : join tree.destPath d'.1 = join tree.destPath d.1
        · rw [heq, Function.update_self]
          exact Or.inr rfl
        · rw [Function.update_of_ne heq]
          exact (hfits d' hd').left
      · intro f hf
        rw [Function.update_of_ne (Ne.symm (directory_ne_file hd hd' hf))]
        exact (hfits d' hd').right f hf
  | @file d f hd hf _ =>
      intro d' hd'
      constructor
      · rw [Function.update_of_ne (directory_ne_file hd' hd hf)]
        exact (hfits d' hd').left
      · intro f' hf'
        by_cases heq : join tree.destPath (d'.1 ++ [f'.1]) =
            join tree.destPath (d.1 ++ [f.1])
        · rw [heq, Function.update_self]
          intro h
          cases h
        · rw [Function.update_of_ne heq]
          exact (hfits d' hd').right f' hf'

theorem Grows.directory_kept (h : tree.Grows disk disk')
    (hfits : tree.root.Fits tree.destPath disk) {path : Bytes}
    (hpath : disk path = some Kind.directory) :
    disk' path = some Kind.directory := by
  cases h with
  | same => exact hpath
  | @directory d hd hnone =>
      rw [Function.update_of_ne, hpath]
      intro heq
      rw [heq, hnone] at hpath
      cases hpath
  | @file d f hd hf _ =>
      rw [Function.update_of_ne, hpath]
      intro heq
      rw [heq] at hpath
      exact (hfits d hd).right f hf hpath

theorem Grows.copy_kept (h : tree.Grows disk disk')
    {d : List FileName × Listing} {f : FileName × Bytes}
    (hd : d ∈ tree.root.directories) (hf : f ∈ d.2.files)
    (hcopy : disk (join tree.destPath (d.1 ++ [f.1])) =
      some (Kind.regular f.2)) :
    disk' (join tree.destPath (d.1 ++ [f.1])) = some (Kind.regular f.2) := by
  cases h with
  | same => exact hcopy
  | @directory d' hd' hnone =>
      rw [Function.update_of_ne (Ne.symm (directory_ne_file hd' hd hf)), hcopy]
  | @file d' f' hd' hf' _ =>
      by_cases heq : join tree.destPath (d.1 ++ [f.1]) =
          join tree.destPath (d'.1 ++ [f'.1])
      · rw [heq, Function.update_self, file_unique hd hd' hf hf' heq]
      · rw [Function.update_of_ne heq, hcopy]

theorem Known.grow (h : tree.Known own disk) (hgrows : tree.Grows disk disk') :
    tree.Known own disk' := by
  constructor
  case source => exact hgrows.on h.source
  case fits => exact hgrows.fits h.fits
  case made =>
    intro path hmem
    exact hgrows.directory_kept h.fits (h.made path hmem)
  case opened =>
    intro path hmem
    exact hgrows.directory_kept h.fits (h.opened path hmem)
  case copied =>
    intro c hmem
    rcases h.copied c hmem with ⟨d, f, hcopies, hdisk⟩
    exact ⟨d, f, hcopies,
      hgrows.copy_kept hcopies.directory hcopies.file hdisk⟩

theorem Known.cpTarget_eq (h : tree.Known own disk) {source dest : Bytes}
    {d : List FileName × Listing} {f : FileName × Bytes}
    (hopen : dest ∈ own.data.opened)
    (hcopies : tree.Copies (source, dest) d f) :
    cpTarget disk source dest = join tree.destPath (d.1 ++ [f.1]) := by
  have hsource : source = join tree.srcPath (d.1 ++ [f.1]) := hcopies.source
  have hdest : dest = join tree.destPath d.1 := hcopies.dest
  rw [cpTarget, if_pos (h.opened dest hopen), hsource, hdest, join_concat,
    baseName_append, ← join_concat]

theorem Known.act (h : tree.Known own disk) {op : Call} {choices : Choices}
    {answer : op.Answer} {after : Traces} (hneeds : tree.Needs op own)
    (hact : act tree choices op own disk = some (answer, after, disk')) :
    tree.Grows disk disk' ∧ tree.Known { own with data := after } disk' := by
  cases op with
  | localArray | log _ | getpid | inotifyInit | inotifyAddWatch _ _ _ =>
      injection hact with hact
      cases hact
      exact ⟨Grows.same, h⟩
  | opendir path =>
      simp only [Backuper.act] at hact
      split at hact
      case isTrue hdirectory =>
        have hopened : tree.Known
            { own with
              data :=
                { own.data with opened := own.data.opened ++ [path] } }
            disk :=
          { h with
            opened := by
              intro path' hmem
              rcases List.mem_append.mp hmem with hold | hnew
              · exact h.opened path' hold
              · rw [List.mem_singleton.mp hnew]
                exact hdirectory }
        split at hact
        case h_1 _ =>
          cases hact
          exact ⟨Grows.same, hopened⟩
        case h_2 _ _ =>
          split at hact
          case isTrue _ =>
            cases hact
            exact ⟨Grows.same, hopened⟩
          case isFalse _ => cases hact
      case isFalse _ =>
        cases hact
        exact ⟨Grows.same, h⟩
  | mkdir path mode =>
      rcases hneeds with ⟨d, hd, hpath⟩
      simp only [Backuper.act] at hact
      split at hact
      case isTrue hnone =>
        cases hact
        rw [hpath] at hnone ⊢
        have hgrows := Grows.directory hd hnone
        have hknown := h.grow hgrows
        refine ⟨hgrows, { hknown with made := ?_ }⟩
        intro path' hmem
        rcases List.mem_append.mp hmem with hold | hnew
        · exact hknown.made path' hold
        · rw [List.mem_singleton.mp hnew]
          exact Function.update_self _ _ _
      case isFalse _ => cases hact
  | cp source dest =>
      rcases hneeds with ⟨hopen, d, f, hcopies⟩
      have hsource : disk source = some (Kind.regular f.2) := by
        rw [show source = _ from hcopies.source]
        exact (h.source d hcopies.directory).right f hcopies.file
      simp only [Backuper.act, hsource, h.cpTarget_eq hopen hcopies] at hact
      split at hact
      case isTrue hallowed =>
        cases hact
        have hgrows :=
          Grows.file hcopies.directory hcopies.file hallowed.right.right
        have hknown := h.grow hgrows
        refine ⟨hgrows, { hknown with copied := ?_ }⟩
        intro c hmem
        rcases List.mem_append.mp hmem with hold | hnew
        · exact hknown.copied c hold
        · rw [List.mem_singleton.mp hnew]
          exact ⟨d, f, hcopies, Function.update_self _ _ _⟩
      case isFalse _ => cases hact
  | lstat _ | closedir | rm _ | fork | setgid _ | killpg _ _ | close _
  | usleep _ | print _ | openLog | signal _ | read _ =>
      exact absurd hneeds id

theorem known_unused (hsource : tree.root.On tree.srcPath disk)
    (hfits : tree.root.Fits tree.destPath disk) (pid parent : Nat) :
    tree.Known ⟨pid, parent, ⟨[], [], []⟩⟩ disk := by
  constructor
  case source => exact hsource
  case fits => exact hfits
  case made =>
    intro path hmem
    cases hmem
  case opened =>
    intro path hmem
    cases hmem
  case copied =>
    intro c hmem
    cases hmem

theorem stable (tree : SourceTree) : (machine tree).Stable tree.rules where
  parent := fun _ _ _ h => h
  child := fun own _ pid h => known_unused h.source h.fits pid own.pid
  act := fun _ _ _ _ _ _ _ h hneeds hact => (h.act hneeds hact).right
  others := fun _ _ _ _ _ _ _ _ h hactor hneeds hact =>
    h.grow (hactor.act hneeds hact).left

end SourceTree

end Backuper
end UnixPrograms
