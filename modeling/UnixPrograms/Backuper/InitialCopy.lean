import UnixPrograms.Backuper.Disk

/-!
# The initial copy

`copy_directory` on the root of a tree comes to one process for each directory,
and each of them copies the regular files of its own directory.
-/

namespace UnixPrograms
namespace Backuper

open Foundation Program

/-!
## What the processes come to
-/

/-- A process that has returned from `copy_directory`: its paths, the
directories that it has opened and the arguments of `cp`. -/
structure Copier where
  srcPath : Bytes
  destPath : Bytes
  opened : List Bytes
  copies : Multiset (Bytes × Bytes)
deriving DecidableEq

def copiers : Outcome Call Stop Globals Traces (Option Copier) where
  parks := fun _ => false
  parked := fun _ => none
  returned := fun own g =>
    some
      { srcPath := g.srcPath
        destPath := g.destPath
        opened := own.data.opened
        copies := own.data.copies }
  stopped := fun _ _ => none

def SourceTree.copierAt (tree : SourceTree) (path : List FileName)
    (copies : List (Bytes × Bytes)) : Copier where
  srcPath := join tree.srcPath path
  destPath := join tree.destPath path
  opened := [join tree.srcPath path, join tree.destPath path]
  copies := copies

def SourceTree.copier (tree : SourceTree) (d : List FileName × Listing) :
    Copier :=
  tree.copierAt d.1
    (d.2.files.map (fun f =>
      (join tree.srcPath (d.1 ++ [f.1]), join tree.destPath d.1)))

def SourceTree.copiersFrom (tree : SourceTree)
    (d : List FileName × Listing) : List Copier :=
  d.2.directories.map (fun e => tree.copier (d.1 ++ e.1, e.2))

/-!
## The entries of a directory
-/

def SourceTree.copiesOf (tree : SourceTree) (path : List FileName) :
    Entry -> List (Bytes × Bytes)
  | Entry.dot => []
  | Entry.dotdot => []
  | Entry.file name _ =>
      [(join tree.srcPath (path ++ [name]), join tree.destPath path)]
  | Entry.dir _ _ => []

def SourceTree.copiersOf (tree : SourceTree) (path : List FileName) :
    Entry -> List Copier
  | Entry.dot => []
  | Entry.dotdot => []
  | Entry.file _ _ => []
  | Entry.dir name inner => tree.copiersFrom (path ++ [name], inner)

theorem Listing.listed_file {listing : Listing} {name : FileName}
    {content : Bytes} (h : Entry.file name content ∈ listing.listed) :
    (name, content) ∈ listing.files := by
  apply entry_file
  simpa [listed] using h

theorem Listing.listed_dir {listing inner : Listing} {name : FileName}
    (h : Entry.dir name inner ∈ listing.listed) :
    ([name], inner) ∈ listing.directories := by
  apply entry_directory
  simpa [listed] using h

def Listing.need : Listing -> Nat
  | nil => 3
  | file _ _ rest => rest.need + 1
  | dir _ inner rest => inner.need + rest.need + 1

def Entry.cost : Entry -> Nat
  | dot => 1
  | dotdot => 1
  | file _ _ => 1
  | dir _ inner => inner.need + 1

def costOf (entries : List Entry) : Nat :=
  (entries.map Entry.cost).sum + 1

theorem costOf_cons (e : Entry) (entries : List Entry) :
    costOf (e :: entries) = e.cost + costOf entries := by
  simp only [costOf, List.map_cons, List.sum_cons, Nat.add_assoc]

theorem costOf_perm {entries entries' : List Entry}
    (h : entries.Perm entries') : costOf entries = costOf entries' := by
  rw [costOf, costOf, (h.map Entry.cost).sum_eq]

theorem Listing.costOf_listed (listing : Listing) :
    costOf listing.listed = listing.need := by
  have hentries : costOf listing.entries + 2 = listing.need := by
    induction listing with
    | nil => rfl
    | file name content rest ih =>
        rw [entries, costOf_cons, need, ← ih]
        simp only [Entry.cost]
        lia
    | dir name inner rest _ ih =>
        rw [entries, costOf_cons, need, ← ih]
        simp only [Entry.cost]
        lia
  rw [listed, costOf_cons, costOf_cons, ← hentries]
  simp only [Entry.cost]
  lia

namespace SourceTree

variable {tree : SourceTree}

theorem flatMap_copiesOf (path : List FileName) (listing : Listing) :
    listing.entries.flatMap (tree.copiesOf path) =
      listing.files.map (fun f =>
        (join tree.srcPath (path ++ [f.1]), join tree.destPath path)) := by
  induction listing with
  | nil => rfl
  | file name content rest ih =>
      rw [Listing.entries, List.flatMap_cons, ih]
      rfl
  | dir name inner rest _ ih =>
      rw [Listing.entries, List.flatMap_cons, ih]
      rfl

theorem flatMap_copiersOf (path : List FileName) (listing : Listing) :
    listing.entries.flatMap (tree.copiersOf path) =
      listing.inside.map (fun e => tree.copier (path ++ e.1, e.2)) := by
  induction listing with
  | nil => rfl
  | file name content rest ih =>
      rw [Listing.entries, List.flatMap_cons, ih]
      rfl
  | dir name inner rest _ ih =>
      rw [Listing.entries, List.flatMap_cons, ih]
      simp only [copiersOf, copiersFrom, Listing.directories, Listing.inside,
        List.map_cons, List.map_append, List.map_map, List.cons_append,
        List.append_assoc, Function.comp_def, List.nil_append]

/-- What the process of a directory and the ones that it has still to fork come
to, when it has done some copies and some entries are left. -/
def outcomesOf (tree : SourceTree) (path : List FileName)
    (done : List (Bytes × Bytes)) (entries : List Entry) :
    Multiset (Option Copier) :=
  some (tree.copierAt path (done ++ entries.flatMap (tree.copiesOf path))) ::ₘ
    (entries.flatMap (tree.copiersOf path) : Multiset Copier).map some

theorem outcomesOf_nil (path : List FileName) (done : List (Bytes × Bytes)) :
    tree.outcomesOf path done [] = {some (tree.copierAt path done)} := by
  rw [outcomesOf, List.flatMap_nil, List.append_nil]
  rfl

theorem outcomesOf_file (path : List FileName) (done : List (Bytes × Bytes))
    (name : FileName) (content : Bytes) (entries : List Entry) :
    tree.outcomesOf path done (Entry.file name content :: entries) =
      tree.outcomesOf path
        (done ++
          [(join tree.srcPath (path ++ [name]), join tree.destPath path)])
        entries := by
  rw [outcomesOf, outcomesOf, List.append_assoc]
  rfl

theorem outcomesOf_dir (path : List FileName) (done : List (Bytes × Bytes))
    (name : FileName) (inner : Listing) (entries : List Entry) :
    tree.outcomesOf path done (Entry.dir name inner :: entries) =
      tree.outcomesOf path done entries +
        (tree.copiersFrom (path ++ [name], inner) : Multiset Copier).map
          some := by
  rw [outcomesOf, List.flatMap_cons, List.flatMap_cons, ← Multiset.coe_add,
    Multiset.map_add, add_comm]
  exact (Multiset.cons_add _ _ _).symm

theorem outcomesOf_listed {d : List FileName × Listing} {order : List Entry}
    (h : order.Perm d.2.listed) :
    tree.outcomesOf d.1 [] order =
      (tree.copiersFrom d : Multiset Copier).map some := by
  have hcopies :
      (order.flatMap (tree.copiesOf d.1) : Multiset (Bytes × Bytes)) =
        d.2.files.map (fun f =>
          (join tree.srcPath (d.1 ++ [f.1]), join tree.destPath d.1)) := by
    rw [← flatMap_copiesOf d.1 d.2]
    exact Multiset.coe_eq_coe.mpr (h.flatMap_right _)
  have hbelow : (order.flatMap (tree.copiersOf d.1) : Multiset Copier) =
      d.2.inside.map (fun e => tree.copier (d.1 ++ e.1, e.2)) := by
    rw [← flatMap_copiersOf d.1 d.2]
    exact Multiset.coe_eq_coe.mpr (h.flatMap_right _)
  rw [outcomesOf, List.nil_append, hbelow, copierAt, hcopies, copiersFrom,
    Listing.directories, List.map_cons, ← Multiset.cons_coe, Multiset.map_cons,
    List.append_nil]
  rfl

end SourceTree

/-!
## The code of one process
-/

section Code

abbrev ComesTo (tree : SourceTree) (own : Own Traces) (code : Code Globals)
    (out : Multiset (Option Copier)) : Prop :=
  Yields (machine tree) tree.rules copiers own code out

variable {tree : SourceTree} {own : Own Traces} {out : Multiset (Option Copier)}

theorem yields_ask {op : Call} {k : op.Answer -> Code Globals}
    (hforks : forks op = none) (hneeds : tree.Needs op own)
    (h : forall choices disk answer after disk', tree.Known own disk ->
      act tree choices op own disk = some (answer, after, disk') ->
      ComesTo tree { own with data := after } (k answer) out) :
    ComesTo tree own (ask op >>= k) out :=
  Yields.ask hforks hneeds rfl h

theorem yields_value {op : Call} {k : op.Answer -> Code Globals}
    {answer : Choices -> op.Answer} (hforks : forks op = none)
    (hneeds : tree.Needs op own)
    (hact : forall choices disk,
      act tree choices op own disk = some (answer choices, own.data, disk))
    (h : forall choices,
      ComesTo tree own (k (answer choices)) out) :
    ComesTo tree own (ask op >>= k) out :=
  Yields.value hforks hneeds rfl hact h

theorem yields_log {message : Bytes} {k : Unit -> Code Globals}
    (h : ComesTo tree own (k ()) out) :
    ComesTo tree own (daemonLog message >>= k) out :=
  @yields_value tree own out (Call.log message) k (fun _ => ()) rfl trivial
    (fun _ _ => rfl) (fun _ => h)

theorem yields_localArray {k : Bytes -> Code Globals}
    (h : forall array, ComesTo tree own (k array) out) :
    ComesTo tree own (localArray >>= k) out :=
  @yields_value tree own out Call.localArray k (fun choices => choices.array)
    rfl trivial (fun _ _ => rfl) (fun choices => h choices.array)

theorem yields_getpid {k : Nat -> Code Globals}
    (h : ComesTo tree own (k own.pid) out) :
    ComesTo tree own (getpid >>= k) out :=
  @yields_value tree own out Call.getpid k (fun _ => own.pid) rfl trivial
    (fun _ _ => rfl) (fun _ => h)

theorem yields_inotifyInit {k : Int -> Code Globals}
    (h : forall n : Nat, ComesTo tree own (k n) out) :
    ComesTo tree own (inotifyInit >>= k) out :=
  @yields_value tree own out Call.inotifyInit k
    (fun choices => (choices.number : Int)) rfl trivial (fun _ _ => rfl)
    (fun choices => h choices.number)

theorem yields_inotifyAddWatch {fd : Int} {path : Bytes} {mask : UInt32}
    {k : Int -> Code Globals}
    (h : forall n : Nat, ComesTo tree own (k n) out) :
    ComesTo tree own (inotifyAddWatch fd path mask >>= k) out :=
  @yields_value tree own out (Call.inotifyAddWatch fd path mask) k
    (fun choices => (choices.number : Int)) rfl trivial (fun _ _ => rfl)
    (fun choices => h choices.number)

theorem yields_fork {k : Nat -> Code Globals}
    {parents childs : Multiset (Option Copier)}
    (h : forall pid, own.pid < pid ->
      ComesTo tree own (k pid) parents ∧
        ComesTo tree ((machine tree).asChild own pid) (k 0) childs) :
    ComesTo tree own (fork >>= k) (parents + childs) :=
  @Yields.fork _ _ _ _ _ _ _ _ (machine tree) tree.rules copiers own Call.fork
    k (fun pid => pid) parents childs rfl h

def opening (own : Own Traces) (path : Bytes) : Own Traces :=
  { own with
    data := { own.data with opened := own.data.opened ++ [path] } }

def copying (own : Own Traces) (c : Bytes × Bytes) : Own Traces :=
  { own with
    data := { own.data with copies := own.data.copies ++ [c] } }

theorem yields_copyFile {source dest : Bytes} {k : Unit -> Code Globals}
    {d : List FileName × Listing} {f : FileName × Bytes}
    (hopen : dest ∈ own.data.opened)
    (hcopies : tree.Copies (source, dest) d f)
    (h : ComesTo tree (copying own (source, dest)) (k ()) out) :
    ComesTo tree own (copyFile source dest >>= k) out := by
  apply yields_log
  apply @yields_ask tree own out (Call.cp source dest) k rfl
    ⟨hopen, d, f, hcopies⟩
  intro choices disk answer after disk' _ hact
  simp only [act] at hact
  split at hact
  case h_1 _ =>
    split at hact
    case isTrue _ =>
      cases hact
      exact h
    case isFalse _ => cases hact
  case h_2 _ => cases hact

theorem yields_openSource {k : List Dirent -> Code Globals}
    {d : List FileName × Listing} (hd : d ∈ tree.root.directories)
    (h : forall order, List.Perm order d.2.listed ->
      ComesTo tree (opening own (join tree.srcPath d.1))
        (k (order.map Entry.dirent)) out) :
    ComesTo tree own (openDir (join tree.srcPath d.1) Age.OLD >>= k)
      out := by
  apply @yields_ask tree own out (Call.opendir (join tree.srcPath d.1)) _ rfl
    trivial
  intro choices disk answer after disk' hknown hact
  simp only [act, (hknown.source d hd).left, if_true,
    SourceTree.listingAt_join hd] at hact
  split at hact
  case isTrue hperm =>
    cases hact
    exact h choices.order hperm
  case isFalse _ => cases hact

theorem opened_of_act {path : Bytes} {choices : Choices} {disk disk' : Disk}
    {answer : Option (List Dirent)} {after : Traces}
    (hpath : disk path = some Kind.directory)
    (hact : act tree choices (Call.opendir path) own disk =
      some (answer, after, disk')) :
    exists stream, answer = some stream ∧
      { own with data := after } = opening own path := by
  simp only [act, hpath, if_true] at hact
  split at hact
  case h_1 _ =>
    cases hact
    exact ⟨_, rfl, rfl⟩
  case h_2 _ _ =>
    split at hact
    case isTrue _ =>
      cases hact
      exact ⟨_, rfl, rfl⟩
    case isFalse _ => cases hact

theorem yields_openDest {k : List Dirent -> Code Globals}
    {d : List FileName × Listing} (hd : d ∈ tree.root.directories)
    (h : forall stream own', own'.pid = own.pid ->
      own'.data.opened = own.data.opened ++ [join tree.destPath d.1] ->
      own'.data.copies = own.data.copies ->
      ComesTo tree own' (k stream) out) :
    ComesTo tree own (openDir (join tree.destPath d.1) Age.NEW >>= k)
      out := by
  apply @yields_ask tree own out (Call.opendir (join tree.destPath d.1)) _ rfl
    trivial
  intro choices disk answer after disk' hknown hact
  by_cases hdirectory : disk (join tree.destPath d.1) = some Kind.directory
  · rcases opened_of_act hdirectory hact with ⟨stream, heq, hown⟩
    rw [heq, hown]
    exact h stream _ rfl rfl rfl
  · simp only [act, hdirectory, if_false] at hact
    cases hact
    apply @yields_ask tree own out (Call.mkdir (join tree.destPath d.1) S_IRWXU)
      _ rfl ⟨d, hd, rfl⟩
    intro choices disk answer after disk' _ hact
    simp only [act] at hact
    split at hact
    case isTrue _ =>
      cases hact
      -- the second `opendir` finds the directory that the process has made
      apply @yields_ask tree _ out (Call.opendir (join tree.destPath d.1)) _ rfl
        trivial
      intro choices disk answer after disk' hknown hact
      rcases opened_of_act (hknown.made _ (List.mem_append_right _
        List.mem_cons_self)) hact with ⟨stream, heq, hown⟩
      rw [heq, hown]
      exact h stream _ rfl rfl rfl
    case isFalse _ => cases hact

theorem createInotify_bind (g : Globals) (k : Globals -> Code Globals) :
    (createInotify g >>= k) =
      (inotifyInit >>= fun fd =>
        if fd < 0 then
          daemonLog (text "Can't create iniotify\n".toList) >>= fun _ =>
            halt (Stop.exit 1)
        else
          inotifyAddWatch fd g.srcPath watchMask >>= fun watch =>
            if watch < 0 then
              daemonLog (text "Can't add watch\n".toList) >>= fun _ =>
                halt (Stop.exit 1)
            else k { g with inFd := fd }) := by
  simp only [createInotify, exit, bind_assoc, ite_bind, halt_bind, ret_bind,
    pure_eq_ret]

theorem yields_createInotify {g : Globals} {k : Globals -> Code Globals}
    (h : forall fd, ComesTo tree own (k { g with inFd := fd }) out) :
    ComesTo tree own (createInotify g >>= k) out := by
  rw [createInotify_bind]
  apply yields_inotifyInit
  intro fd
  rw [if_neg (Int.not_lt.mpr (Int.natCast_nonneg fd))]
  apply yields_inotifyAddWatch
  intro watch
  rw [if_neg (Int.not_lt.mpr (Int.natCast_nonneg watch))]
  exact h fd

def Finishes (tree : SourceTree) (k : Globals -> Code Globals) : Prop :=
  forall own g, g.source = [] ->
    ComesTo tree own (k g) {copiers.returned own g}

structure Standing (tree : SourceTree) (d : List FileName × Listing)
    (own : Own Traces) (g : Globals) : Prop where
  directory : d ∈ tree.root.directories
  born : 0 < own.pid
  srcPath : g.srcPath = join tree.srcPath d.1
  destPath : g.destPath = join tree.destPath d.1
  opened : own.data.opened =
    [join tree.srcPath d.1, join tree.destPath d.1]

def LoopYields (tree : SourceTree) (fuel : Nat) : Prop :=
  forall k d entries own g pid array, Finishes tree k ->
    Standing tree d own g -> pid ≠ 0 -> g.source = entries.map Entry.dirent ->
    (forall e, e ∈ entries -> e ∈ d.2.listed) -> costOf entries ≤ fuel ->
    ComesTo tree own (copyLoop fuel pid array g >>= k)
      (tree.outcomesOf d.1 own.data.copies entries)

theorem costOf_pos (entries : List Entry) : 0 < costOf entries :=
  Nat.succ_pos _

theorem yields_copyDirectory {fuel : Nat} (hloop : LoopYields tree fuel)
    {k : Globals -> Code Globals} (hk : Finishes tree k)
    {d : List FileName × Listing} {g : Globals}
    (hd : d ∈ tree.root.directories) (hfuel : d.2.need ≤ fuel)
    (hsrc : g.srcPath = join tree.srcPath d.1)
    (hdest : g.destPath = join tree.destPath d.1) (hborn : 0 < own.pid)
    (hopened : own.data.opened = []) (hcopies : own.data.copies = []) :
    ComesTo tree own (copyDirectoryWith (copyLoop fuel) g >>= k)
      ((tree.copiersFrom d : Multiset Copier).map some) := by
  rw [copyDirectoryWith]
  simp only [bind_assoc]
  apply yields_createInotify
  intro fd
  simp only [hsrc, hdest]
  apply yields_openSource hd
  intro order hperm
  apply yields_openDest hd
  intro stream own' hpid hopened' hcopies'
  apply yields_localArray
  intro array
  apply yields_getpid
  have hborn' : 0 < own'.pid := by
    rw [hpid]
    exact hborn
  have hcost : costOf order ≤ fuel := by
    rw [costOf_perm hperm, Listing.costOf_listed]
    exact hfuel
  have hfresh : own'.data.copies = [] := hcopies'.trans hcopies
  rw [← SourceTree.outcomesOf_listed hperm, ← hfresh]
  apply hloop k d order own' _ own'.pid array hk ?_ (Nat.ne_of_gt hborn') rfl
    (fun e he => hperm.mem_iff.mp he) hcost
  constructor
  case directory => exact hd
  case born => exact hborn'
  case srcPath => rfl
  case destPath => rfl
  case opened =>
    rw [hopened', opening, hopened]
    rfl

/-!
## One turn of the loop
-/

section Turn

variable {fuel pid : Nat} {array : Bytes} {g : Globals} {name : FileName}
  {type : UInt8} {entries : List Dirent}

theorem copyLoop_nil (hsource : g.source = []) :
    copyLoop (fuel + 1) pid array g = ret g := by
  rw [copyLoop, hsource]
  rfl

theorem copyLoop_skip {file : Dirent} (hpid : pid ≠ 0)
    (hsource : g.source = file :: entries)
    (hname : file.name = DOT ∨ file.name = DOTDOT) :
    copyLoop (fuel + 1) pid array g =
      copyLoop fuel pid array { g with source := entries } := by
  have hskip : ¬ (file.name ≠ DOT ∧ file.name ≠ DOTDOT) :=
    fun hboth => hname.elim hboth.left hboth.right
  rw [copyLoop, hsource]
  simp only [if_neg hpid, if_neg hskip]

theorem copyLoop_copies (hpid : pid ≠ 0) (htype : type &&& DT_REG ≠ 0)
    (hsource : g.source = { name := name.bytes, type := type } :: entries) :
    copyLoop (fuel + 1) pid array g =
      (copyFile (makePath array g.srcPath name.bytes) g.destPath >>= fun _ =>
        copyLoop fuel pid (makePath array g.srcPath name.bytes)
          { g with source := entries }) := by
  rw [copyLoop, hsource]
  simp only [if_neg hpid, if_pos name.proper, if_pos htype]

theorem copyLoop_forks (hpid : pid ≠ 0) (hregular : ¬ type &&& DT_REG ≠ 0)
    (htype : type &&& DT_DIR ≠ 0)
    (hsource : g.source = { name := name.bytes, type := type } :: entries)
    (k : Globals -> Code Globals) :
    (copyLoop (fuel + 1) pid array g >>= k) =
      (fork >>= fun pid =>
        if pid = 0 then
          getpid >>= fun myPid =>
          daemonLog (text "New process!\t Pid: ".toList ++ number myPid ++
            text "\t Directory: ".toList ++
            makePath g.srcPath g.srcPath name.bytes ++
            text "\t\n".toList) >>= fun _ =>
          copyDirectoryWith (copyLoop fuel)
            { g with
              source := entries
              srcPath := makePath g.srcPath g.srcPath name.bytes
              destPath := makePath g.destPath g.destPath name.bytes } >>=
          fun g' =>
          copyLoop fuel pid (makePath array g.srcPath name.bytes) g' >>= k
        else
          copyLoop fuel pid (makePath array g.srcPath name.bytes)
            { g with source := entries } >>= k) := by
  rw [copyLoop, hsource]
  simp only [if_neg hpid, if_pos name.proper, if_neg hregular, if_pos htype,
    bind_assoc, ite_bind]

theorem copyLoop_passes (hpid : pid ≠ 0) (hregular : ¬ type &&& DT_REG ≠ 0)
    (hdirectory : ¬ type &&& DT_DIR ≠ 0)
    (hsource : g.source = { name := name.bytes, type := type } :: entries) :
    copyLoop (fuel + 1) pid array g =
      (daemonLog (text "Dont work with such files\n".toList) >>= fun _ =>
        copyLoop fuel pid (makePath array g.srcPath name.bytes)
          { g with source := entries }) := by
  rw [copyLoop, hsource]
  simp only [if_neg hpid, if_pos name.proper, if_neg hregular,
    if_neg hdirectory]

end Turn

theorem Standing.next {d : List FileName × Listing} {g : Globals}
    (h : Standing tree d own g) (own' : Own Traces) (hborn : 0 < own'.pid)
    (hopened : own'.data.opened = own.data.opened) (source : List Dirent) :
    Standing tree d own' { g with source := source } where
  directory := h.directory
  born := hborn
  srcPath := h.srcPath
  destPath := h.destPath
  opened := hopened.trans h.opened

theorem Standing.returned {d : List FileName × Listing} {g : Globals}
    (h : Standing tree d own g) :
    copiers.returned own g = some (tree.copierAt d.1 own.data.copies) := by
  simp only [copiers, SourceTree.copierAt, h.srcPath, h.destPath, h.opened]

theorem Finishes.afterLoop {k : Globals -> Code Globals}
    (hk : Finishes tree k) {fuel : Nat} (hfuel : 0 < fuel) (pid : Nat)
    (array : Bytes) : Finishes tree (fun g => copyLoop fuel pid array g >>= k) := by
  intro own g hsource
  cases fuel with
  | zero => cases hfuel
  | succ fuel =>
      change Yields _ _ _ own (copyLoop (fuel + 1) pid array g >>= k) _
      rw [copyLoop_nil hsource]
      exact hk own g hsource

theorem loopYields (tree : SourceTree) (fuel : Nat) : LoopYields tree fuel := by
  induction fuel with
  | zero =>
      intro k d entries own g pid array _ _ _ _ _ hcost
      exact absurd hcost (Nat.not_le_of_lt (Nat.succ_pos _))
  | succ fuel ih =>
      intro k d entries own g pid array hk hstanding hpid hsource hlisted hcost
      cases entries with
      | nil =>
          rw [copyLoop_nil hsource, SourceTree.outcomesOf_nil,
            ← hstanding.returned]
          exact hk own g hsource
      | cons e entries =>
          rw [costOf_cons] at hcost
          have hrest : forall e, e ∈ entries -> e ∈ d.2.listed :=
            fun e' he' => hlisted e' (List.mem_cons_of_mem e he')
          have hentry := hlisted e List.mem_cons_self
          cases e with
          | dot | dotdot =>
              rw [copyLoop_skip hpid hsource (by simp [Entry.dirent])]
              exact ih k d entries own _ pid array hk
                (hstanding.next own hstanding.born rfl _) hpid rfl hrest
                (by simp only [Entry.cost] at hcost; lia)
          | file name content =>
              rw [copyLoop_copies hpid (by decide) hsource, bind_assoc,
                SourceTree.outcomesOf_file]
              have harray : makePath array g.srcPath name.bytes =
                  join tree.srcPath (d.1 ++ [name]) := by
                rw [makePath_eq, hstanding.srcPath, join_concat]
              have hcopies : tree.Copies
                  (join tree.srcPath (d.1 ++ [name]), g.destPath) d
                  (name, content) :=
                { directory := hstanding.directory
                  file := Listing.listed_file hentry
                  source := rfl
                  dest := hstanding.destPath }
              have hopen : g.destPath ∈ own.data.opened := by
                rw [hstanding.opened, hstanding.destPath]
                exact List.mem_cons_of_mem _ List.mem_cons_self
              rw [harray, ← hstanding.destPath]
              apply yields_copyFile hopen hcopies
              exact ih k d entries _ _ pid _ hk
                (hstanding.next (copying own _) hstanding.born rfl _) hpid rfl
                hrest (by simp only [Entry.cost] at hcost; lia)
          | dir name inner =>
              rw [copyLoop_forks hpid (by decide) (by decide) hsource,
                SourceTree.outcomesOf_dir]
              apply yields_fork
              intro pid hlater
              have hleft := costOf_pos entries
              simp only [Entry.cost] at hcost
              constructor
              · rw [if_neg (by lia)]
                exact ih k d entries _ _ pid _ hk
                  (hstanding.next own hstanding.born rfl _) (by lia) rfl hrest
                  (by lia)
              · rw [if_pos rfl]
                apply yields_getpid
                apply yields_log
                apply yields_copyDirectory ih (hk.afterLoop (by lia) 0 _)
                · exact Listing.directories_trans hstanding.directory
                    (Listing.listed_dir hentry)
                · show inner.need ≤ fuel
                  lia
                · show makePath _ _ _ = _
                  rw [makePath_eq, hstanding.srcPath, ← join_concat]
                · show makePath _ _ _ = _
                  rw [makePath_eq, hstanding.destPath, ← join_concat]
                · exact Nat.lt_of_le_of_lt (Nat.zero_le _) hlater
                · rfl
                · rfl

end Code

/-!
## The whole copy
-/

def starter : Own Traces where
  pid := 1
  parent := 0
  data :=
    { made := []
      opened := []
      copies := [] }

abbrev CopyPool := Pool Call Call.Answer Stop Globals Traces Disk

theorem SourceTree.Known.mirrored {tree : SourceTree} {own : Own Traces}
    {disk : Disk} (h : tree.Known own disk) {d : List FileName × Listing}
    (hd : d ∈ tree.root.directories) {g : Globals}
    (hreturned : copiers.returned own g = some (tree.copier d)) :
    disk (join tree.destPath d.1) = some Kind.directory ∧
      forall f, f ∈ d.2.files ->
        disk (join tree.destPath (d.1 ++ [f.1])) =
          some (Kind.regular f.2) := by
  injection hreturned with hcopier
  injection hcopier with _ _ hopened hcopies
  constructor
  · apply h.opened
    rw [hopened]
    exact List.mem_cons_of_mem _ List.mem_cons_self
  · intro f hf
    have hmem : (join tree.srcPath (d.1 ++ [f.1]), join tree.destPath d.1) ∈
        own.data.copies := by
      rw [← Multiset.mem_coe, hcopies, Multiset.mem_coe]
      exact List.mem_map.mpr ⟨f, hf, rfl⟩
    rcases h.copied _ hmem with ⟨d', f', hcopies', hdisk⟩
    have hsame : join tree.srcPath (d.1 ++ [f.1]) =
        join tree.srcPath (d'.1 ++ [f'.1]) := hcopies'.source
    rw [join_injective hsame, hdisk,
      file_unique hd hcopies'.directory hf hcopies'.file hsame]

/-- However the processes take turns and whatever the order of the entries is,
the copy of a tree comes to one process for each directory, which has copied
the regular files of the directory once, and to a counterpart with all of the
tree. -/
theorem initial_copy (tree : SourceTree) {disk : Disk} {g : Globals}
    {fuel : Nat} {events : List (Nat × Choices)} {pool : CopyPool}
    (hsource : tree.root.On tree.srcPath disk)
    (hdest : tree.root.Fits tree.destPath disk)
    (hsrcPath : g.srcPath = tree.srcPath)
    (hdestPath : g.destPath = tree.destPath) (hfuel : tree.root.need ≤ fuel)
    (hrun : run (Pool.step (machine tree))
      (Pool.single starter (copyDirectory fuel g) disk) events = some pool)
    (hsettled : pool.Settled copiers) :
    (pool.outcomes copiers : Multiset (Option Copier)) =
        tree.root.directories.map (fun d => some (tree.copier d)) ∧
      tree.root.On tree.destPath pool.world := by
  have hknown : tree.Known starter disk :=
    SourceTree.known_unused hsource hdest 1 0
  have hcode := @yields_copyDirectory tree starter fuel (loopYields tree fuel)
    ret (fun _ _ _ => rfl) ([], tree.root) g List.mem_cons_self hfuel hsrcPath
    hdestPath Nat.one_pos rfl rfl
  have hout : ((tree.copiersFrom ([], tree.root) : Multiset Copier).map some) =
      (tree.root.directories.map (fun d => some (tree.copier d)) :
        Multiset (Option Copier)) := by
    rw [SourceTree.copiersFrom, Multiset.map_coe, List.map_map]
    rfl
  rw [bind_ret, hout] at hcode
  have hparks : forall op, copiers.parks op = true ->
      (machine tree).forks op = none := by
    intro op h
    cases h
  have hend :=
    Pool.outcomes_run tree.stable hparks rfl hknown hcode hrun hsettled
  refine ⟨hend.right, ?_⟩
  intro d hd
  have hmem : some (tree.copier d) ∈ pool.outcomes copiers := by
    rw [← Multiset.mem_coe, hend.right, Multiset.mem_coe]
    exact List.mem_map.mpr ⟨d, hd, rfl⟩
  rcases List.mem_filterMap.mp hmem with ⟨proc, hproc, houtcome⟩
  have hproc' := hend.left proc hproc
  rcases proc with ⟨own, code⟩
  cases code with
  | ret g' =>
      injection houtcome with houtcome
      exact SourceTree.Known.mirrored hproc' hd houtcome
  | halt reason => cases houtcome
  | call op next => cases houtcome

def nameA : FileName where
  bytes := text ['a']
  nonempty := by decide
  noNul := by decide
  noSlash := by decide
  short := by decide
  proper := by decide

def nameB : FileName where
  bytes := text ['b']
  nonempty := by decide
  noNul := by decide
  noSlash := by decide
  short := by decide
  proper := by decide

def nestedTree : SourceTree where
  root :=
    Listing.dir nameA (Listing.file nameB (text ['x']) Listing.nil)
      (Listing.file nameB (text ['y']) Listing.nil)
  distinct := ⟨by decide, ⟨by decide, trivial⟩, by decide, trivial⟩
  srcPath := text ['s']
  destPath := text ['d']

def nestedDisk : Disk := fun path =>
  if path = text ['s'] then some Kind.directory
  else if path = text ['s', '/', 'a'] then some Kind.directory
  else if path = text ['s', '/', 'a', '/', 'b'] then
    some (Kind.regular (text ['x']))
  else if path = text ['s', '/', 'b'] then some (Kind.regular (text ['y']))
  else none

def nestedGlobals : Globals where
  inFd := -1
  checkFlag := true
  srcPath := text ['s']
  destPath := text ['d']
  source := []
  dest := []
  mainPid := 1

def inOrder (listing : Listing) : Choices where
  array := []
  order := listing.listed
  stream := []
  number := 3

def nestedEvents : List (Nat × Choices) :=
  List.replicate 9 (0, inOrder nestedTree.root) ++
    List.replicate 12
      (1, inOrder (Listing.file nameB (text ['x']) Listing.nil)) ++
    List.replicate 2 (0, inOrder nestedTree.root)

theorem initial_copy_nested :
    exists pool,
      run (Pool.step (machine nestedTree))
          (Pool.single starter (copyDirectory 20 nestedGlobals) nestedDisk)
          nestedEvents = some pool ∧
        pool.procs.length = 2 ∧
        (pool.outcomes copiers : Multiset (Option Copier)) =
          nestedTree.root.directories.map
            (fun d => some (nestedTree.copier d)) ∧
        nestedTree.root.On nestedTree.destPath pool.world := by
  have hrun : exists pool,
      run (Pool.step (machine nestedTree))
          (Pool.single starter (copyDirectory 20 nestedGlobals) nestedDisk)
          nestedEvents = some pool ∧
        pool.procs.length = 2 ∧ pool.Settled copiers := by
    decide +kernel
  rcases hrun with ⟨pool, hrun, htwo, hsettled⟩
  exact ⟨pool, hrun, htwo,
    initial_copy nestedTree (by decide +kernel) (by decide +kernel) rfl rfl
      (by decide +kernel) hrun hsettled⟩

end Backuper
end UnixPrograms
