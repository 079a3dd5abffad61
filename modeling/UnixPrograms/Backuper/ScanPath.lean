import UnixPrograms.Backuper.InitialCopy
import UnixPrograms.Backuper.KindTree

/-!
# The scan of a tree with files of every kind

`copy_directory` tells the kinds apart by single bits of `d_type`: a link and a
socket share a bit with a regular file, and a block device shares one with a
directory.
-/

namespace UnixPrograms
namespace Backuper
namespace Kinds

open Foundation Program

/-!
## What the processes come to
-/

/-- A process that has ended or goes on to watch a directory: the paths of the
directory and of its counterpart, and what the process has done. -/
structure Report where
  watcher : Option (Bytes × Bytes)
  opened : List Bytes
  written : Multiset (Bytes × Bytes)
deriving DecidableEq

def reports : Outcome Call Stop Globals Deeds Report where
  parks := fun _ => false
  parked := fun own =>
    { watcher := none
      opened := own.data.opened
      written := own.data.written }
  returned := fun own g =>
    { watcher := some (g.srcPath, g.destPath)
      opened := own.data.opened
      written := own.data.written }
  stopped := fun own _ =>
    { watcher := none
      opened := own.data.opened
      written := own.data.written }

/-- The process that has been forked for a block device and has ended. -/
def lost : Report where
  watcher := none
  opened := []
  written := 0

/-- The processes that the scan forks for what is no directory. -/
def Leaf.forked : Leaf -> List Report
  | blockDevice => [lost]
  | _ => []

namespace Setting

variable (setting : Setting)

def reportAt (path : List FileName) (written : List (Bytes × Bytes)) :
    Report where
  watcher := some (join setting.srcPath path, join setting.destPath path)
  opened := [join setting.srcPath path, join setting.destPath path]
  written := written

def writesOf (path : List FileName) : Entry -> List (Bytes × Bytes)
  | Entry.dot => []
  | Entry.dotdot => []
  | Entry.leaf name kind =>
      match kind.copied with
      | none => []
      | some content => [(join setting.destPath (path ++ [name]), content)]
  | Entry.dir _ _ => []

def report (path : List FileName) (listing : Listing) : Report :=
  setting.reportAt path (listing.entries.flatMap (setting.writesOf path))

def below : List FileName -> Listing -> List Report
  | _, Listing.nil => []
  | path, Listing.leaf _ kind rest => kind.forked ++ below path rest
  | path, Listing.dir name inner rest =>
      setting.report (path ++ [name]) inner :: below (path ++ [name]) inner ++
        below path rest

def reportsOf (path : List FileName) : Entry -> List Report
  | Entry.dot => []
  | Entry.dotdot => []
  | Entry.leaf _ kind => kind.forked
  | Entry.dir name inner =>
      setting.report (path ++ [name]) inner :: setting.below (path ++ [name]) inner

theorem flatMap_reportsOf (path : List FileName) (listing : Listing) :
    listing.entries.flatMap (setting.reportsOf path) =
      setting.below path listing := by
  induction listing with
  | nil => rfl
  | leaf name kind rest ih =>
      rw [Listing.entries, List.flatMap_cons, ih]
      rfl
  | dir name inner rest _ ih =>
      rw [Listing.entries, List.flatMap_cons, ih]
      rfl

def reportsFrom (d : List FileName × Listing) : List Report :=
  setting.report d.1 d.2 :: setting.below d.1 d.2

theorem report_mem {path : List FileName} {listing : Listing}
    {e : List FileName × Listing} (h : e ∈ listing.inside) :
    setting.report (path ++ e.1) e.2 ∈ setting.below path listing := by
  induction listing generalizing path e with
  | nil => cases h
  | leaf name kind rest ih => exact List.mem_append_right _ (ih h)
  | dir name inner rest ihinner ihrest =>
      rcases List.mem_cons.mp h with heq | hmem
      · rw [heq]
        exact List.mem_cons_self
      · rcases List.mem_append.mp hmem with hinner | hrest
        · rcases List.mem_map.mp hinner with ⟨e', he', heq⟩
          have hbelow := @ihinner (path ++ [name]) e' he'
          rw [← heq]
          rw [List.append_assoc] at hbelow
          exact List.mem_append_left _ (List.mem_cons_of_mem _ hbelow)
        · exact List.mem_append_right _ (ihrest hrest)

theorem below_watchers (path : List FileName) (listing : Listing) :
    (setting.below path listing).filterMap Report.watcher =
      listing.inside.map (fun e =>
        (join setting.srcPath (path ++ e.1),
          join setting.destPath (path ++ e.1))) := by
  induction listing generalizing path with
  | nil => rfl
  | leaf name kind rest ih =>
      have hforked : kind.forked.filterMap Report.watcher = [] := by
        cases kind <;> rfl
      rw [below, List.filterMap_append, hforked, ih]
      rfl
  | dir name inner rest ihinner ihrest =>
      rw [below, List.filterMap_append, List.filterMap_cons, ihinner, ihrest]
      simp only [report, reportAt, Listing.inside, List.map_cons,
        List.map_append, List.map_map, List.cons_append, List.append_assoc,
        Function.comp_def, List.nil_append]

/-- What the process of a directory and the ones that it has still to fork come
to, when it has written some files and some entries are left. -/
def outcomesOf (path : List FileName) (done : List (Bytes × Bytes))
    (entries : List Entry) : Multiset Report :=
  setting.reportAt path (done ++ entries.flatMap (setting.writesOf path)) ::ₘ
    (entries.flatMap (setting.reportsOf path) : Multiset Report)

theorem outcomesOf_nil (path : List FileName) (done : List (Bytes × Bytes)) :
    setting.outcomesOf path done [] = {setting.reportAt path done} := by
  rw [outcomesOf, List.flatMap_nil, List.append_nil]
  rfl

theorem outcomesOf_cons (path : List FileName) (done : List (Bytes × Bytes))
    (e : Entry) (entries : List Entry) :
    setting.outcomesOf path done (e :: entries) =
      setting.outcomesOf path (done ++ setting.writesOf path e) entries +
        (setting.reportsOf path e : Multiset Report) := by
  rw [outcomesOf, outcomesOf, List.flatMap_cons, List.flatMap_cons,
    List.append_assoc, ← Multiset.coe_add, Multiset.cons_add, add_comm]

theorem outcomesOf_alone {path : List FileName} {done : List (Bytes × Bytes)}
    {e : Entry} {entries : List Entry} (h : setting.reportsOf path e = []) :
    setting.outcomesOf path done (e :: entries) =
      setting.outcomesOf path (done ++ setting.writesOf path e) entries := by
  rw [outcomesOf_cons, h]
  exact add_zero _

theorem outcomesOf_listed {d : List FileName × Listing} {order : List Entry}
    (h : order.Perm d.2.listed) :
    setting.outcomesOf d.1 [] order =
      (setting.reportsFrom d : Multiset Report) := by
  have hwrites :
      (order.flatMap (setting.writesOf d.1) : Multiset (Bytes × Bytes)) =
        d.2.entries.flatMap (setting.writesOf d.1) :=
    Multiset.coe_eq_coe.mpr (h.flatMap_right _)
  have hbelow : (order.flatMap (setting.reportsOf d.1) : Multiset Report) =
      setting.below d.1 d.2 := by
    rw [← setting.flatMap_reportsOf d.1 d.2]
    exact Multiset.coe_eq_coe.mpr (h.flatMap_right _)
  rw [outcomesOf, List.nil_append, hbelow, reportAt, hwrites]
  rfl

end Setting

def Listing.need : Listing -> Nat
  | nil => 3
  | leaf _ _ rest => rest.need + 1
  | dir _ inner rest => inner.need + rest.need + 1

def Entry.cost : Entry -> Nat
  | dot => 1
  | dotdot => 1
  | leaf _ _ => 1
  | dir _ inner => inner.need + 1

def costOf (entries : List Entry) : Nat :=
  (entries.map Entry.cost).sum + 1

theorem costOf_cons (e : Entry) (entries : List Entry) :
    costOf (e :: entries) = e.cost + costOf entries := by
  simp only [costOf, List.map_cons, List.sum_cons, Nat.add_assoc]

theorem costOf_pos (entries : List Entry) : 0 < costOf entries :=
  Nat.succ_pos _

theorem costOf_perm {entries entries' : List Entry}
    (h : entries.Perm entries') : costOf entries = costOf entries' := by
  rw [costOf, costOf, (h.map Entry.cost).sum_eq]

theorem Listing.costOf_listed (listing : Listing) :
    costOf listing.listed = listing.need := by
  have hentries : costOf listing.entries + 2 = listing.need := by
    induction listing with
    | nil => rfl
    | leaf name kind rest ih =>
        rw [entries, costOf_cons, need, ← ih]
        simp only [Entry.cost]
        lia
    | dir name inner rest _ ih =>
        rw [entries, costOf_cons, need, ← ih]
        simp only [Entry.cost]
        lia
  rw [listed, costOf_cons, costOf_cons, ← hentries]
  simp only [Entry.cost]
  lia

/-!
## What a job has to offer
-/

/-- A directory can be scanned: it is there, and its counterpart and the ones
of its files are planned. -/
structure Job.Grants (job : Job) (d : List FileName × Listing) : Prop where
  inSource : job.setting.InSource job.places (join job.setting.srcPath d.1)
  dirents : job.setting.direntsOf job.places (join job.setting.srcPath d.1) =
    d.2.listed.map Entry.dirent
  planned : (join job.setting.destPath d.1, Thing.directory) ∈ job.plan
  leaves : forall name kind, Entry.leaf name kind ∈ d.2.entries ->
    (d.1 ++ [name], Thing.leaf kind) ∈ job.places ∧
      forall content, kind.copied = some content ->
        (join job.setting.destPath (d.1 ++ [name]),
          Thing.leaf (Leaf.regular content)) ∈ job.plan

def Job.GrantsAll (job : Job) (d : List FileName × Listing) : Prop :=
  forall e, e ∈ d.2.directories -> job.Grants (d.1 ++ e.1, e.2)

theorem Job.GrantsAll.here {job : Job} {d : List FileName × Listing}
    (h : job.GrantsAll d) : job.Grants d := by
  have hroot := h ([], d.2) List.mem_cons_self
  rw [List.append_nil] at hroot
  exact hroot

theorem Job.GrantsAll.dir {job : Job} {d : List FileName × Listing}
    (h : job.GrantsAll d) {name : FileName} {inner : Listing}
    (hentry : Entry.dir name inner ∈ d.2.entries) :
    job.GrantsAll (d.1 ++ [name], inner) := by
  intro e he
  have hgrants := h ([name] ++ e.1, e.2) (List.mem_cons_of_mem _
    (Listing.inside_trans (Listing.inside_of_dir hentry) he))
  rw [← List.append_assoc] at hgrants
  exact hgrants

theorem Job.Known.inSource {job : Job} {own : Own Deeds} {disk : Disk}
    (h : job.Known own disk) {path : Bytes}
    (hin : job.setting.InSource job.places path) :
    disk path = some Thing.directory := by
  rcases hin with heq | ⟨p, hp, hthing, heq⟩
  · rw [heq]
    exact h.sourceRoot
  · rw [← heq, h.source hp, hthing]

/-!
## The code of one process
-/

section Code

abbrev ComesTo (job : Job) (own : Own Deeds) (code : Code Globals)
    (out : Multiset Report) : Prop :=
  Yields job.tasks job.rules reports own code out

variable {job : Job} {own : Own Deeds} {out : Multiset Report}

theorem yields_ask {op : Call} {k : op.Answer -> Code Globals}
    (hforks : forks op = none) (hneeds : job.Needs op own)
    (h : forall choices disk answer after disk', job.Known own disk ->
      act job.setting job.places choices op own disk =
        some (answer, after, disk') ->
      ComesTo job { own with data := after } (k answer) out) :
    ComesTo job own (ask op >>= k) out :=
  Yields.ask hforks hneeds rfl h

theorem yields_value {op : Call} {k : op.Answer -> Code Globals}
    {answer : Choices -> op.Answer} (hforks : forks op = none)
    (hneeds : job.Needs op own)
    (hact : forall choices disk,
      act job.setting job.places choices op own disk =
        some (answer choices, own.data, disk))
    (h : forall choices, ComesTo job own (k (answer choices)) out) :
    ComesTo job own (ask op >>= k) out :=
  Yields.value hforks hneeds rfl hact h

theorem yields_log {message : Bytes} {k : Unit -> Code Globals}
    (h : ComesTo job own (k ()) out) :
    ComesTo job own (daemonLog message >>= k) out :=
  @yields_value job own out (Call.log message) k (fun _ => ()) rfl trivial
    (fun _ _ => rfl) (fun _ => h)

theorem yields_localArray {k : Bytes -> Code Globals}
    (h : forall array, ComesTo job own (k array) out) :
    ComesTo job own (localArray >>= k) out :=
  @yields_value job own out Call.localArray k (fun choices => choices.array)
    rfl trivial (fun _ _ => rfl) (fun choices => h choices.array)

theorem yields_getpid {k : Nat -> Code Globals}
    (h : ComesTo job own (k own.pid) out) :
    ComesTo job own (getpid >>= k) out :=
  @yields_value job own out Call.getpid k (fun _ => own.pid) rfl trivial
    (fun _ _ => rfl) (fun _ => h)

theorem yields_createInotify {g : Globals} {k : Globals -> Code Globals}
    (h : forall fd, ComesTo job own (k { g with inFd := fd }) out) :
    ComesTo job own (createInotify g >>= k) out := by
  rw [createInotify_bind]
  apply @yields_value job own out Call.inotifyInit _
    (fun choices => (choices.number : Int)) rfl trivial (fun _ _ => rfl)
  intro choices
  rw [if_neg (Int.not_lt.mpr (Int.natCast_nonneg _))]
  apply @yields_value job own out (Call.inotifyAddWatch _ _ _) _
    (fun choices => (choices.number : Int)) rfl trivial (fun _ _ => rfl)
  intro choices'
  rw [if_neg (Int.not_lt.mpr (Int.natCast_nonneg _))]
  exact h _

theorem yields_fork {k : Nat -> Code Globals}
    {parents childs : Multiset Report}
    (h : forall pid, own.pid < pid ->
      ComesTo job own (k pid) parents ∧
        ComesTo job (job.tasks.asChild own pid) (k 0) childs) :
    ComesTo job own (fork >>= k) (parents + childs) :=
  @Yields.fork _ _ _ _ _ _ _ _ job.tasks job.rules reports own Call.fork
    k (fun pid => pid) parents childs rfl h

def writing (own : Own Deeds) (written : List (Bytes × Bytes)) : Own Deeds :=
  { own with
    data := { own.data with written := own.data.written ++ written } }

theorem yields_copyFile {path : List FileName} {name : FileName} {kind : Leaf}
    {dest : Bytes} {k : Unit -> Code Globals}
    (hplace : (path ++ [name], Thing.leaf kind) ∈ job.places)
    (hplanned : forall content, kind.copied = some content ->
      (join job.setting.destPath (path ++ [name]),
        Thing.leaf (Leaf.regular content)) ∈ job.plan)
    (hdest : dest = join job.setting.destPath path)
    (hopen : dest ∈ own.data.opened ∨
      job.start dest = some Thing.directory)
    (h : ComesTo job
      (writing own (job.setting.writesOf path (Entry.leaf name kind)))
      (k ()) out) :
    ComesTo job own
      (copyFile (join job.setting.srcPath (path ++ [name])) dest >>= k)
      out := by
  have hbase : baseName (join job.setting.srcPath (path ++ [name])) =
      name.bytes := by
    rw [join_concat, baseName_append]
  have htarget : dest ++
      SLASH :: baseName (join job.setting.srcPath (path ++ [name])) =
        join job.setting.destPath (path ++ [name]) := by
    rw [hbase, hdest, join_concat]
  apply yields_log
  apply @yields_ask job own out (Call.cp _ _) k rfl
  · refine ⟨hopen, _, kind, hplace, rfl, rfl, ?_⟩
    rw [htarget]
    exact hplanned
  · intro choices disk answer after disk' hknown hact
    simp only [act, hknown.source hplace, hknown.cpTarget_eq hopen,
      htarget] at hact
    simp only [Setting.writesOf] at h
    cases hcopied : kind.copied with
    | none =>
        rw [hcopied] at hact h
        cases hact
        rw [writing, List.append_nil] at h
        exact h
    | some content =>
        rw [hcopied] at hact h
        simp only [hknown.writable (hplanned content hcopied), if_true] at hact
        cases hact
        exact h

def opening (own : Own Deeds) (path : Bytes) : Own Deeds :=
  { own with
    data := { own.data with opened := own.data.opened ++ [path] } }

theorem opened_of_act {path : Bytes} {choices : Choices} {disk disk' : Disk}
    {answer : Option (List Dirent)} {after : Deeds}
    (hpath : disk path = some Thing.directory)
    (hact : act job.setting job.places choices (Call.opendir path) own disk =
      some (answer, after, disk')) :
    exists stream, answer = some stream ∧
      { own with data := after } = opening own path := by
  simp only [act, hpath, if_true] at hact
  split at hact
  case isTrue _ =>
    split at hact
    case isTrue _ =>
      cases hact
      exact ⟨_, rfl, rfl⟩
    case isFalse _ => cases hact
  case isFalse _ =>
    cases hact
    exact ⟨_, rfl, rfl⟩

theorem yields_openSource {k : List Dirent -> Code Globals}
    {d : List FileName × Listing} (hgrants : job.Grants d)
    (h : forall order, List.Perm order d.2.listed ->
      ComesTo job (opening own (join job.setting.srcPath d.1))
        (k (order.map Entry.dirent)) out) :
    ComesTo job own (openDir (join job.setting.srcPath d.1) Age.OLD >>= k)
      out := by
  apply @yields_ask job own out (Call.opendir _) _ rfl trivial
  intro choices disk answer after disk' hknown hact
  simp only [act, hknown.inSource hgrants.inSource, hgrants.inSource,
    hgrants.dirents, if_true] at hact
  split at hact
  case isTrue hperm =>
    cases hact
    have hcomp : (Relation.Comp (fun l l' => l = List.map Entry.dirent l')
        List.Perm) choices.order d.2.listed := by
      rw [List.eq_map_comp_perm]
      exact hperm
    rcases hcomp with ⟨order, horder, hperm⟩
    rw [show some choices.order = some (order.map Entry.dirent) from
      congrArg some horder]
    exact h order hperm
  case isFalse _ => cases hact

theorem yields_openLost {k : List Dirent -> Code Globals} {p : Place}
    (hplace : p ∈ job.places) (hthing : p.2 ≠ Thing.directory)
    (hfresh : own.data = ⟨[], [], []⟩) :
    ComesTo job own (openDir (join job.setting.srcPath p.1) Age.OLD >>= k)
      {lost} := by
  apply @yields_ask job own _ (Call.opendir _) _ rfl trivial
  intro choices disk answer after disk' hknown hact
  have hnone : disk (join job.setting.srcPath p.1) ≠ some Thing.directory := by
    rw [hknown.source hplace]
    intro heq
    injection heq with heq
    exact hthing heq
  simp only [act, hnone, if_false] at hact
  cases hact
  apply yields_getpid
  apply yields_log
  change {lost} = ({reports.stopped _ _} : Multiset Report)
  simp only [reports, hfresh]
  rfl

theorem yields_openDest {k : List Dirent -> Code Globals}
    {d : List FileName × Listing} (hgrants : job.Grants d)
    (h : forall stream own', own'.pid = own.pid ->
      own'.data.opened = own.data.opened ++ [join job.setting.destPath d.1] ->
      own'.data.written = own.data.written ->
      ComesTo job own' (k stream) out) :
    ComesTo job own (openDir (join job.setting.destPath d.1) Age.NEW >>= k)
      out := by
  apply @yields_ask job own out (Call.opendir _) _ rfl trivial
  intro choices disk answer after disk' hknown hact
  by_cases hdirectory :
      disk (join job.setting.destPath d.1) = some Thing.directory
  · rcases opened_of_act hdirectory hact with ⟨stream, heq, hown⟩
    rw [heq, hown]
    exact h stream _ rfl rfl rfl
  · simp only [act, hdirectory, if_false] at hact
    cases hact
    apply @yields_ask job own out (Call.mkdir _ S_IRWXU) _ rfl hgrants.planned
    intro choices disk answer after disk' _ hact
    simp only [act] at hact
    split at hact
    case isTrue _ =>
      cases hact
      -- the second `opendir` finds the directory that the process has made
      apply @yields_ask job _ out (Call.opendir _) _ rfl trivial
      intro choices disk answer after disk' hknown hact
      rcases opened_of_act (hknown.made _ (List.mem_append_right _
        List.mem_cons_self)) hact with ⟨stream, heq, hown⟩
      rw [heq, hown]
      exact h stream _ rfl rfl rfl
    case isFalse _ => cases hact

def Finishes (job : Job) (k : Globals -> Code Globals) : Prop :=
  forall own g, g.source = [] ->
    ComesTo job own (k g) {reports.returned own g}

structure Standing (job : Job) (d : List FileName × Listing)
    (own : Own Deeds) (g : Globals) : Prop where
  granted : job.GrantsAll d
  born : 0 < own.pid
  srcPath : g.srcPath = join job.setting.srcPath d.1
  destPath : g.destPath = join job.setting.destPath d.1
  opened : own.data.opened =
    [join job.setting.srcPath d.1, join job.setting.destPath d.1]

theorem Standing.next {d : List FileName × Listing} {g : Globals}
    (h : Standing job d own g) (own' : Own Deeds) (hborn : 0 < own'.pid)
    (hopened : own'.data.opened = own.data.opened) (source : List Dirent) :
    Standing job d own' { g with source := source } where
  granted := h.granted
  born := hborn
  srcPath := h.srcPath
  destPath := h.destPath
  opened := hopened.trans h.opened

theorem Standing.returned {d : List FileName × Listing} {g : Globals}
    (h : Standing job d own g) :
    reports.returned own g =
      job.setting.reportAt d.1 own.data.written := by
  simp only [reports, Setting.reportAt, h.srcPath, h.destPath, h.opened]

def LoopYields (job : Job) (fuel : Nat) : Prop :=
  forall k d entries own g pid array, Finishes job k ->
    Standing job d own g -> pid ≠ 0 -> g.source = entries.map Entry.dirent ->
    (forall e, e ∈ entries -> e ∈ d.2.listed) -> costOf entries ≤ fuel ->
    ComesTo job own (copyLoop fuel pid array g >>= k)
      (job.setting.outcomesOf d.1 own.data.written entries)

theorem yields_copyDirectory {fuel : Nat} (hloop : LoopYields job fuel)
    {k : Globals -> Code Globals} (hk : Finishes job k)
    {d : List FileName × Listing} {g : Globals}
    (hgranted : job.GrantsAll d) (hfuel : d.2.need ≤ fuel)
    (hsrc : g.srcPath = join job.setting.srcPath d.1)
    (hdest : g.destPath = join job.setting.destPath d.1)
    (hborn : 0 < own.pid) (hfresh : own.data = ⟨[], [], []⟩) :
    ComesTo job own (copyDirectoryWith (copyLoop fuel) g >>= k)
      (job.setting.reportsFrom d : Multiset Report) := by
  rw [copyDirectoryWith]
  simp only [bind_assoc]
  apply yields_createInotify
  intro fd
  simp only [hsrc, hdest]
  apply yields_openSource hgranted.here
  intro order hperm
  apply yields_openDest hgranted.here
  intro stream own' hpid hopened' hwritten'
  apply yields_localArray
  intro array
  apply yields_getpid
  have hborn' : 0 < own'.pid := by
    rw [hpid]
    exact hborn
  have hcost : costOf order ≤ fuel := by
    rw [costOf_perm hperm, Listing.costOf_listed]
    exact hfuel
  have hnothing : own'.data.written = [] := by
    rw [hwritten', opening, hfresh]
  rw [← job.setting.outcomesOf_listed hperm, ← hnothing]
  apply hloop k d order own' _ own'.pid array hk ?_ (Nat.ne_of_gt hborn') rfl
    (fun e he => hperm.mem_iff.mp he) hcost
  constructor
  case granted => exact hgranted
  case born => exact hborn'
  case srcPath => rfl
  case destPath => rfl
  case opened =>
    rw [hopened', opening, hfresh]
    rfl

theorem yields_copyLost {loop : Nat -> Bytes -> Globals -> Code Globals}
    {k : Globals -> Code Globals} {g : Globals} {p : Place}
    (hplace : p ∈ job.places) (hthing : p.2 ≠ Thing.directory)
    (hsrc : g.srcPath = join job.setting.srcPath p.1)
    (hfresh : own.data = ⟨[], [], []⟩) :
    ComesTo job own (copyDirectoryWith loop g >>= k) {lost} := by
  rw [copyDirectoryWith]
  simp only [bind_assoc]
  apply yields_createInotify
  intro fd
  simp only [hsrc]
  exact yields_openLost hplace hthing hfresh

theorem Finishes.afterLoop {k : Globals -> Code Globals}
    (hk : Finishes job k) {fuel : Nat} (hfuel : 0 < fuel) (pid : Nat)
    (array : Bytes) :
    Finishes job (fun g => copyLoop fuel pid array g >>= k) := by
  intro own g hsource
  cases fuel with
  | zero => cases hfuel
  | succ fuel =>
      change Yields _ _ _ own (copyLoop (fuel + 1) pid array g >>= k) _
      rw [copyLoop_nil hsource]
      exact hk own g hsource

theorem entry_of_listed_leaf {listing : Listing} {name : FileName} {kind : Leaf}
    (h : Entry.leaf name kind ∈ listing.listed) :
    Entry.leaf name kind ∈ listing.entries := by
  simpa [Listing.listed] using h

theorem entry_of_listed_dir {listing inner : Listing} {name : FileName}
    (h : Entry.dir name inner ∈ listing.listed) :
    Entry.dir name inner ∈ listing.entries := by
  simpa [Listing.listed] using h

section Loop

variable {fuel pid : Nat} {array : Bytes} {g : Globals} {name : FileName}
  {kind : Leaf} {entries : List Entry} {k : Globals -> Code Globals}
  {d : List FileName × Listing}

theorem turn_copies (ih : LoopYields job fuel) (hk : Finishes job k)
    (hstanding : Standing job d own g) (hpid : pid ≠ 0)
    (hsource : g.source = (Entry.leaf name kind :: entries).map Entry.dirent)
    (hlisted : forall e, e ∈ Entry.leaf name kind :: entries ->
      e ∈ d.2.listed)
    (hcost : costOf entries ≤ fuel) (htype : kind.type &&& DT_REG ≠ 0)
    (hforked : kind.forked = []) :
    ComesTo job own (copyLoop (fuel + 1) pid array g >>= k)
      (job.setting.outcomesOf d.1 own.data.written
        (Entry.leaf name kind :: entries)) := by
  have hpath : makePath array g.srcPath name.bytes =
      join job.setting.srcPath (d.1 ++ [name]) := by
    rw [makePath_eq, hstanding.srcPath, join_concat]
  have hopen : g.destPath ∈ own.data.opened := by
    rw [hstanding.opened, hstanding.destPath]
    exact List.mem_cons_of_mem _ List.mem_cons_self
  rcases hstanding.granted.here.leaves name kind
    (entry_of_listed_leaf (hlisted _ List.mem_cons_self)) with
    ⟨hplace, hplanned⟩
  have halone : job.setting.reportsOf d.1 (Entry.leaf name kind) = [] :=
    hforked
  rw [copyLoop_copies hpid htype hsource, bind_assoc, hpath,
    job.setting.outcomesOf_alone halone]
  apply yields_copyFile hplace hplanned hstanding.destPath (Or.inl hopen)
  exact ih k d entries _ _ pid _ hk
    (hstanding.next (writing own _) hstanding.born rfl _) hpid rfl
    (fun e he => hlisted e (List.mem_cons_of_mem _ he)) hcost

theorem turn_passes (ih : LoopYields job fuel) (hk : Finishes job k)
    (hstanding : Standing job d own g) (hpid : pid ≠ 0)
    (hsource : g.source = (Entry.leaf name kind :: entries).map Entry.dirent)
    (hlisted : forall e, e ∈ Entry.leaf name kind :: entries ->
      e ∈ d.2.listed)
    (hcost : costOf entries ≤ fuel) (hregular : ¬ kind.type &&& DT_REG ≠ 0)
    (hdirectory : ¬ kind.type &&& DT_DIR ≠ 0) (hforked : kind.forked = [])
    (hcopied : kind.copied = none) :
    ComesTo job own (copyLoop (fuel + 1) pid array g >>= k)
      (job.setting.outcomesOf d.1 own.data.written
        (Entry.leaf name kind :: entries)) := by
  have hwrites : job.setting.writesOf d.1 (Entry.leaf name kind) = [] := by
    simp only [Setting.writesOf, hcopied]
  have halone : job.setting.reportsOf d.1 (Entry.leaf name kind) = [] :=
    hforked
  rw [copyLoop_passes hpid hregular hdirectory hsource, bind_assoc,
    job.setting.outcomesOf_alone halone, hwrites, List.append_nil]
  apply yields_log
  exact ih k d entries own _ pid _ hk
    (hstanding.next own hstanding.born rfl _) hpid rfl
    (fun e he => hlisted e (List.mem_cons_of_mem _ he)) hcost

/-- A block device has the bit of a directory. -/
theorem turn_loses (ih : LoopYields job fuel) (hk : Finishes job k)
    (hstanding : Standing job d own g) (hpid : pid ≠ 0)
    (hsource : g.source =
      (Entry.leaf name Leaf.blockDevice :: entries).map Entry.dirent)
    (hlisted : forall e, e ∈ Entry.leaf name Leaf.blockDevice :: entries ->
      e ∈ d.2.listed)
    (hcost : costOf entries ≤ fuel) :
    ComesTo job own (copyLoop (fuel + 1) pid array g >>= k)
      (job.setting.outcomesOf d.1 own.data.written
        (Entry.leaf name Leaf.blockDevice :: entries)) := by
  have hplace := (hstanding.granted.here.leaves name Leaf.blockDevice
    (entry_of_listed_leaf (hlisted _ List.mem_cons_self))).left
  rw [copyLoop_forks hpid (by decide) (by decide) hsource,
    Setting.outcomesOf_cons]
  apply yields_fork
  intro pid' hlater
  constructor
  · rw [if_neg (by lia), show job.setting.writesOf d.1
      (Entry.leaf name Leaf.blockDevice) = [] from rfl, List.append_nil]
    exact ih k d entries _ _ pid' _ hk
      (hstanding.next own hstanding.born rfl _) (by lia) rfl
      (fun e he => hlisted e (List.mem_cons_of_mem _ he)) hcost
  · rw [if_pos rfl]
    apply yields_getpid
    apply yields_log
    apply yields_copyLost hplace
    · intro heq
      cases heq
    · show makePath _ _ _ = _
      rw [makePath_eq, hstanding.srcPath, ← join_concat]
    · rfl

theorem turn_forks {inner : Listing} (ih : LoopYields job fuel)
    (hk : Finishes job k) (hstanding : Standing job d own g) (hpid : pid ≠ 0)
    (hsource : g.source = (Entry.dir name inner :: entries).map Entry.dirent)
    (hlisted : forall e, e ∈ Entry.dir name inner :: entries ->
      e ∈ d.2.listed)
    (hcost : inner.need + costOf entries ≤ fuel) :
    ComesTo job own (copyLoop (fuel + 1) pid array g >>= k)
      (job.setting.outcomesOf d.1 own.data.written
        (Entry.dir name inner :: entries)) := by
  have hleft := costOf_pos entries
  rw [copyLoop_forks hpid (by decide) (by decide) hsource,
    Setting.outcomesOf_cons]
  apply yields_fork
  intro pid' hlater
  constructor
  · rw [if_neg (by lia), show job.setting.writesOf d.1
      (Entry.dir name inner) = [] from rfl, List.append_nil]
    exact ih k d entries _ _ pid' _ hk
      (hstanding.next own hstanding.born rfl _) (by lia) rfl
      (fun e he => hlisted e (List.mem_cons_of_mem _ he)) (by lia)
  · rw [if_pos rfl]
    apply yields_getpid
    apply yields_log
    apply yields_copyDirectory ih (hk.afterLoop (by lia) 0 _)
      (hstanding.granted.dir
        (entry_of_listed_dir (hlisted _ List.mem_cons_self)))
    · show inner.need ≤ fuel
      lia
    · show makePath _ _ _ = _
      rw [makePath_eq, hstanding.srcPath, ← join_concat]
    · show makePath _ _ _ = _
      rw [makePath_eq, hstanding.destPath, ← join_concat]
    · exact Nat.lt_of_le_of_lt (Nat.zero_le _) hlater
    · rfl

end Loop

theorem loopYields (job : Job) (fuel : Nat) : LoopYields job fuel := by
  induction fuel with
  | zero =>
      intro k d entries own g pid array _ _ _ _ _ hcost
      exact absurd hcost (Nat.not_le_of_lt (costOf_pos entries))
  | succ fuel ih =>
      intro k d entries own g pid array hk hstanding hpid hsource hlisted hcost
      cases entries with
      | nil =>
          rw [copyLoop_nil hsource, Setting.outcomesOf_nil,
            ← hstanding.returned]
          exact hk own g hsource
      | cons e entries =>
          rw [costOf_cons] at hcost
          have hrest : forall e, e ∈ entries -> e ∈ d.2.listed :=
            fun e' he' => hlisted e' (List.mem_cons_of_mem e he')
          cases e with
          | dot | dotdot =>
              rw [copyLoop_skip hpid hsource (by simp [Entry.dirent]),
                job.setting.outcomesOf_alone rfl]
              simp only [Setting.writesOf, List.append_nil]
              exact ih k d entries own _ pid array hk
                (hstanding.next own hstanding.born rfl _) hpid rfl hrest
                (by simp only [Entry.cost] at hcost; lia)
          | leaf name kind =>
              have hleft : costOf entries ≤ fuel := by
                simp only [Entry.cost] at hcost
                lia
              cases kind with
              | regular content =>
                  have htype : DT_REG &&& DT_REG ≠ 0 := by decide
                  exact turn_copies ih hk hstanding hpid hsource hlisted hleft
                    htype rfl
              | link copied =>
                  have htype : DT_LNK &&& DT_REG ≠ 0 := by decide
                  exact turn_copies ih hk hstanding hpid hsource hlisted hleft
                    htype rfl
              | socket =>
                  have htype : DT_SOCK &&& DT_REG ≠ 0 := by decide
                  exact turn_copies ih hk hstanding hpid hsource hlisted hleft
                    htype rfl
              | fifo | charDevice =>
                  exact turn_passes ih hk hstanding hpid hsource hlisted hleft
                    (by decide) (by decide) rfl rfl
              | blockDevice =>
                  exact turn_loses ih hk hstanding hpid hsource hlisted hleft
          | dir name inner =>
              exact turn_forks ih hk hstanding hpid hsource hlisted
                (by simp only [Entry.cost] at hcost; lia)

end Code

/-!
## The whole scan
-/

structure Empty (setting : Setting) (disk : Disk) : Prop where
  source : disk setting.srcPath = some Thing.directory
  empty : forall path, path ≠ [] -> disk (join setting.srcPath path) = none

structure Ready (setting : Setting) (places : List Place) (disk : Disk) : Prop
    extends Empty setting disk where
  dest : Fits disk setting.destPath Thing.directory
  fits : forall p thing, p ∈ places -> p.2.counterpart Leaf.copied = some thing ->
    Fits disk (join setting.destPath p.1) thing

def Setting.planOf (setting : Setting) (copied : Leaf -> Option Bytes)
    (places : List Place) : List (Bytes × Thing) :=
  (setting.destPath, Thing.directory) :: setting.writes copied places

theorem functional_planOf {setting : Setting} {copied : Leaf -> Option Bytes}
    {places : List Place} (hplaces : Plan.Functional places)
    (hbelow : forall p, p ∈ places -> p.1 ≠ []) :
    Plan.Functional (setting.planOf copied places) := by
  have hroot : forall thing,
      (setting.destPath, thing) ∉ setting.writes copied places := by
    intro thing hmem
    rcases Setting.mem_writes.mp hmem with ⟨p, hp, _, hpath⟩
    have hnil : [] = p.1 := join_injective hpath
    exact hbelow p hp hnil.symm
  intro path thing thing' h h'
  rcases List.mem_cons.mp h with heq | hmem
  · cases heq
    rcases List.mem_cons.mp h' with heq' | hmem'
    · cases heq'
      rfl
    · exact absurd hmem' (hroot thing')
  · rcases List.mem_cons.mp h' with heq' | hmem'
    · cases heq'
      exact absurd hmem (hroot thing)
    · exact Setting.functional_writes copied hplaces path thing thing' hmem
        hmem'

def scanJob (setting : Setting) (listing : Listing)
    (hdistinct : listing.Distinct) {disk : Disk}
    (hready : Ready setting listing.places disk) : Job where
  setting := setting
  places := listing.places
  plan := setting.planOf Leaf.copied listing.places
  start := setting.present listing.places disk
  functional :=
    functional_planOf (Listing.places_functional hdistinct)
      (fun _ hp => Listing.place_ne_nil hp)
  root := by
    rw [Setting.present_of_ne]
    · exact hready.source
    · intro p hp heq
      exact Listing.place_ne_nil hp (join_injective heq)
  present := fun p hp =>
    Setting.present_of_mem (Listing.places_functional hdistinct) hp
  inDest := by
    intro path thing h
    rcases List.mem_cons.mp h with heq | hmem
    · cases heq
      exact ⟨[], rfl⟩
    · rcases Setting.mem_writes.mp hmem with ⟨p, _, _, hpath⟩
      exact ⟨p.1, hpath⟩
  fits := by
    intro path thing h
    rcases List.mem_cons.mp h with heq | hmem
    · cases heq
      have hroot := @Setting.present_dest setting listing.places disk []
      exact hready.dest.of_eq hroot
    · rcases Setting.mem_writes.mp hmem with ⟨p, hp, hthing, hpath⟩
      rw [hpath]
      exact (hready.fits p thing hp hthing).of_eq (Setting.present_dest _)

theorem scanJob_grants (setting : Setting) {listing : Listing}
    (hdistinct : listing.Distinct) {disk : Disk}
    (hready : Ready setting listing.places disk) :
    (scanJob setting listing hdistinct hready).GrantsAll ([], listing) := by
  intro e he
  have hdirectory : e.1 = [] ∨ (e.1, Thing.directory) ∈ listing.places := by
    rcases List.mem_cons.mp he with heq | hin
    · rw [heq]
      exact Or.inl rfl
    · exact Or.inr (Listing.places_inside hin).left
  have hbelow : forall p, p ∈ e.2.places -> (e.1 ++ p.1, p.2) ∈
      listing.places := by
    rcases List.mem_cons.mp he with heq | hin
    · rw [heq]
      exact fun p hp => hp
    · exact (Listing.places_inside hin).right
  constructor
  case inSource =>
    rcases hdirectory with hnil | hmem
    · left
      show join setting.srcPath ([] ++ e.1) = setting.srcPath
      rw [hnil]
      rfl
    · exact Or.inr ⟨_, hmem, rfl, rfl⟩
  case dirents => exact setting.direntsOf_places hdistinct he
  case planned =>
    rcases hdirectory with hnil | hmem
    · show (join setting.destPath ([] ++ e.1), Thing.directory) ∈
        setting.planOf Leaf.copied listing.places
      rw [hnil]
      exact List.mem_cons_self
    · exact List.mem_cons_of_mem _
        (Setting.mem_writes.mpr ⟨_, hmem, rfl, rfl⟩)
  case leaves =>
    intro name kind hentry
    have hplace := hbelow _ (Listing.place_of_leaf hentry)
    refine ⟨hplace, fun content hcopied => ?_⟩
    apply List.mem_cons_of_mem
    apply Setting.mem_writes.mpr
    refine ⟨_, hplace, ?_, rfl⟩
    simp only [Thing.counterpart, hcopied, Option.map_some]

def starter : Own Deeds where
  pid := 1
  parent := 0
  data :=
    { made := []
      opened := []
      written := [] }

abbrev ScanPool := Pool Call Call.Answer Stop Globals Deeds Disk

def watchersOf (pool : ScanPool) : List (Bytes × Bytes) :=
  (pool.outcomes reports).filterMap Report.watcher

theorem Job.Known.reported {job : Job} {own : Own Deeds} {disk : Disk}
    (h : job.Known own disk) {code : Code Globals} {report : Report}
    (hreport : Process.outcome reports ⟨own, code⟩ = some report) :
    (forall path, path ∈ report.opened ->
      disk path = some Thing.directory) ∧
      forall w, w ∈ report.written ->
        disk w.1 = some (Thing.leaf (Leaf.regular w.2)) := by
  have hdeeds : report.opened = own.data.opened ∧
      report.written = own.data.written := by
    cases code with
    | ret g =>
        injection hreport with hreport
        rw [← hreport]
        exact ⟨rfl, rfl⟩
    | halt reason =>
        injection hreport with hreport
        rw [← hreport]
        exact ⟨rfl, rfl⟩
    | call op next => cases hreport
  rw [hdeeds.left, hdeeds.right]
  exact ⟨h.opened, fun w hw =>
    (h.written w (Multiset.mem_coe.mp hw)).right⟩

theorem planOf_reported {setting : Setting} {listing : Listing}
    {path : Bytes} {thing : Thing}
    (h : (path, thing) ∈ setting.planOf Leaf.copied listing.places) :
    exists report, report ∈ setting.reportsFrom ([], listing) ∧
      ((thing = Thing.directory ∧ path ∈ report.opened) ∨
        exists content, thing = Thing.leaf (Leaf.regular content) ∧
          (path, content) ∈ report.written) := by
  have hreport : forall d : List FileName × Listing, d ∈ listing.directories ->
      setting.report d.1 d.2 ∈ setting.reportsFrom ([], listing) := by
    intro d hd
    rcases List.mem_cons.mp hd with heq | hin
    · rw [heq]
      exact List.mem_cons_self
    · have hmem := @Setting.report_mem setting [] listing d hin
      rw [List.nil_append] at hmem
      exact List.mem_cons_of_mem _ hmem
  rcases List.mem_cons.mp h with heq | hmem
  · cases heq
    refine ⟨_, hreport _ List.mem_cons_self, Or.inl ⟨rfl, ?_⟩⟩
    exact List.mem_cons_of_mem _ List.mem_cons_self
  · rcases Setting.mem_writes.mp hmem with ⟨p, hp, hthing, hpath⟩
    rcases Listing.place_cases hp with ⟨inner, hdirectory, hin⟩ |
      ⟨d, name, kind, hd, hentry, hnames, hleaf⟩
    · rw [hdirectory] at hthing
      injection hthing with hthing
      refine ⟨_, hreport _ (List.mem_cons_of_mem _ hin),
        Or.inl ⟨hthing.symm, ?_⟩⟩
      rw [hpath]
      exact List.mem_cons_of_mem _ List.mem_cons_self
    · rw [hleaf, Thing.counterpart, Option.map_eq_some_iff] at hthing
      rcases hthing with ⟨content, hcopied, hthing⟩
      refine ⟨_, hreport d hd, Or.inr ⟨content, hthing.symm, ?_⟩⟩
      apply Multiset.mem_coe.mpr
      apply List.mem_flatMap.mpr
      refine ⟨_, hentry, ?_⟩
      simp only [Setting.writesOf, hcopied]
      rw [hpath, hnames]
      exact List.mem_cons_self

theorem Job.completed {job : Job} {pool : ScanPool}
    (hknown : pool.Each (fun disk own _ => job.Known own disk))
    (hsome : pool.outcomes reports ≠ [])
    (hreported : forall path thing, (path, thing) ∈ job.plan ->
      exists report, report ∈ pool.outcomes reports ∧
        ((thing = Thing.directory ∧ path ∈ report.opened) ∨
          exists content, thing = Thing.leaf (Leaf.regular content) ∧
            (path, content) ∈ report.written)) :
    pool.world = Plan.overlay job.plan job.start := by
  rcases List.exists_mem_of_ne_nil _ hsome with ⟨first, hfirst⟩
  rcases List.mem_filterMap.mp hfirst with ⟨proc, hproc, _⟩
  apply (hknown proc hproc).within.complete job.functional
  intro path thing hplan
  rcases hreported path thing hplan with ⟨report, hreport, hdone⟩
  rcases List.mem_filterMap.mp hreport with ⟨proc, hproc, houtcome⟩
  rcases (hknown proc hproc).reported houtcome with ⟨hopened, hwritten⟩
  rcases hdone with ⟨hthing, hpath⟩ | ⟨content, hthing, hpath⟩
  · rw [hthing]
    exact hopened path hpath
  · rw [hthing]
    exact hwritten (path, content) hpath

/-- However the processes take turns, the scan comes to one watcher for each
directory, and writes its plan. -/
theorem scan_result {setting : Setting} {listing : Listing}
    (hdistinct : listing.Distinct) {disk : Disk} {g : Globals} {fuel : Nat}
    {events : List (Nat × Choices)} {pool : ScanPool}
    (hready : Ready setting listing.places disk)
    (hsrcPath : g.srcPath = setting.srcPath)
    (hdestPath : g.destPath = setting.destPath) (hfuel : listing.need ≤ fuel)
    (hrun : run (Pool.step (machine setting listing.places))
      (Pool.single starter (copyDirectory fuel g)
        (setting.present listing.places disk)) events = some pool)
    (hsettled : pool.Settled reports) :
    (pool.outcomes reports : Multiset Report) =
        setting.reportsFrom ([], listing) ∧
      pool.world = Plan.overlay (setting.planOf Leaf.copied listing.places)
        (setting.present listing.places disk) := by
  let job := scanJob setting listing hdistinct hready
  have hknown : job.Known starter job.start :=
    Job.known_idle (Plan.Within.refl _ _) 1 0
  have hcode := @yields_copyDirectory job starter fuel (loopYields job fuel)
    ret (fun _ _ _ => rfl) ([], listing) g
    (scanJob_grants setting hdistinct hready) hfuel hsrcPath hdestPath
    Nat.one_pos rfl
  rw [bind_ret] at hcode
  have hparks : forall op, reports.parks op = true ->
      job.tasks.forks op = none := by
    intro op h
    cases h
  have hend :=
    Pool.outcomes_run (Job.stable job) hparks rfl hknown hcode hrun hsettled
  refine ⟨hend.right, Job.completed hend.left ?_ ?_⟩
  · intro hnil
    have hcard := hend.right
    rw [hnil] at hcard
    exact absurd (Multiset.coe_eq_coe.mp hcard).length_eq (by
      simp [Setting.reportsFrom])
  · intro path thing hplan
    rcases planOf_reported hplan with ⟨report, hmem, hdone⟩
    refine ⟨report, ?_, hdone⟩
    rw [← Multiset.mem_coe, hend.right, Multiset.mem_coe]
    exact hmem

end Kinds
end Backuper
end UnixPrograms
