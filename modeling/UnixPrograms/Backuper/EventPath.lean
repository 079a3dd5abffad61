import UnixPrograms.Backuper.Convergence
import UnixPrograms.Backuper.ScanPath

/-!
# A tree that is made while it is watched

The tree comes into being entry by entry, the processes that watch the
directory of a new entry take its record and run `check_event`, and everything
they do is done before the next entry is made.  `event_create` compares the
whole file type, so it takes only regular files for regular files.
-/

namespace UnixPrograms
namespace Backuper
namespace Kinds

open Foundation Program

/-- A new entry of a directory, what is in the fields of its record and behind
it in the array of events, and how the processes take turns. -/
structure Creation where
  parent : List FileName
  name : FileName
  thing : Thing
  wd : UInt32
  cookie : UInt32
  stale : Bytes
  events : List (Nat × Choices)

namespace Creation

def path (c : Creation) : List FileName := c.parent ++ [c.name]

def place (c : Creation) : Place := (c.path, c.thing)

def mask (c : Creation) : UInt32 :=
  if c.thing = Thing.directory then IN_CREATE ||| IN_ISDIR else IN_CREATE

def record (c : Creation) : Record :=
  { Notice.record c.wd
      { kind := Handler.eventCreate
        cookie := c.cookie
        name := c.name } with
    mask := c.mask }

def received (c : Creation) : Bytes := c.record.bytes ++ c.stale

def untouched (own : Own Deeds) : Own Deeds :=
  { own with data := ⟨[], [], []⟩ }

/-- A process that watches the directory takes the record. -/
def deliver (setting : Setting) (fuel : Nat) (c : Creation)
    (proc : Process Call Call.Answer Stop Globals Deeds) :
    Process Call Call.Answer Stop Globals Deeds :=
  match proc.code with
  | Program.ret g =>
      if g.srcPath = join setting.srcPath c.parent then
        ⟨untouched proc.own, handleEvent fuel c.received 0 g⟩
      else ⟨untouched proc.own, ret g⟩
  | code => ⟨untouched proc.own, code⟩

end Creation

/-- The source tree as far as it has been made, and all processes. -/
structure Site where
  places : List Place
  pool : ScanPool

def Site.created (setting : Setting) (fuel : Nat) (site : Site)
    (c : Creation) : ScanPool where
  procs := site.pool.procs.map (c.deliver setting fuel)
  world :=
    Function.update site.pool.world (join setting.srcPath c.path)
      (some c.thing)

/-- An entry is made in a directory of the tree, and its record is handled. -/
def Site.step (setting : Setting) (fuel : Nat) (site : Site) (c : Creation) :
    Option Site :=
  if (c.parent = [] ∨ (c.parent, Thing.directory) ∈ site.places) ∧
      site.pool.world (join setting.srcPath c.path) = none then
    let places := site.places ++ [c.place]
    match run (Pool.step (machine setting places))
        (site.created setting fuel c) c.events with
    | none => none
    | some pool =>
        if pool.Settled reports then
          some
            { places := places
              pool := pool }
        else none
  else none

/-!
## The code for one record
-/

theorem Leaf.format_regular {l : Leaf} (h : l.format = S_IFREG) :
    exists content, l = regular content := by
  cases l with
  | regular content => exact ⟨content, rfl⟩
  | link _ =>
      have hne : S_IFLNK ≠ S_IFREG := by decide
      exact absurd h hne
  | fifo | socket | charDevice | blockDevice => exact absurd h (by decide)

theorem Leaf.format_ne_directory (l : Leaf) : l.format ≠ S_IFDIR := by
  cases l with
  | regular _ =>
      have hne : S_IFREG ≠ S_IFDIR := by decide
      exact hne
  | link _ =>
      have hne : S_IFLNK ≠ S_IFDIR := by decide
      exact hne
  | fifo | socket | charDevice | blockDevice => decide

theorem Creation.dispatch (c : Creation) :
    checkEvent c.received 0 =
      some
        { handler := Handler.eventCreate
          mask := c.mask
          name := c.name.bytes } := by
  have hlen : c.record.len ≠ 0 :=
    record_len_ne_zero c.wd
      { kind := Handler.eventCreate
        cookie := c.cookie
        name := c.name }
  have hbit : c.mask &&& IN_CREATE ≠ 0 := by
    unfold mask
    split <;> decide
  have hbranch : branchOf c.record.mask c.record.len =
      some Handler.eventCreate := by
    unfold branchOf
    exact if_pos ⟨hbit, hlen⟩
  rw [received, checkEvent_record, Record.dispatch, hbranch]
  exact congrArg some (by
    simp [record, Notice.record, FileName.cstr_field])

section Code

variable {job : Job} {own : Own Deeds} {out : Multiset Report}

theorem yields_lstat {path : Bytes} {thing : Thing}
    {k : Int × UInt32 -> Code Globals}
    (hpath : forall disk, job.Known own disk -> disk path = some thing)
    (h : forall mode, mode &&& S_IFMT = thing.format ->
      ComesTo job own (k (0, mode)) out) :
    ComesTo job own (lstat path >>= k) out := by
  apply @yields_ask job own out (Call.lstat path) k rfl trivial
  intro choices disk answer after disk' hknown hact
  simp only [act, hpath disk hknown] at hact
  split at hact
  case isTrue hmode =>
    cases hact
    exact h choices.mode hmode
  case isFalse _ => cases hact

theorem yields_isRegular {path : Bytes} {thing : Thing}
    {k : Bool -> Code Globals}
    (hpath : forall disk, job.Known own disk -> disk path = some thing)
    (h : ComesTo job own (k (decide (thing.format = S_IFREG))) out) :
    ComesTo job own (isRegular path >>= k) out := by
  rw [isRegular, bind_assoc]
  apply yields_lstat hpath
  intro mode hmode
  simp only [hmode, ite_bind, pure_eq_ret, ret_bind]
  by_cases hformat : thing.format = S_IFREG
  · simpa [hformat] using h
  · simpa [hformat] using h

theorem yields_isDirectory {path : Bytes} {thing : Thing}
    {k : Bool -> Code Globals}
    (hpath : forall disk, job.Known own disk -> disk path = some thing)
    (h : ComesTo job own (k (decide (thing.format = S_IFDIR))) out) :
    ComesTo job own (isDirectory path >>= k) out := by
  rw [isDirectory, bind_assoc]
  apply yields_lstat hpath
  intro mode hmode
  simp only [hmode, ite_bind, pure_eq_ret, ret_bind]
  by_cases hformat : thing.format = S_IFDIR
  · simpa [hformat] using h
  · simpa [hformat] using h

theorem yields_checkFolder {g : Globals} {k : Unit -> Code Globals}
    (hpath : forall disk, job.Known own disk ->
      disk g.srcPath = some Thing.directory)
    (h : ComesTo job own (k ()) out) :
    ComesTo job own (checkFolder g >>= k) out := by
  rw [checkFolder, isAlife]
  simp only [bind_assoc]
  apply yields_lstat hpath
  intro mode _
  exact h

def Creation.written (c : Creation) (setting : Setting) :
    List (Bytes × Bytes) :=
  match c.thing with
  | Thing.directory => []
  | Thing.leaf kind =>
      match kind.noticed with
      | none => []
      | some content => [(join setting.destPath c.path, content)]

def Creation.childs (c : Creation) (setting : Setting) : List Report :=
  if c.thing = Thing.directory then [setting.report c.path Listing.nil] else []

def Creation.answers (c : Creation) (setting : Setting) (g : Globals) :
    List Report :=
  { watcher := some (g.srcPath, g.destPath)
    opened := []
    written := c.written setting } :: c.childs setting

structure Creation.Serves (c : Creation) (job : Job) : Prop where
  place : c.place ∈ job.places
  parent : job.setting.InSource job.places (join job.setting.srcPath c.parent)
  counterpart :
    job.start (join job.setting.destPath c.parent) = some Thing.directory
  planned : forall thing, c.thing.counterpart Leaf.noticed = some thing ->
    (join job.setting.destPath c.path, thing) ∈ job.plan
  fresh : job.setting.direntsOf job.places (join job.setting.srcPath c.path) =
    Listing.nil.listed.map Entry.dirent

theorem Creation.Serves.grants {c : Creation} (h : c.Serves job)
    (hthing : c.thing = Thing.directory) :
    job.GrantsAll (c.path, Listing.nil) := by
  intro e he
  rw [List.mem_singleton.mp he, List.append_nil]
  constructor
  case inSource => exact Or.inr ⟨c.place, h.place, hthing, rfl⟩
  case dirents => exact h.fresh
  case planned =>
    apply h.planned
    rw [hthing]
    rfl
  case leaves =>
    intro name kind hentry
    cases hentry

theorem yields_eventCreate {c : Creation} (h : c.Serves job) {fuel : Nat}
    {g : Globals} (hfuel : Listing.nil.need ≤ fuel)
    (hsrc : g.srcPath = join job.setting.srcPath c.parent)
    (hdest : g.destPath = join job.setting.destPath c.parent)
    (hidle : own.data = ⟨[], [], []⟩) :
    ComesTo job own (eventCreate fuel c.name.bytes g)
      (c.answers job.setting g : Multiset Report) := by
  have hpath : forall array, makePath array g.srcPath c.name.bytes =
      join job.setting.srcPath c.path := by
    intro array
    rw [makePath_eq, hsrc, Creation.path, join_concat]
  have hpath' : forall array, makePath array g.destPath c.name.bytes =
      join job.setting.destPath c.path := by
    intro array
    rw [makePath_eq, hdest, Creation.path, join_concat]
  have hthere : forall disk, job.Known own disk ->
      disk (join job.setting.srcPath c.path) = some c.thing :=
    fun disk hknown => hknown.source h.place
  rw [eventCreate]
  apply yields_localArray
  intro array
  apply yields_localArray
  intro array'
  simp only [hpath, hpath']
  apply yields_isRegular hthere
  cases hthing : c.thing with
  | directory =>
      rw [show decide (Thing.directory.format = S_IFREG) = false from rfl]
      apply yields_isDirectory hthere
      rw [hthing, show decide (Thing.directory.format = S_IFDIR) = true from
        rfl]
      simp only [if_true]
      have hchilds : c.childs job.setting =
          job.setting.reportsFrom (c.path, Listing.nil) := by
        rw [Creation.childs, if_pos hthing]
        rfl
      have hnothing : c.written job.setting = [] := by
        rw [Creation.written, hthing]
      have hsplit : (c.answers job.setting g : Multiset Report) =
          {reports.returned own g} +
            (job.setting.reportsFrom (c.path, Listing.nil) :
              Multiset Report) := by
        rw [Creation.answers, hchilds, hnothing]
        simp only [reports, hidle]
        rfl
      rw [hsplit]
      apply yields_fork
      intro pid hlater
      constructor
      · rw [if_neg (by lia)]
        rfl
      · rw [if_pos rfl]
        apply yields_getpid
        apply yields_log
        apply yields_copyDirectory (loopYields job fuel) ?_ (h.grants hthing)
          hfuel rfl rfl (Nat.lt_of_le_of_lt (Nat.zero_le _) hlater) rfl
        intro own' g' _
        rfl
  | leaf kind =>
      have hidler : (c.answers job.setting g : Multiset Report) =
          {reports.returned
            (writing own (c.written job.setting)) g} := by
        rw [Creation.answers, Creation.childs, hthing, if_neg (by simp)]
        simp only [reports, writing, hidle, List.nil_append]
        rfl
      rw [hidler]
      by_cases hregular : kind.format = S_IFREG
      · rcases Leaf.format_regular hregular with ⟨content, hkind⟩
        rw [hkind] at hthing
        rw [show decide ((Thing.leaf kind).format = S_IFREG) = true from
          decide_eq_true hregular]
        simp only [if_true]
        have hplace := h.place
        rw [Creation.place, hthing] at hplace
        apply yields_copyFile hplace ?_ hdest ?_
        · rw [Creation.written, hthing]
          rfl
        · intro content' hcopied
          injection hcopied with hcopied
          apply h.planned
          rw [hthing, ← hcopied]
          rfl
        · rw [hdest]
          exact Or.inr h.counterpart
      · have hnot : c.written job.setting = [] := by
          rw [Creation.written, hthing]
          cases kind with
          | regular content => exact absurd rfl hregular
          | link _ | fifo | socket | charDevice | blockDevice => rfl
        rw [show decide ((Thing.leaf kind).format = S_IFREG) = false from
          decide_eq_false hregular]
        apply yields_isDirectory hthere
        rw [hthing, show decide ((Thing.leaf kind).format = S_IFDIR) = false
          from decide_eq_false kind.format_ne_directory, hnot]
        simp only [writing, List.append_nil]
        rfl

theorem yields_handleEvent {c : Creation} (h : c.Serves job) {fuel : Nat}
    {g : Globals} (hfuel : Listing.nil.need ≤ fuel)
    (hsrc : g.srcPath = join job.setting.srcPath c.parent)
    (hdest : g.destPath = join job.setting.destPath c.parent)
    (hidle : own.data = ⟨[], [], []⟩) :
    ComesTo job own (handleEvent fuel c.received 0 g)
      (c.answers job.setting g : Multiset Report) := by
  rw [handleEvent]
  apply yields_checkFolder
  · intro disk hknown
    rw [hsrc]
    exact hknown.inSource h.parent
  · rw [c.dispatch]
    apply yields_log
    exact yields_eventCreate h hfuel hsrc hdest hidle

end Code

/-!
## The directories of a tree
-/

def dirsOf (places : List Place) : List (List FileName) :=
  [] :: (places.filter (fun p => p.2 = Thing.directory)).map Prod.fst

def Setting.watched (setting : Setting) (places : List Place) :
    List (Bytes × Bytes) :=
  (dirsOf places).map
    (fun path => (join setting.srcPath path, join setting.destPath path))

theorem mem_dirsOf {places : List Place} {path : List FileName} :
    path ∈ dirsOf places <->
      path = [] ∨ (path, Thing.directory) ∈ places := by
  simp only [dirsOf, List.mem_cons, List.mem_map, List.mem_filter,
    decide_eq_true_eq]
  constructor
  · rintro (hnil | ⟨p, ⟨hp, hthing⟩, heq⟩)
    · exact Or.inl hnil
    · rw [← heq, ← hthing]
      exact Or.inr hp
  · rintro (hnil | hp)
    · exact Or.inl hnil
    · exact Or.inr ⟨_, ⟨hp, rfl⟩, rfl⟩

theorem nodup_dirsOf {places : List Place}
    (hdistinct : (places.map Prod.fst).Nodup)
    (hbelow : forall p, p ∈ places -> p.1 ≠ []) : (dirsOf places).Nodup := by
  apply List.nodup_cons.mpr
  constructor
  · intro hmem
    rcases List.mem_map.mp hmem with ⟨p, hp, heq⟩
    exact hbelow p (List.mem_of_mem_filter hp) heq
  · exact (List.filter_sublist.map Prod.fst).nodup hdistinct

theorem dirsOf_concat (places : List Place) (p : Place) :
    dirsOf (places ++ [p]) =
      dirsOf places ++ if p.2 = Thing.directory then [p.1] else [] := by
  rw [dirsOf, List.filter_append, List.map_append, List.filter_singleton]
  by_cases hthing : p.2 = Thing.directory
  · simp [dirsOf, hthing]
  · simp [dirsOf, hthing]

theorem flatMap_once {alpha : Type} (x : alpha) (p : alpha -> Prop)
    [DecidablePred p] (l : List alpha) :
    (l.flatMap (fun w => w :: if p w then [x] else [])).Perm
      (l ++ List.replicate (l.countP p) x) := by
  induction l with
  | nil => exact List.Perm.refl _
  | cons w l ih =>
      rw [List.flatMap_cons, List.cons_append, List.cons_append]
      apply List.Perm.cons
      by_cases hw : p w
      · rw [if_pos hw, List.countP_cons_of_pos (by simpa using hw),
          List.replicate_succ]
        exact (ih.cons x).trans List.perm_middle.symm
      · rw [if_neg hw, List.countP_cons_of_neg (by simpa using hw)]
        exact ih

theorem countP_watched {setting : Setting} {places : List Place}
    (hdistinct : (places.map Prod.fst).Nodup)
    (hbelow : forall p, p ∈ places -> p.1 ≠ []) {path : List FileName}
    (hpath : path ∈ dirsOf places) :
    (setting.watched places).countP
      (fun w => w.1 = join setting.srcPath path) = 1 := by
  rw [Setting.watched, List.countP_map]
  rw [← List.count_eq_one_of_mem (nodup_dirsOf hdistinct hbelow) hpath,
    List.count]
  apply List.countP_congr
  intro path' _
  simp only [Function.comp_apply, decide_eq_true_eq, beq_iff_eq]
  constructor
  · exact fun heq => join_injective heq
  · exact fun heq => congrArg _ heq

/-!
## What a site keeps
-/

/-- The tree is on the disk, its counterpart has what `event_create` copies, and
every directory has its process. -/
structure Site.Stands (setting : Setting) (disk : Disk) (site : Site) :
    Prop where
  numbered : site.pool.Numbered
  settled : site.pool.Settled reports
  watchers : (watchersOf site.pool).Perm (setting.watched site.places)
  world : site.pool.world =
    Plan.overlay (setting.planOf Leaf.noticed site.places)
      (setting.present site.places disk)
  distinct : (site.places.map Prod.fst).Nodup
  below : forall p, p ∈ site.places -> p.1 ≠ []
  closed : forall p, p ∈ site.places -> p.1.dropLast ∈ dirsOf site.places

namespace Site.Stands

variable {setting : Setting} {disk : Disk} {site : Site}

theorem functional (h : site.Stands setting disk) :
    Plan.Functional site.places :=
  Plan.functional_of_nodup h.distinct

theorem functional_plan (h : site.Stands setting disk) :
    Plan.Functional (setting.planOf Leaf.noticed site.places) :=
  functional_planOf h.functional h.below

theorem not_writes_source {copied : Leaf -> Option Bytes}
    {places : List Place} (path : List FileName) :
    ¬ Plan.Writes (setting.planOf copied places)
      (join setting.srcPath path) := by
  rintro ⟨thing, hmem⟩
  rcases List.mem_cons.mp hmem with heq | hmem
  · injection heq with hpath _
    exact setting.apart path [] hpath
  · rcases Setting.mem_writes.mp hmem with ⟨p, _, _, hpath⟩
    exact setting.apart path p.1 hpath

theorem source (h : site.Stands setting disk) {p : Place}
    (hp : p ∈ site.places) :
    site.pool.world (join setting.srcPath p.1) = some p.2 := by
  rw [h.world, Plan.overlay_of_not_writes (not_writes_source p.1)]
  exact Setting.present_of_mem h.functional hp

theorem sourceRoot (h : site.Stands setting disk)
    (hempty : Empty setting disk) :
    site.pool.world setting.srcPath = some Thing.directory := by
  have hroot := @not_writes_source setting Leaf.noticed site.places []
  rw [join_nil] at hroot
  rw [h.world, Plan.overlay_of_not_writes hroot, Setting.present_of_ne]
  · exact hempty.source
  · intro p hp heq
    exact h.below p hp (join_injective heq)

theorem directory (h : site.Stands setting disk)
    {path : List FileName} (hpath : path ∈ dirsOf site.places) :
    site.pool.world (join setting.destPath path) = some Thing.directory := by
  rw [h.world]
  apply Plan.overlay_of_mem h.functional_plan
  rcases mem_dirsOf.mp hpath with hnil | hmem
  · rw [hnil]
    exact List.mem_cons_self
  · apply List.mem_cons_of_mem
    exact Setting.mem_writes.mpr ⟨_, hmem, rfl, rfl⟩

theorem unwritten (h : site.Stands setting disk) {path : List FileName}
    (hnil : path ≠ []) (hpath : path ∉ site.places.map Prod.fst) :
    site.pool.world (join setting.destPath path) =
      disk (join setting.destPath path) := by
  rw [h.world, Plan.overlay_of_not_writes, Setting.present_dest]
  rintro ⟨thing, hmem⟩
  rcases List.mem_cons.mp hmem with heq | hmem
  · injection heq with heq _
    exact hnil (join_injective heq)
  · rcases Setting.mem_writes.mp hmem with ⟨p, hp, _, heq⟩
    exact hpath (List.mem_map.mpr ⟨p, hp, (join_injective heq).symm⟩)

end Site.Stands

/-!
## One entry more
-/

structure Creation.Allowed (c : Creation) (setting : Setting) (disk : Disk)
    (site : Site) : Prop where
  parent : c.parent ∈ dirsOf site.places
  free : site.pool.world (join setting.srcPath c.path) = none
  fits : forall thing, c.thing.counterpart Leaf.noticed = some thing ->
    Fits disk (join setting.destPath c.path) thing

namespace Creation.Allowed

variable {setting : Setting} {disk : Disk} {site : Site} {c : Creation}

theorem path_ne_nil (c : Creation) : c.path ≠ [] := by
  simp [Creation.path]

theorem path_new (h : c.Allowed setting disk site)
    (hstands : site.Stands setting disk) :
    c.path ∉ site.places.map Prod.fst := by
  intro hmem
  rcases List.mem_map.mp hmem with ⟨p, hp, heq⟩
  have hsource := hstands.source hp
  rw [heq, h.free] at hsource
  cases hsource

def job (h : c.Allowed setting disk site) (hstands : site.Stands setting disk)
    (hempty : Empty setting disk) : Job where
  setting := setting
  places := site.places ++ [c.place]
  plan := setting.writes Leaf.noticed [c.place]
  start :=
    Function.update site.pool.world (join setting.srcPath c.path)
      (some c.thing)
  functional := Setting.functional_writes Leaf.noticed
    (Plan.functional_singleton c.path c.thing)
  root := by
    rw [Function.update_of_ne]
    · exact hstands.sourceRoot hempty
    · intro heq
      have hnil : [] = c.path := join_injective heq
      exact path_ne_nil c hnil.symm
  present := by
    intro p hp
    rcases List.mem_append.mp hp with hold | hnew
    · rw [Function.update_of_ne]
      · exact hstands.source hold
      · intro heq
        exact h.path_new hstands
          (List.mem_map.mpr ⟨p, hold, join_injective heq⟩)
    · rw [List.mem_singleton.mp hnew]
      exact Function.update_self _ _ _
  inDest := by
    intro path thing hmem
    rcases Setting.mem_writes.mp hmem with ⟨p, _, _, hpath⟩
    exact ⟨p.1, hpath⟩
  fits := by
    intro path thing hmem
    rcases Setting.mem_writes.mp hmem with ⟨p, hp, hthing, hpath⟩
    rw [List.mem_singleton.mp hp] at hthing hpath
    rw [hpath]
    apply (h.fits thing hthing).of_eq
    rw [Function.update_of_ne (Ne.symm (setting.apart _ _))]
    exact hstands.unwritten (path_ne_nil c) (h.path_new hstands)

theorem serves (h : c.Allowed setting disk site)
    (hstands : site.Stands setting disk) (hempty : Empty setting disk) :
    c.Serves (h.job hstands hempty) where
  place := List.mem_append_right _ List.mem_cons_self
  parent := by
    rcases mem_dirsOf.mp h.parent with hnil | hmem
    · left
      rw [hnil]
      rfl
    · exact Or.inr ⟨_, List.mem_append_left _ hmem, rfl, rfl⟩
  counterpart := by
    show Function.update _ _ _ (join setting.destPath c.parent) = _
    rw [Function.update_of_ne (Ne.symm (setting.apart _ _))]
    exact hstands.directory h.parent
  planned := fun thing hthing =>
    Setting.mem_writes.mpr ⟨_, List.mem_cons_self, hthing, rfl⟩
  fresh := by
    have hnone : (site.places ++ [c.place]).filterMap
        (setting.direntAt (join setting.srcPath c.path)) = [] := by
      rw [List.filterMap_eq_nil_iff]
      intro p hp
      have hparent : p.1.dropLast ≠ c.path := by
        rcases List.mem_append.mp hp with hold | hnew
        · intro heq
          have hdir := hstands.closed p hold
          rw [heq] at hdir
          rcases mem_dirsOf.mp hdir with hnil | hmem
          · exact path_ne_nil c hnil
          · exact h.path_new hstands (List.mem_map.mpr ⟨_, hmem, rfl⟩)
        · rw [List.mem_singleton.mp hnew]
          show c.path.dropLast ≠ c.path
          intro heq
          have hlength := congrArg List.length heq
          simp [Creation.path] at hlength
      unfold Setting.direntAt
      split
      · rfl
      · rw [if_neg (fun heq => hparent (join_injective heq))]
    show Setting.direntsOf _ (site.places ++ [c.place]) _ = _
    rw [Setting.direntsOf]
    exact congrArg (fun l => _ :: _ :: l) hnone

end Creation.Allowed

theorem Creation.deliver_own (c : Creation) (setting : Setting) (fuel : Nat)
    (proc : Process Call Call.Answer Stop Globals Deeds) :
    (c.deliver setting fuel proc).own = untouched proc.own := by
  rcases proc with ⟨own, code⟩
  cases code with
  | ret g =>
      unfold deliver
      simp only
      split <;> rfl
  | halt reason => rfl
  | call op next => rfl

def Creation.comesTo (c : Creation) (setting : Setting)
    (proc : Process Call Call.Answer Stop Globals Deeds) : List Report :=
  match proc.code with
  | Program.ret g =>
      if g.srcPath = join setting.srcPath c.parent then c.answers setting g
      else
        [{ watcher := some (g.srcPath, g.destPath)
           opened := []
           written := 0 }]
  | Program.halt _ => [lost]
  | Program.call _ _ => []

section Step

variable {setting : Setting} {disk : Disk} {site : Site} {c : Creation}
  {fuel : Nat}

theorem Site.Stands.destPath (h : site.Stands setting disk)
    {proc : Process Call Call.Answer Stop Globals Deeds}
    (hproc : proc ∈ site.pool.procs) {g : Globals} (hcode : proc.code = ret g)
    {path : List FileName} (hsrc : g.srcPath = join setting.srcPath path) :
    g.destPath = join setting.destPath path := by
  have hmem : (g.srcPath, g.destPath) ∈ watchersOf site.pool := by
    apply List.mem_filterMap.mpr
    refine ⟨reports.returned proc.own g, ?_, rfl⟩
    apply List.mem_filterMap.mpr
    refine ⟨proc, hproc, ?_⟩
    simp only [Process.outcome, hcode]
  rcases List.mem_map.mp (h.watchers.mem_iff.mp hmem) with ⟨path', _, heq⟩
  injection heq with hsrc' hdest
  rw [hsrc] at hsrc'
  rw [← hdest, join_injective hsrc']

theorem Creation.Allowed.yields (h : c.Allowed setting disk site)
    (hstands : site.Stands setting disk) (hempty : Empty setting disk)
    (hfuel : Listing.nil.need ≤ fuel)
    {proc : Process Call Call.Answer Stop Globals Deeds}
    (hproc : proc ∈ site.pool.procs) :
    ComesTo (h.job hstands hempty) (c.deliver setting fuel proc).own
      (c.deliver setting fuel proc).code
      (c.comesTo setting proc : Multiset Report) := by
  have hsome := hstands.settled proc hproc
  rcases proc with ⟨own, code⟩
  cases code with
  | ret g =>
      unfold Creation.deliver Creation.comesTo
      by_cases hwatches : g.srcPath = join setting.srcPath c.parent
      · simp only [if_pos hwatches]
        exact yields_handleEvent (h.serves hstands hempty) hfuel hwatches
          (hstands.destPath hproc rfl hwatches) rfl
      · simp only [if_neg hwatches]
        rfl
  | halt reason => rfl
  | call op next => cases hsome

theorem Creation.comesTo_watchers (c : Creation)
    (procs : List (Process Call Call.Answer Stop Globals Deeds)) :
    (procs.flatMap (c.comesTo setting)).filterMap Report.watcher =
      ((procs.filterMap (Process.outcome reports)).filterMap
        Report.watcher).flatMap
          (fun w => w ::
            if c.thing = Thing.directory ∧
                w.1 = join setting.srcPath c.parent then
              [(join setting.srcPath c.path, join setting.destPath c.path)]
            else []) := by
  induction procs with
  | nil => rfl
  | cons proc procs ih =>
      rw [List.flatMap_cons, List.filterMap_append, ih]
      rcases proc with ⟨own, code⟩
      cases code with
      | ret g =>
          rw [List.filterMap_cons_some (by rfl), List.filterMap_cons_some
            (by rfl), List.flatMap_cons]
          congr 1
          unfold Creation.comesTo
          by_cases hwatches : g.srcPath = join setting.srcPath c.parent
          · by_cases hthing : c.thing = Thing.directory
            · simp [hwatches, hthing, answers, childs, Setting.report,
                Setting.reportAt]
            · simp [hwatches, hthing, answers, childs]
          · simp [hwatches]
      | halt reason =>
          rw [List.filterMap_cons_some (by rfl), List.filterMap_cons_none
            (by rfl)]
          rfl
      | call op next =>
          rw [List.filterMap_cons_none (by rfl)]
          rfl

theorem watched_concat (places : List Place) (c : Creation) :
    setting.watched (places ++ [c.place]) =
      setting.watched places ++
        if c.thing = Thing.directory then
          [(join setting.srcPath c.path, join setting.destPath c.path)]
        else [] := by
  rw [Setting.watched, dirsOf_concat, List.map_append]
  by_cases hthing : c.thing = Thing.directory
  · simp [Setting.watched, Creation.place, hthing]
  · simp [Setting.watched, Creation.place, hthing]

theorem Creation.Allowed.watchers (h : c.Allowed setting disk site)
    (hstands : site.Stands setting disk) :
    ((site.pool.procs.flatMap (c.comesTo setting)).filterMap
      Report.watcher).Perm (setting.watched (site.places ++ [c.place])) := by
  rw [c.comesTo_watchers]
  refine (hstands.watchers.flatMap_right _).trans ?_
  refine (flatMap_once _ _ _).trans ?_
  rw [watched_concat]
  by_cases hthing : c.thing = Thing.directory
  · have hone := @countP_watched setting _ hstands.distinct hstands.below _
      h.parent
    simp only [hthing, true_and, hone, List.replicate_one, if_true]
    exact List.Perm.refl _
  · simp only [hthing, false_and, if_false, decide_false,
      List.countP_false, Function.const]
    exact List.Perm.refl _

theorem Creation.Allowed.reported (h : c.Allowed setting disk site)
    (hstands : site.Stands setting disk) {path : Bytes} {thing : Thing}
    (hplan : (path, thing) ∈ setting.writes Leaf.noticed [c.place]) :
    exists report, report ∈ site.pool.procs.flatMap (c.comesTo setting) ∧
      ((thing = Thing.directory ∧ path ∈ report.opened) ∨
        exists content, thing = Thing.leaf (Leaf.regular content) ∧
          (path, content) ∈ report.written) := by
  have hwatched : (join setting.srcPath c.parent,
      join setting.destPath c.parent) ∈ watchersOf site.pool := by
    rw [hstands.watchers.mem_iff]
    exact List.mem_map.mpr ⟨_, h.parent, rfl⟩
  rcases List.mem_filterMap.mp hwatched with ⟨report, hreport, hwatcher⟩
  rcases List.mem_filterMap.mp hreport with ⟨proc, hproc, houtcome⟩
  have hanswers : exists g, c.comesTo setting proc = c.answers setting g := by
    rcases proc with ⟨own, code⟩
    cases code with
    | ret g =>
        injection houtcome with houtcome
        rw [← houtcome] at hwatcher
        injection hwatcher with hwatcher
        injection hwatcher with hsrc _
        exact ⟨g, if_pos hsrc⟩
    | halt reason =>
        injection houtcome with houtcome
        rw [← houtcome] at hwatcher
        cases hwatcher
    | call op next => cases houtcome
  rcases hanswers with ⟨g, hanswers⟩
  have hin : forall r, r ∈ c.answers setting g ->
      r ∈ site.pool.procs.flatMap (c.comesTo setting) := by
    intro r hr
    rw [← hanswers] at hr
    exact List.mem_flatMap.mpr ⟨proc, hproc, hr⟩
  rcases Setting.mem_writes.mp hplan with ⟨p, hp, hthing, hpath⟩
  rw [List.mem_singleton.mp hp] at hthing hpath
  change c.thing.counterpart Leaf.noticed = some thing at hthing
  change path = join setting.destPath c.path at hpath
  cases hkind : c.thing with
  | directory =>
      rw [hkind] at hthing
      injection hthing with hthing
      refine ⟨setting.report c.path Listing.nil, hin _ ?_, Or.inl
        ⟨hthing.symm, ?_⟩⟩
      · rw [Creation.answers, Creation.childs, if_pos hkind]
        exact List.mem_cons_of_mem _ List.mem_cons_self
      · rw [hpath]
        exact List.mem_cons_of_mem _ List.mem_cons_self
  | leaf kind =>
      rw [hkind, Thing.counterpart, Option.map_eq_some_iff] at hthing
      rcases hthing with ⟨content, hnoticed, hthing⟩
      refine ⟨_, hin _ List.mem_cons_self, Or.inr
        ⟨content, hthing.symm, ?_⟩⟩
      simp only [Creation.written, hkind, hnoticed]
      rw [hpath]
      exact List.mem_cons_self

theorem below_concat {places : List Place}
    (h : forall p, p ∈ places -> p.1 ≠ []) :
    forall p, p ∈ places ++ [c.place] -> p.1 ≠ [] := by
  intro p hp
  rcases List.mem_append.mp hp with hold | hnew
  · exact h p hold
  · rw [List.mem_singleton.mp hnew]
    exact Creation.Allowed.path_ne_nil c

theorem distinct_concat (h : c.Allowed setting disk site)
    (hstands : site.Stands setting disk) :
    ((site.places ++ [c.place]).map Prod.fst).Nodup := by
  rw [List.map_append]
  apply List.Nodup.append hstands.distinct (List.nodup_singleton _)
  intro path hold hnew
  rw [List.mem_singleton.mp hnew] at hold
  exact h.path_new hstands hold

theorem Creation.Allowed.world_eq (h : c.Allowed setting disk site)
    (hstands : site.Stands setting disk) :
    Plan.overlay (setting.writes Leaf.noticed [c.place])
        (Function.update site.pool.world (join setting.srcPath c.path)
          (some c.thing)) =
      Plan.overlay (setting.planOf Leaf.noticed (site.places ++ [c.place]))
        (setting.present (site.places ++ [c.place]) disk) := by
  have hplaces : Plan.Functional (site.places ++ [c.place]) :=
    Plan.functional_of_nodup (distinct_concat h hstands)
  have hbelow := @below_concat c _ hstands.below
  have hplan := @functional_planOf setting Leaf.noticed _ hplaces hbelow
  have hsources := @Setting.functional_sources setting _ hplaces
  have hsplit : setting.planOf Leaf.noticed (site.places ++ [c.place]) =
      setting.planOf Leaf.noticed site.places ++
        setting.writes Leaf.noticed [c.place] := by
    rw [Setting.planOf, Setting.writes, List.filterMap_append]
    rfl
  have hperm : (setting.writes Leaf.noticed [c.place] ++
      setting.planOf Leaf.noticed site.places).Perm
        (setting.planOf Leaf.noticed (site.places ++ [c.place])) := by
    rw [hsplit]
    exact List.perm_append_comm
  have hpresent : setting.present (site.places ++ [c.place]) disk =
      Function.update (setting.present site.places disk)
        (join setting.srcPath c.path) (some c.thing) := by
    rw [Setting.present, ← Plan.overlay_perm hsources
      (List.perm_append_comm.map _), List.map_append, Plan.overlay_append,
      ← Plan.overlay_singleton]
    rfl
  rw [← Plan.overlay_perm hplan hperm,
    Plan.overlay_append, hpresent,
    Plan.overlay_update (Site.Stands.not_writes_source c.path),
    ← hstands.world]

theorem Site.Stands.step (hstands : site.Stands setting disk)
    (hempty : Empty setting disk) (hfuel : Listing.nil.need ≤ fuel)
    (hfits : forall thing, c.thing.counterpart Leaf.noticed = some thing ->
      Fits disk (join setting.destPath c.path) thing)
    {site' : Site} (hstep : Site.step setting fuel site c = some site') :
    site'.Stands setting disk := by
  simp only [Site.step] at hstep
  split at hstep
  case isFalse _ => cases hstep
  case isTrue hallowed =>
    have h : c.Allowed setting disk site :=
      { parent := mem_dirsOf.mpr hallowed.left
        free := hallowed.right
        fits := hfits }
    split at hstep
    case h_1 _ => cases hstep
    case h_2 pool hrun =>
      split at hstep
      case isFalse _ => cases hstep
      case isTrue hsettled =>
        injection hstep with hstep
        rw [← hstep]
        let job := h.job hstands hempty
        have hall : YieldAll job.tasks job.rules reports
            (site.pool.procs.map (c.deliver setting fuel))
            (site.pool.procs.flatMap (c.comesTo setting) :
              Multiset Report) :=
          YieldAll.map (fun proc hproc => h.yields hstands hempty hfuel hproc)
        have hnumbered : (site.created setting fuel c).Numbered := by
          intro k proc hproc
          rw [Site.created, List.getElem?_map] at hproc
          rcases Option.map_eq_some_iff.mp hproc with ⟨proc', hproc', heq⟩
          rw [← heq, c.deliver_own]
          exact hstands.numbered k proc' hproc'
        have hknown : (site.created setting fuel c).Each
            (fun disk own _ => job.Known own disk) := by
          intro proc hproc
          rcases List.mem_map.mp hproc with ⟨proc', _, heq⟩
          rw [← heq, c.deliver_own]
          exact Job.known_idle (Plan.Within.refl _ _) _ _
        have hparks : forall op, reports.parks op = true ->
            job.tasks.forks op = none := by
          intro op hop
          cases hop
        rcases Pool.outcomes_from (Job.stable job) hparks hnumbered hknown hall
          hrun hsettled with ⟨hnumbered', hknown', hout⟩
        have hperm : (pool.outcomes reports).Perm
            (site.pool.procs.flatMap (c.comesTo setting)) :=
          Multiset.coe_eq_coe.mp hout
        have hworld : pool.world = Plan.overlay job.plan job.start := by
          apply Job.completed hknown'
          · intro hnil
            have hnone := (hperm.filterMap Report.watcher).trans
              (h.watchers hstands)
            rw [hnil] at hnone
            exact absurd hnone.length_eq (by simp [Setting.watched, dirsOf])
          · intro path thing hplan
            rcases h.reported hstands hplan with ⟨report, hmem, hdone⟩
            exact ⟨report, hperm.mem_iff.mpr hmem, hdone⟩
        constructor
        case numbered => exact hnumbered'
        case settled => exact hsettled
        case watchers =>
          exact (hperm.filterMap _).trans (h.watchers hstands)
        case world => exact hworld.trans (h.world_eq hstands)
        case distinct => exact distinct_concat h hstands
        case below => exact below_concat hstands.below
        case closed =>
          intro p hp
          rw [dirsOf_concat]
          apply List.mem_append_left
          rcases List.mem_append.mp hp with hold | hnew
          · exact hstands.closed p hold
          · rw [List.mem_singleton.mp hnew]
            show c.path.dropLast ∈ dirsOf site.places
            rw [Creation.path, List.dropLast_concat]
            exact h.parent

theorem Site.places_step {site' : Site}
    (hstep : Site.step setting fuel site c = some site') :
    site'.places = site.places ++ [c.place] := by
  simp only [Site.step] at hstep
  split at hstep
  case isFalse _ => cases hstep
  case isTrue _ =>
    split at hstep
    case h_1 _ => cases hstep
    case h_2 _ _ =>
      split at hstep
      case isFalse _ => cases hstep
      case isTrue _ =>
        injection hstep with hstep
        rw [← hstep]

theorem Site.places_run {site' : Site} {creations : List Creation}
    (hrun : run (Site.step setting fuel) site creations = some site')
    {p : Place} (hp : p ∈ site.places) : p ∈ site'.places := by
  refine run_invariant (fun site : Site => p ∈ site.places) ?_ hp
    (allSteps_of_forall (fun _ _ => trivial) creations _) hrun
  intro site c site' hp _ hstep
  rw [Site.places_step hstep]
  exact List.mem_append_left _ hp

theorem Site.Stands.run (hempty : Empty setting disk)
    (hfuel : Listing.nil.need ≤ fuel) {site' : Site}
    {creations : List Creation} (hstands : site.Stands setting disk)
    (hrun : run (Site.step setting fuel) site creations = some site')
    (hfits : forall p thing, p ∈ site'.places ->
      p.2.counterpart Leaf.noticed = some thing ->
      Fits disk (join setting.destPath p.1) thing) :
    site'.Stands setting disk := by
  induction creations generalizing site with
  | nil =>
      injection hrun with hrun
      rw [← hrun]
      exact hstands
  | cons c creations ih =>
      rcases run_cons_eq_some hrun with ⟨mid, hstep, hrest⟩
      have hplace : c.place ∈ site'.places := by
        apply Site.places_run hrest
        rw [Site.places_step hstep]
        exact List.mem_append_right _ List.mem_cons_self
      exact ih
        (hstands.step hempty hfuel (fun thing => hfits c.place thing hplace)
          hstep) hrest

end Step

/-!
## The two paths

The scan and the events write the same plan, except for links to files: the scan
copies what they point to, the handler of the event does not.
-/

theorem dirsOf_places (listing : Listing) :
    dirsOf listing.places = listing.directories.map Prod.fst := by
  have hinside : (listing.places.filter
      (fun p => p.2 = Thing.directory)).map Prod.fst =
        listing.inside.map Prod.fst := by
    induction listing with
    | nil => rfl
    | leaf name kind rest ih =>
        rw [Listing.places, List.filter_cons_of_neg (by simp)]
        exact ih
    | dir name inner rest ihinner ihrest =>
        rw [Listing.places, List.filter_cons_of_pos (by simp),
          List.filter_append, List.map_cons, List.map_append, ihrest,
          List.filter_map, List.map_map]
        have hfront : (List.filter
            ((fun p : Place => decide (p.2 = Thing.directory)) ∘
              (fun p : Place => (name :: p.1, p.2)))
            inner.places).map
              (Prod.fst ∘ (fun p : Place => (name :: p.1, p.2))) =
            (inner.inside.map Prod.fst).map (fun path => name :: path) := by
          rw [← ihinner, List.map_map]
          rfl
        rw [hfront, List.map_map]
        simp only [Listing.inside, List.map_cons, List.map_append,
          List.map_map]
        rfl
  rw [dirsOf, hinside]
  rfl

theorem watchersOf_scan {setting : Setting} {listing : Listing}
    {pool : ScanPool}
    (h : (pool.outcomes reports : Multiset Report) =
      setting.reportsFrom ([], listing)) :
    (watchersOf pool).Perm (setting.watched listing.places) := by
  have hperm := (Multiset.coe_eq_coe.mp h).filterMap Report.watcher
  have hwatchers : (setting.reportsFrom ([], listing)).filterMap
      Report.watcher = setting.watched listing.places := by
    rw [Setting.reportsFrom, List.filterMap_cons_some (by rfl),
      setting.below_watchers, Setting.watched, dirsOf_places,
      Listing.directories, List.map_cons, List.map_cons, List.map_map]
    rfl
  rw [← hwatchers]
  exact hperm

theorem planOf_root {setting : Setting} {copied : Leaf -> Option Bytes}
    {places : List Place} (hplaces : Plan.Functional places)
    (hbelow : forall p, p ∈ places -> p.1 ≠ []) (start : Disk) :
    Plan.overlay (setting.planOf copied places) start
        (join setting.destPath []) = some Thing.directory :=
  Plan.overlay_of_mem (functional_planOf hplaces hbelow) List.mem_cons_self

theorem planOf_place {setting : Setting} {copied : Leaf -> Option Bytes}
    {places : List Place} (hplaces : Plan.Functional places)
    (hbelow : forall p, p ∈ places -> p.1 ≠ []) (start : Disk) {p : Place}
    (hp : p ∈ places) :
    Plan.overlay (setting.planOf copied places) start
        (join setting.destPath p.1) =
      (p.2.counterpart copied).or (start (join setting.destPath p.1)) := by
  cases hthing : p.2.counterpart copied with
  | some thing =>
      apply Plan.overlay_of_mem (functional_planOf hplaces hbelow)
      apply List.mem_cons_of_mem
      exact Setting.mem_writes.mpr ⟨p, hp, hthing, rfl⟩
  | none =>
      apply Plan.overlay_of_not_writes
      rintro ⟨thing, hmem⟩
      rcases List.mem_cons.mp hmem with heq | hmem
      · injection heq with hpath _
        exact hbelow p hp (join_injective hpath)
      · rcases Setting.mem_writes.mp hmem with ⟨p', hp', hthing', hpath⟩
        have hsame : p'.2 = p.2 := by
          apply hplaces p'.1 p'.2 p.2 hp'
          rw [← join_injective hpath]
          exact hp
        rw [hsame, hthing] at hthing'
        cases hthing'

theorem planOf_elsewhere {setting : Setting} {copied : Leaf -> Option Bytes}
    {places : List Place} (start : Disk) {path : List FileName}
    (hnil : path ≠ []) (hnone : forall thing, (path, thing) ∉ places) :
    Plan.overlay (setting.planOf copied places) start
        (join setting.destPath path) =
      start (join setting.destPath path) := by
  apply Plan.overlay_of_not_writes
  rintro ⟨thing, hmem⟩
  rcases List.mem_cons.mp hmem with heq | hmem
  · injection heq with hpath _
    exact hnil (join_injective hpath)
  · rcases Setting.mem_writes.mp hmem with ⟨p, hp, _, hpath⟩
    apply hnone p.2
    rw [join_injective hpath]
    exact hp

/-- The scan and the events differ in links to files. -/
theorem Thing.counterpart_noticed (thing : Thing) :
    thing.counterpart Leaf.noticed = thing.counterpart Leaf.copied ∨
      exists content, thing = leaf (Leaf.link (some content)) := by
  cases thing with
  | directory => exact Or.inl rfl
  | leaf kind =>
      cases kind with
      | link copied =>
          cases copied with
          | none => exact Or.inl rfl
          | some content => exact Or.inr ⟨content, rfl⟩
      | regular _ | fifo | socket | charDevice | blockDevice => exact Or.inl rfl

/-- At the counterpart of every link to a file that can be copied there is a
copy of the file. -/
def Mirrored (setting : Setting) (places : List Place) (disk : Disk) : Prop :=
  forall path content,
    (path, Thing.leaf (Leaf.link (some content))) ∈ places ->
      disk (join setting.destPath path) =
        some (Thing.leaf (Leaf.regular content))

theorem plans_agree {setting : Setting} {places : List Place}
    (hplaces : Plan.Functional places)
    (hbelow : forall p, p ∈ places -> p.1 ≠ []) {disk start start' : Disk}
    (hstart : forall path,
      start (join setting.destPath path) = disk (join setting.destPath path))
    (hstart' : forall path,
      start' (join setting.destPath path) =
        disk (join setting.destPath path)) :
    (forall path,
      Plan.overlay (setting.planOf Leaf.copied places) start
          (join setting.destPath path) =
        Plan.overlay (setting.planOf Leaf.noticed places) start'
          (join setting.destPath path)) <->
      Mirrored setting places disk := by
  constructor
  · intro h path content hmem
    have hpath := h path
    rw [planOf_place hplaces hbelow start hmem,
      planOf_place hplaces hbelow start' hmem, hstart'] at hpath
    exact hpath.symm
  · intro h path
    by_cases hnil : path = []
    · rw [hnil, planOf_root hplaces hbelow, planOf_root hplaces hbelow]
    · by_cases hplace : exists thing, (path, thing) ∈ places
      · rcases hplace with ⟨thing, hmem⟩
        rw [planOf_place hplaces hbelow start hmem,
          planOf_place hplaces hbelow start' hmem, hstart, hstart']
        rcases thing.counterpart_noticed with heq | ⟨content, heq⟩
        · rw [heq]
        · rw [heq] at hmem ⊢
          exact (h path content hmem).symm
      · have hnone : forall thing, (path, thing) ∉ places :=
          fun thing hmem => hplace ⟨thing, hmem⟩
        rw [planOf_elsewhere start hnil hnone,
          planOf_elsewhere start' hnil hnone, hstart, hstart']

structure Agree (setting : Setting) (pool pool' : ScanPool) : Prop where
  dest : forall path,
    pool.world (join setting.destPath path) =
      pool'.world (join setting.destPath path)
  watchers : (watchersOf pool).Perm (watchersOf pool')

theorem Listing.need_pos (listing : Listing) :
    nil.need ≤ listing.need := by
  induction listing with
  | nil => exact Nat.le_refl _
  | leaf name kind rest ih => exact Nat.le_succ_of_le ih
  | dir name inner rest _ ih =>
      show nil.need ≤ inner.need + rest.need + 1
      lia

theorem stands_start {setting : Setting} {places : List Place} {disk : Disk}
    {g : Globals} {fuel : Nat} {events : List (Nat × Choices)}
    {pool : ScanPool} (hready : Ready setting places disk)
    (hsrcPath : g.srcPath = setting.srcPath)
    (hdestPath : g.destPath = setting.destPath)
    (hfuel : Listing.nil.need ≤ fuel)
    (hrun : run (Pool.step (machine setting []))
      (Pool.single starter (copyDirectory fuel g) disk) events = some pool)
    (hsettled : pool.Settled reports) :
    Site.Stands setting disk
      { places := []
        pool := pool } := by
  have hnothing : Ready setting Listing.nil.places disk :=
    { hready with
      fits := by
        intro p thing hp
        cases hp }
  have hscan := @scan_result setting Listing.nil trivial disk g fuel events
    pool hnothing hsrcPath hdestPath hfuel hrun hsettled
  constructor
  case numbered => exact (Pool.numbered_single rfl).run hrun
  case settled => exact hsettled
  case watchers => exact watchersOf_scan hscan.left
  case world => exact hscan.right
  case distinct => exact List.nodup_nil
  case below =>
    intro p hp
    cases hp
  case closed =>
    intro p hp
    cases hp

/-- A tree that is there before the scan and the same tree made entry by entry
come to the same processes, and they come to the same counterpart exactly if
the links are there already. -/
theorem paths_agree {setting : Setting} {listing : Listing} {disk : Disk}
    {g : Globals} {fuel : Nat} {scanEvents startEvents : List (Nat × Choices)}
    {scanned started : ScanPool} {creations : List Creation} {site : Site}
    (hdistinct : listing.Distinct)
    (hready : Ready setting listing.places disk)
    (hsrcPath : g.srcPath = setting.srcPath)
    (hdestPath : g.destPath = setting.destPath) (hfuel : listing.need ≤ fuel)
    (hscan : run (Pool.step (machine setting listing.places))
      (Pool.single starter (copyDirectory fuel g)
        (setting.present listing.places disk)) scanEvents = some scanned)
    (hscanned : scanned.Settled reports)
    (hstart : run (Pool.step (machine setting []))
      (Pool.single starter (copyDirectory fuel g) disk) startEvents =
        some started)
    (hstarted : started.Settled reports)
    (hmade : run (Site.step setting fuel)
      { places := []
        pool := started } creations = some site)
    (hsame : site.places.Perm listing.places) :
    Agree setting scanned site.pool <->
      Mirrored setting listing.places disk := by
  have hneed : Listing.nil.need ≤ fuel :=
    Nat.le_trans listing.need_pos hfuel
  have hplaces := Listing.places_functional hdistinct
  have hbelow : forall p, p ∈ listing.places -> p.1 ≠ [] :=
    fun p hp => Listing.place_ne_nil hp
  have hfirst := scan_result hdistinct hready hsrcPath hdestPath hfuel hscan
    hscanned
  have hfits : forall p thing, p ∈ site.places ->
      p.2.counterpart Leaf.noticed = some thing ->
      Fits disk (join setting.destPath p.1) thing := by
    intro p thing hp hthing
    apply hready.fits p thing (hsame.mem_iff.mp hp)
    rcases p.2.counterpart_noticed with heq | ⟨content, heq⟩
    · rw [← heq]
      exact hthing
    · rw [heq] at hthing
      cases hthing
  have hsecond := (stands_start hready hsrcPath hdestPath hneed hstart
    hstarted).run hready.toEmpty hneed hmade hfits
  have hplan : (setting.planOf Leaf.noticed site.places).Perm
      (setting.planOf Leaf.noticed listing.places) :=
    (hsame.filterMap _).cons _
  have hwatchers : (watchersOf scanned).Perm (watchersOf site.pool) := by
    refine (watchersOf_scan hfirst.left).trans
      (List.Perm.trans ?_ hsecond.watchers.symm)
    exact (((hsame.symm.filter _).map _).cons _).map _
  have hworlds := plans_agree hplaces hbelow
    (fun path => @Setting.present_dest setting listing.places disk path)
    (fun path => @Setting.present_dest setting site.places disk path)
  rw [← Plan.overlay_perm (functional_planOf hplaces hbelow) hplan,
    ← hfirst.right, ← hsecond.world] at hworlds
  rw [← hworlds]
  constructor
  · exact fun h => h.dest
  · exact fun h => ⟨h, hwatchers⟩

/-!
## Examples
-/

def sideBySide : Setting where
  srcPath := text ['s']
  destPath := text ['d']
  apart := by
    intro path path' heq
    rw [join_eq_append, join_eq_append (text ['d'])] at heq
    injection heq with hhead _
    exact absurd hhead (by decide)

def emptyDisk : Disk := fun path =>
  if path = text ['s'] then some Thing.directory else none

theorem ready_empty (places : List Place) :
    Ready sideBySide places emptyDisk where
  source := rfl
  empty := by
    intro path hpath
    have hne : join sideBySide.srcPath path ≠ text ['s'] :=
      fun heq => hpath (@join_injective sideBySide.srcPath path [] heq)
    exact if_neg hne
  dest := Or.inl rfl
  fits := by
    intro p thing _ _
    left
    have hne : join sideBySide.destPath p.1 ≠ text ['s'] :=
      fun heq => sideBySide.apart [] p.1 heq.symm
    exact if_neg hne

def daemonGlobals : Globals where
  inFd := -1
  checkFlag := true
  srcPath := text ['s']
  destPath := text ['d']
  source := []
  dest := []
  mainPid := 1

def turns (who count : Nat) (listing : Listing) (mode : UInt32) :
    List (Nat × Choices) :=
  List.replicate count
    (who,
      { array := []
        order := listing.listed.map Entry.dirent
        stream := []
        number := 3
        mode := mode })

def handles (who count : Nat) (thing : Thing) : List (Nat × Choices) :=
  turns who 4 Listing.nil S_IFDIR ++ turns who count Listing.nil thing.format

def make (parent : List FileName) (name : FileName) (thing : Thing)
    (events : List (Nat × Choices)) : Creation where
  parent := parent
  name := name
  thing := thing
  wd := 1
  cookie := 0
  stale := []
  events := events

def scanOf (listing : Listing) (events : List (Nat × Choices)) :
    Option ScanPool :=
  run (Pool.step (machine sideBySide listing.places))
    (Pool.single starter (copyDirectory 20 daemonGlobals)
      (sideBySide.present listing.places emptyDisk)) events

def startOf : Option ScanPool :=
  run (Pool.step (machine sideBySide []))
    (Pool.single starter (copyDirectory 20 daemonGlobals) emptyDisk)
    (turns 0 8 Listing.nil 0)

def siteOf (started : ScanPool) (creations : List Creation) : Option Site :=
  run (Site.step sideBySide 20)
    { places := []
      pool := started } creations

def fileTree : Listing :=
  Listing.leaf nameB (Leaf.regular (text ['y'])) Listing.nil

def deviceTree : Listing :=
  Listing.dir nameA fileTree
    (Listing.leaf nameB Leaf.blockDevice Listing.nil)

def deviceScan : List (Nat × Choices) :=
  turns 0 10 deviceTree 0 ++ turns 1 12 fileTree 0 ++ turns 2 7 Listing.nil 0

def deviceCreations : List Creation :=
  [make [] nameA Thing.directory
      (handles 0 3 Thing.directory ++ turns 1 10 Listing.nil 0),
    make [nameA] nameB (Thing.leaf (Leaf.regular (text ['y'])))
      (handles 1 3 (Thing.leaf (Leaf.regular (text ['y'])))),
    make [] nameB (Thing.leaf Leaf.blockDevice)
      (handles 0 2 (Thing.leaf Leaf.blockDevice))]

theorem paths_agree_device :
    exists scanned started site,
      scanOf deviceTree deviceScan = some scanned ∧
        startOf = some started ∧
        siteOf started deviceCreations = some site ∧
        (watchersOf site.pool).length = 2 ∧
        Agree sideBySide scanned site.pool := by
  have hscan : exists scanned,
      scanOf deviceTree deviceScan = some scanned ∧
        scanned.Settled reports := by
    decide +kernel
  have hmade : exists started,
      startOf = some started ∧ started.Settled reports ∧
        exists site,
          siteOf started deviceCreations = some site ∧
            site.places.Perm deviceTree.places ∧
            (watchersOf site.pool).length = 2 := by
    decide +kernel
  have hdistinct : deviceTree.Distinct :=
    ⟨by decide, ⟨by decide, trivial⟩, by decide, trivial⟩
  rcases hscan with ⟨scanned, hscan, hscanned⟩
  rcases hmade with ⟨started, hstart, hstarted, site, hmade, hsame, htwo⟩
  refine ⟨scanned, started, site, hscan, hstart, hmade, htwo, ?_⟩
  rw [paths_agree hdistinct (ready_empty _) rfl rfl (by decide +kernel) hscan
    hscanned hstart hstarted hmade hsame]
  intro path content hmem
  simp [deviceTree, fileTree, Listing.places] at hmem

def linkTree : Listing :=
  Listing.leaf nameB (Leaf.link (some (text ['x']))) Listing.nil

def linkCreations : List Creation :=
  [make [] nameB (Thing.leaf (Leaf.link (some (text ['x']))))
      (handles 0 2 (Thing.leaf (Leaf.link (some (text ['x'])))))]

/-- The scan makes a copy of the file that the link points to, and the handler
of the event does not. -/
theorem link_differs :
    exists scanned started site,
      scanOf linkTree (turns 0 10 linkTree 0) = some scanned ∧
        scanned.Settled reports ∧ startOf = some started ∧
        started.Settled reports ∧
        siteOf started linkCreations = some site ∧
        site.places = linkTree.places ∧
        ¬ Agree sideBySide scanned site.pool := by
  have hruns : exists scanned,
      scanOf linkTree (turns 0 10 linkTree 0) = some scanned ∧
        scanned.Settled reports ∧ exists started, startOf = some started ∧
        started.Settled reports ∧ exists site,
        siteOf started linkCreations = some site ∧
        site.places = linkTree.places ∧
        scanned.world (join sideBySide.destPath [nameB]) ≠
          site.pool.world (join sideBySide.destPath [nameB]) := by
    decide +kernel
  rcases hruns with ⟨scanned, hscan, hscanned, started, hstart, hstarted, site,
    hmade, hsame, hworld⟩
  exact ⟨scanned, started, site, hscan, hscanned, hstart, hstarted, hmade,
    hsame, fun hagree => hworld (hagree.dest [nameB])⟩

end Kinds
end Backuper
end UnixPrograms
