import UnixPrograms.Foundation.Tally
import UnixPrograms.Backuper.Conduct

/-!
# Nobody has anything to do twice

What the processes have, are going to fork for and are going to look for is
counted, for each path of the source.  No step of a process makes it more than
one.
-/

namespace UnixPrograms
namespace Backuper
namespace Watchers

open Foundation Program

def Opened (house : House) (dir : List FileName) : Prop :=
  exists proc, proc ∈ house.procs ∧ active proc = true ∧
    proc.own.data.path = dir ∧ proc.own.data.stage ≠ Stage.starting

/-- Nobody has anything to do twice, and nobody has anything to do below a
directory that is still to be opened. -/
structure Tidy (house : House) : Prop where
  once : forall path, tally held house.procs path ≤ 1
  single : forall path, path ∈ house.world.dirs ->
    tally (claims house.world) house.procs path ≤ 1
  deep : forall dir, dir ∈ house.world.dirs -> ¬ Unclaimed house dir ->
    ¬ Opened house dir -> forall path, path ∈ house.world.dirs ->
    dir <+: path -> path ≠ dir -> Unclaimed house path

/-!
## Claims

A process has its `src_path`, and it may come to have the paths for which it is
going to fork or to look.  Counted over all processes no path comes twice.
-/

theorem unclaimed_iff {house : House} {path : List FileName} :
    Unclaimed house path <->
      tally (claims house.world) house.procs path = 0 :=
  List.count_eq_zero.symm

theorem count_claims {kernel : Kernel} (proc : Member)
    (path : List FileName) :
    (claims kernel proc).count path =
      (held proc).count path + (wanted kernel proc).count path :=
  List.count_append

theorem count_held_le {kernel : Kernel} (proc : Member)
    (path : List FileName) :
    (held proc).count path ≤ (claims kernel proc).count path := by
  rw [count_claims]
  exact Nat.le_add_right _ _

theorem tally_held_le (house : House) (path : List FileName) :
    tally held house.procs path ≤
      tally (claims house.world) house.procs path :=
  tally_mono (fun proc _ => count_held_le proc path)

theorem held_inactive {proc : Member} (h : active proc ≠ true) :
    held proc = [] := if_neg h

theorem claims_inactive {kernel : Kernel} {proc : Member}
    (h : active proc ≠ true) : claims kernel proc = [] := by
  rw [claims, held_inactive h, wanted, if_neg h]
  rfl

theorem mem_held_path {proc : Member} (h : active proc = true) :
    proc.own.data.path ∈ held proc := by
  rw [held, if_pos h]
  exact List.mem_cons_self

theorem mem_claims_path {kernel : Kernel} {proc : Member}
    (h : active proc = true) : proc.own.data.path ∈ claims kernel proc :=
  List.mem_append_left _ (mem_held_path h)

theorem active_iff {proc : Member} :
    active proc = true <->
      running proc = true ∧ proc.own.data.ending = false := by
  simp [active]

theorem Tidy.alone {house : House} (h : Tidy house) {i j : Nat}
    {proc proc' : Member} (hi : house.procs[i]? = some proc)
    (hj : house.procs[j]? = some proc') (hactive : active proc = true)
    (hactive' : active proc' = true)
    (hpath : proc.own.data.path = proc'.own.data.path) : i = j := by
  by_contra hne
  have hboth := @count_add_count_le_tally _ _ _ held _ _ _ _ _ hi hj hne
    proc.own.data.path
  have honce := h.once proc.own.data.path
  have hfirst := List.count_pos_iff.mpr (mem_held_path hactive)
  have hsecond := List.count_pos_iff.mpr (mem_held_path hactive')
  rw [← hpath] at hsecond
  lia

/-!
## One process and its children
-/

/-- A process at a position has taken a step, perhaps with the birth of others,
and all others have what they had. -/
structure Replaces (house house' : House) (who : Nat) (proc proc' : Member)
    (born : List Member) : Prop where
  here : house.procs[who]? = some proc
  procs : house'.procs = house.procs.set who proc' ++ born
  dirs : house'.world.dirs = house.world.dirs
  others : forall k other, k ≠ who -> house.procs[k]? = some other ->
    claims house'.world other = claims house.world other

section Replaces

variable {house house' : House} {who : Nat} {proc proc' : Member}
  {born : List Member}

theorem Replaces.held_eq (h : Replaces house house' who proc proc' born)
    (path : List FileName) :
    tally held house'.procs path + (held proc).count path =
      tally held house.procs path + (held proc').count path +
        tally held born path := by
  have hset := @tally_set _ _ _ held held _ _ _ proc' h.here
    (fun _ _ _ _ => rfl) path
  rw [h.procs, tally_append]
  lia

theorem Replaces.claims_eq (h : Replaces house house' who proc proc' born)
    (path : List FileName) :
    tally (claims house'.world) house'.procs path +
        (claims house.world proc).count path =
      tally (claims house.world) house.procs path +
        (claims house'.world proc').count path +
        tally (claims house'.world) born path := by
  have hset := @tally_set _ _ _ _ _ _ _ _ proc' h.here h.others path
  rw [h.procs, tally_append]
  lia

theorem Replaces.mem_other (h : Replaces house house' who proc proc' born)
    {k : Nat} {other : Member} (hk : house.procs[k]? = some other)
    (hne : k ≠ who) : other ∈ house'.procs := by
  rw [h.procs]
  apply List.mem_append_left
  exact List.mem_of_getElem?
    ((List.getElem?_set_ne (Ne.symm hne)).trans hk)

theorem Replaces.mem_self (h : Replaces house house' who proc proc' born) :
    proc' ∈ house'.procs := by
  have hwho := (List.getElem?_eq_some_iff.mp h.here).choose
  rw [h.procs]
  apply List.mem_append_left
  exact List.mem_of_getElem? (List.getElem?_set_self hwho)

theorem Tidy.replace (h : Tidy house)
    (hreplaces : Replaces house house' who proc proc' born)
    (hheld : forall path,
      (held proc').count path + tally held born path ≤ (held proc).count path ∨
        path ∈ house.world.dirs)
    (hclaims : forall path, path ∈ house.world.dirs ->
      (claims house'.world proc').count path +
          tally (claims house'.world) born path ≤
        (claims house.world proc).count path)
    (hborn : proc.own.data.path ∉ born.flatMap (claims house'.world))
    (hscanned : active proc' = true ->
      proc'.own.data.path = proc.own.data.path ∧
        (proc.own.data.stage ≠ Stage.starting ->
          proc'.own.data.stage ≠ Stage.starting)) :
    Tidy house' := by
  have hall : forall path, path ∈ house.world.dirs ->
      tally (claims house'.world) house'.procs path ≤
        tally (claims house.world) house.procs path := by
    intro path hpath
    have heq := hreplaces.claims_eq path
    have hle := hclaims path hpath
    lia
  have hopen : forall dir, dir ∈ house.world.dirs -> Opened house dir ->
      ¬ Unclaimed house' dir -> Opened house' dir := by
    rintro dir hdir ⟨other, hother, hactive, hpath, hother'⟩ hclaimed
    rcases List.getElem?_of_mem hother with ⟨k, hk⟩
    by_cases hne : k = who
    · rw [hne, hreplaces.here] at hk
      injection hk with hk
      rw [← hk] at hactive hpath hother'
      by_cases hactive' : active proc' = true
      · rcases hscanned hactive' with ⟨hsame, hstill⟩
        exact ⟨proc', hreplaces.mem_self, hactive', hsame.trans hpath,
          hstill hother'⟩
      · exfalso
        apply hclaimed
        have heq := hreplaces.claims_eq dir
        have hsingle := h.single dir hdir
        have hnone : tally (claims house'.world) born dir = 0 := by
          rw [← hpath]
          exact List.count_eq_zero.mpr hborn
        have hown : 0 < (claims house.world proc).count dir := by
          rw [← hpath]
          exact List.count_pos_iff.mpr (mem_claims_path hactive)
        rw [claims_inactive hactive', List.count_nil] at heq
        rw [unclaimed_iff]
        lia
    · exact ⟨other, hreplaces.mem_other hk hne, hactive, hpath, hother'⟩
  constructor
  case once =>
    intro path
    rcases hheld path with hle | hpath
    · have heq := hreplaces.held_eq path
      have honce := h.once path
      lia
    · exact Nat.le_trans (tally_held_le house' path)
        (Nat.le_trans (hall path hpath) (h.single path hpath))
  case single =>
    intro path hpath
    rw [hreplaces.dirs] at hpath
    exact Nat.le_trans (hall path hpath) (h.single path hpath)
  case deep =>
    intro dir hdir hclaimed hunscanned path hpath hbelow hne
    rw [hreplaces.dirs] at hdir hpath
    have hclaimed' : ¬ Unclaimed house dir := by
      intro hfree
      rw [unclaimed_iff] at hfree hclaimed
      have hle := hall dir hdir
      lia
    have hfree := h.deep dir hdir hclaimed'
      (fun hscan => hunscanned (hopen dir hdir hscan hclaimed)) path hpath
      hbelow hne
    rw [unclaimed_iff] at hfree ⊢
    have hle := hall path hpath
    lia

end Replaces

/-!
## The operations
-/

def plans (kernel : Kernel) (proc : Member) : List FileName :=
  (proc.own.data.found ++ proc.own.data.looking.toList) ++ pending kernel proc

theorem claims_eq {kernel : Kernel} {proc : Member} (h : active proc = true) :
    claims kernel proc =
      proc.own.data.path :: (plans kernel proc).map proc.own.data.below := by
  simp only [claims, held, wanted, if_pos h, plans, List.map_append,
    List.cons_append]

theorem Subperm.map_count_le {alpha beta : Type} [BEq beta] [LawfulBEq beta]
    {xs ys : List alpha} (h : xs.Subperm ys) (f : alpha -> beta) (b : beta) :
    (xs.map f).count b ≤ (ys.map f).count b := by
  rcases h with ⟨zs, hperm, hsub⟩
  rw [← (hperm.map f).count_eq b]
  exact (hsub.map f).count_le b

section Members

variable {kernel kernel' : Kernel} {proc proc' : Member}

theorem count_held_mono (hactive : active proc' = true -> active proc = true)
    (hpath : proc'.own.data.path = proc.own.data.path)
    (hnames : (proc'.own.data.found ++ proc'.own.data.looking.toList).Subperm
      (proc.own.data.found ++ proc.own.data.looking.toList))
    (path : List FileName) :
    (held proc').count path ≤ (held proc).count path := by
  by_cases h : active proc' = true
  · have hbelow : proc'.own.data.below = proc.own.data.below := by
      unfold Seat.below
      rw [hpath]
    rw [held, held, if_pos h, if_pos (hactive h), hpath, hbelow,
      List.count_cons, List.count_cons]
    exact Nat.add_le_add_right (Subperm.map_count_le hnames _ path) _
  · rw [held_inactive h]
    exact Nat.zero_le _

theorem count_claims_mono (hactive : active proc' = true -> active proc = true)
    (hpath : proc'.own.data.path = proc.own.data.path)
    (hnames : (plans kernel' proc').Subperm (plans kernel proc))
    (path : List FileName) :
    (claims kernel' proc').count path ≤ (claims kernel proc).count path := by
  by_cases h : active proc' = true
  · have hbelow : proc'.own.data.below = proc.own.data.below := by
      unfold Seat.below
      rw [hpath]
    rw [claims_eq h, claims_eq (hactive h), hpath, hbelow, List.count_cons,
      List.count_cons]
    exact Nat.add_le_add_right (Subperm.map_count_le hnames _ path) _
  · rw [claims_inactive h]
    exact Nat.zero_le _

theorem claims_congr (h : kernel'.queue proc.own.pid =
    kernel.queue proc.own.pid) : claims kernel' proc = claims kernel proc := by
  rw [claims, claims, wanted, wanted, pending, pending, h]

end Members

structure Kernel.SameFor (kernel kernel' : Kernel) (pid : Nat) : Prop where
  watched : kernel'.watched pid = kernel.watched pid
  queue : kernel'.queue pid = kernel.queue pid
  opened : kernel'.opened pid = kernel.opened pid
  arrived : kernel'.arrived pid = kernel.arrived pid

section Acts

variable {site : Bytes} {reply : Reply} {op : Call} {own : Own Seat}
  {kernel kernel' : Kernel} {answer : op.Answer} {after : Seat}

theorem act_kernel (hneeds : Needs site op own)
    (hact : act site reply op own kernel = some (answer, after, kernel')) :
    kernel'.dirs = kernel.dirs ∧
      (forall pid, pid ≠ own.pid -> kernel.SameFor kernel' pid) ∧
      (forall dir, kernel'.watched own.pid = some dir ->
        kernel.watched own.pid = some dir ∨ dir = own.data.path) ∧
      (kernel.arrived own.pid = [] -> kernel'.arrived own.pid = []) := by
  have hsame : kernel' = kernel -> kernel'.dirs = kernel.dirs ∧
      (forall pid, pid ≠ own.pid -> kernel.SameFor kernel' pid) ∧
      (forall dir, kernel'.watched own.pid = some dir ->
        kernel.watched own.pid = some dir ∨ dir = own.data.path) ∧
      (kernel.arrived own.pid = [] -> kernel'.arrived own.pid = []) := by
    intro heq
    rw [heq]
    exact ⟨rfl, fun _ _ => ⟨rfl, rfl, rfl, rfl⟩, fun _ hdir => Or.inl hdir, id⟩
  cases op with
  | inotifyAddWatch fd path mask =>
      simp only [act] at hact
      split at hact
      case isTrue _ =>
        cases hact
        exact hsame rfl
      case isFalse _ =>
        cases hact
        refine ⟨rfl, ?_, ?_, id⟩
        · intro pid hne
          exact ⟨Function.update_of_ne hne _ _, Function.update_of_ne hne _ _,
            rfl, rfl⟩
        · intro dir hdir
          change Function.update kernel.watched own.pid
            (kernel.dirAt site path) own.pid = some dir at hdir
          rw [Function.update_self] at hdir
          have hfound := List.find?_some hdir
          simp only [decide_eq_true_eq] at hfound
          exact Or.inr (join_injective (hfound.trans hneeds.left))
  | lstat path =>
      simp only [act] at hact
      split at hact
      case h_1 _ =>
        split at hact
        · cases hact
          exact hsame rfl
        · cases hact
      case h_2 _ =>
        split at hact
        · cases hact
        · cases hact
          exact hsame rfl
  | opendir path =>
      simp only [act] at hact
      split at hact
      · cases hact
        exact hsame rfl
      · split at hact
        · split at hact
          · cases hact
            refine ⟨rfl, ?_, fun _ hdir => Or.inl hdir, ?_⟩
            · intro pid hne
              exact ⟨rfl, rfl, Function.update_of_ne hne _ _,
                Function.update_of_ne hne _ _⟩
            · intro _
              exact Function.update_self _ _ _
          · cases hact
        · cases hact
          exact hsame rfl
  | read fd =>
      simp only [act] at hact
      split at hact
      · cases hact
        exact hsame rfl
      · split at hact
        · cases hact
          refine ⟨rfl, ?_, fun _ hdir => Or.inl hdir, id⟩
          intro pid hne
          exact ⟨rfl, Function.update_of_ne hne _ _, rfl, rfl⟩
        · cases hact
  | fork => cases hact
  | _ =>
      cases hact
      exact hsame rfl

theorem act_read {fd : Int} {answer : (Call.read fd).Answer}
    (hcalm : CalmCall site reply (Call.read fd) own kernel)
    (hact : act site reply (Call.read fd) own kernel =
      some (answer, after, kernel')) :
    after.ending = true ∨
      after.found = own.data.found ∧ after.looking = none ∧
        after.handling ++ (kernel'.queue own.pid).filterMap broughtBy =
          (kernel.queue own.pid).filterMap broughtBy := by
  simp only [act] at hact
  split at hact
  case isTrue _ =>
    cases hact
    exact Or.inl rfl
  case isFalse hcount =>
    split at hact <;> cases hact
    have hnames := hcalm (Int.not_le.mp hcount)
    refine Or.inr ⟨rfl, rfl, ?_⟩
    simp only [Function.update_self]
    rw [hnames, filterMap_ofBytes, Kernel.delivered, ← List.filterMap_append,
      List.take_append_drop]

end Acts

/-!
## A step of a process

A step that gives its process nothing new to do keeps the count.  Opening a
directory is the one that gives it new paths, and below a directory that is still
to be opened nobody has anything to do.
-/

section Turn

variable {site : Bytes} {house : House} {kernel' : Kernel} {who : Nat}
  {reply : Reply} {op : Call} {own : Own Seat} {answer : op.Answer}
  {after : Seat} {next : op.Answer -> Code Unit}

def about (own : Own Seat) (op : Call) (next : op.Answer -> Code Unit) :
    Member :=
  ⟨own, call (Sum.inl op) next⟩

def aboutEntry (own : Own Seat) (source : List Dirent)
    (next : Option Dirent × List Dirent -> Code Unit) : Member :=
  ⟨own, call (Sum.inr (Scan.readdir source)) next⟩

def done (own : Own Seat) (after : Seat) (code : Code Unit) : Member :=
  ⟨{ own with data := after }, code⟩

theorem active_about (h : own.data.ending = false) :
    active (about own op next) = true :=
  active_iff.mpr ⟨rfl, h⟩

theorem ending_done {code : Code Unit}
    (h : active (done own after code) = true) : after.ending = false :=
  (active_iff.mp h).right

theorem plans_subperm {kernel : Kernel} {code : Code Unit}
    (hread : reading (about own op next) = false)
    (hfound : after.found = own.data.found)
    (hnames : after.names.Subperm own.data.names)
    (hqueue : (kernel'.queue own.pid).Sublist (kernel.queue own.pid)) :
    (plans kernel' (done own after code)).Subperm
      (plans kernel (about own op next)) := by
  have hpending : (pending kernel' (done own after code)).Subperm
      (after.handling ++ (kernel.queue own.pid).filterMap broughtBy) := by
    apply List.Subperm.append
    · split
      · exact List.nil_subperm
      · exact List.Subperm.refl _
    · exact (hqueue.filterMap broughtBy).subperm
  have hbefore : pending kernel (about own op next) =
      own.data.handling ++ (kernel.queue own.pid).filterMap broughtBy := by
    rw [pending, hread]
    rfl
  have hall := (hnames.append (List.Subperm.refl
    ((kernel.queue own.pid).filterMap broughtBy)))
  have hmore := (List.Subperm.refl own.data.found).append hall
  rw [plans, plans, hbefore]
  change ((after.found ++ after.looking.toList) ++ _).Subperm
    ((own.data.found ++ own.data.looking.toList) ++ _)
  rw [hfound, List.append_assoc, List.append_assoc]
  refine List.Subperm.trans ?_ (List.Subperm.trans hmore ?_)
  · apply (List.Subperm.refl own.data.found).append
    rw [Seat.names, List.append_assoc]
    exact (List.Subperm.refl _).append hpending
  · apply (List.Subperm.refl own.data.found).append
    rw [Seat.names, List.append_assoc]

theorem replaces_act (hnumbered : house.Numbered)
    (hproc : house.procs[who]? = some (about own op next))
    (hneeds : Needs site op own)
    (hact : act site reply op own house.world = some (answer, after, kernel')) :
    Replaces house
      { procs := house.procs.set who (done own after (next answer))
        world := kernel' }
      who (about own op next) (done own after (next answer)) [] := by
  rcases act_kernel hneeds hact with ⟨hdirs, hothers, -⟩
  constructor
  case here => exact hproc
  case procs => exact (List.append_nil _).symm
  case dirs => exact hdirs
  case others =>
    intro k other hne hk
    apply claims_congr
    apply Kernel.SameFor.queue
    exact hothers other.own.pid (hnumbered.pid_ne hk hproc hne)

theorem Tidy.act_le (h : Tidy house) (hnumbered : house.Numbered)
    (hproc : house.procs[who]? = some (about own op next))
    (hneeds : Needs site op own)
    (hact : act site reply op own house.world = some (answer, after, kernel'))
    (hheld : forall path,
      (held (done own after (next answer))).count path ≤
          (held (about own op next)).count path ∨ path ∈ house.world.dirs)
    (hclaims : forall path,
      (claims kernel' (done own after (next answer))).count path ≤
        (claims house.world (about own op next)).count path) :
    Tidy
      { procs := house.procs.set who (done own after (next answer))
        world := kernel' } := by
  rcases act_seat hact with ⟨hpath, _, hscanned⟩
  exact h.replace (replaces_act hnumbered hproc hneeds hact) hheld
    (fun path _ => hclaims path) (by simp) (fun _ => ⟨hpath, hscanned⟩)

theorem Tidy.act_ended (h : Tidy house) (hnumbered : house.Numbered)
    (hproc : house.procs[who]? = some (about own op next))
    (hneeds : Needs site op own)
    (hact : act site reply op own house.world = some (answer, after, kernel'))
    (hdone : active (done own after (next answer)) ≠ true) :
    Tidy
      { procs := house.procs.set who (done own after (next answer))
        world := kernel' } := by
  apply h.act_le hnumbered hproc hneeds hact
  · intro path
    rw [held_inactive hdone]
    exact Or.inl (Nat.zero_le _)
  · intro path
    rw [claims_inactive hdone]
    exact Nat.zero_le _

theorem Tidy.act_same (h : Tidy house) (hnumbered : house.Numbered)
    (hproc : house.procs[who]? = some (about own op next))
    (hneeds : Needs site op own)
    (hact : act site reply op own house.world = some (answer, after, kernel'))
    (hread : reading (about own op next) = false)
    (hfound : after.found = own.data.found)
    (hlooking : after.looking = own.data.looking)
    (hhandling : after.handling = own.data.handling)
    (hqueue : (kernel'.queue own.pid).Sublist (house.world.queue own.pid)) :
    Tidy
      { procs := house.procs.set who (done own after (next answer))
        world := kernel' } := by
  rcases act_seat hact with ⟨hpath, hending, _⟩
  have hactive : active (done own after (next answer)) = true ->
      active (about own op next) = true :=
    fun hdone => active_about (hending (ending_done hdone))
  apply h.act_le hnumbered hproc hneeds hact
  · intro path
    apply Or.inl
    apply count_held_mono hactive hpath
    change (after.found ++ after.looking.toList).Subperm _
    rw [hfound, hlooking]
    exact List.Subperm.refl _
  · apply count_claims_mono hactive hpath
    apply plans_subperm hread hfound _ hqueue
    rw [Seat.names, Seat.names, hlooking, hhandling]

theorem Tidy.look {path : Bytes} {after : Seat}
    {next : (Call.lstat path).Answer -> Code Unit}
    {answer : (Call.lstat path).Answer}
    (h : Tidy house) (hnumbered : house.Numbered)
    (hproc : house.procs[who]? = some (about own (Call.lstat path) next))
    (hact : act site reply (Call.lstat path) own house.world =
      some (answer, after, kernel')) :
    Tidy
      { procs := house.procs.set who (done own after (next answer))
        world := kernel' } := by
  have hread : reading (about own (Call.lstat path) next) = false := rfl
  have hkernel : kernel' = house.world := by
    simp only [act] at hact
    split at hact
    · split at hact <;> cases hact
      rfl
    · split at hact <;> cases hact
      rfl
  have hafter : exists directory result,
      after = own.data.looked site path directory result ∧
        (directory = true -> (own.data.named site path).isSome = true ->
          exists dir, house.world.dirAt site path = some dir) := by
    simp only [act] at hact
    split at hact
    case h_1 dir hdir =>
      split at hact <;> cases hact
      exact ⟨true, 0, rfl, fun _ _ => ⟨dir, hdir⟩⟩
    case h_2 _ =>
      split at hact <;> cases hact
      exact ⟨false, reply.result, rfl, fun hcontra => by cases hcontra⟩
  rcases hafter with ⟨directory, result, hafter, hdir⟩
  rcases act_seat hact with ⟨hpath, hending, _⟩
  have hactive : active (done own after (next answer)) = true ->
      active (about own (Call.lstat path) next) = true :=
    fun hdone => active_about (hending (ending_done hdone))
  have hqueue : (kernel'.queue own.pid).Sublist
      (house.world.queue own.pid) := by
    rw [hkernel]
  unfold Seat.looked at hafter
  split at hafter
  case h_2 _ =>
    have hsame : after.found = own.data.found ∧
        after.looking = own.data.looking ∧
        after.handling = own.data.handling := by
      rw [hafter]
      split <;> exact ⟨rfl, rfl, rfl⟩
    exact h.act_same hnumbered hproc trivial hact hread hsame.left
      hsame.right.left hsame.right.right hqueue
  case h_1 name hnamed =>
    have hmem : name ∈ own.data.names := List.mem_of_find?_eq_some hnamed
    have hleads := List.find?_some hnamed
    simp only [decide_eq_true_eq] at hleads
    split at hafter
    case isFalse _ =>
      have hfound : after.found = own.data.found := by
        rw [hafter]
      apply h.act_le hnumbered hproc trivial hact
      · intro path'
        apply Or.inl
        apply count_held_mono hactive hpath
        change (after.found ++ after.looking.toList).Subperm _
        rw [hafter]
        exact (List.Subperm.refl _).append List.nil_subperm
      · apply count_claims_mono hactive hpath
        apply plans_subperm hread hfound _ hqueue
        rw [hafter]
        exact List.Subperm.refl _
    case isTrue htrue =>
      have hfound : after.found = own.data.found := by
        rw [hafter]
      have hin : own.data.below name ∈ house.world.dirs := by
        rcases hdir htrue (by rw [hnamed]; rfl) with ⟨dir, hdir⟩
        have heq := List.find?_some hdir
        simp only [decide_eq_true_eq] at heq
        rw [Seat.below, ← join_injective (heq.trans hleads.symm)]
        exact List.mem_of_find?_eq_some hdir
      apply h.act_le hnumbered hproc trivial hact
      · intro path'
        by_cases heq : path' = own.data.below name
        · rw [heq]
          exact Or.inr hin
        · apply Or.inl
          by_cases hdone : active (done own after (next answer)) = true
          · have hbelow : after.below = own.data.below := by
              unfold Seat.below
              rw [hpath]
            rw [held, held, if_pos hdone, if_pos (hactive hdone)]
            change List.count path' (after.path ::
                (after.found ++ after.looking.toList).map after.below) ≤
              List.count path' (own.data.path ::
                (own.data.found ++ own.data.looking.toList).map own.data.below)
            rw [hbelow, hpath, hfound, hafter, Option.toList_some,
              List.map_append, List.map_append, List.count_cons,
              List.count_cons, List.count_append, List.count_append]
            have hzero : List.count path' [own.data.below name] = 0 :=
              List.count_eq_zero.mpr (by simpa using heq)
            rw [List.map_singleton, hzero]
            lia
          · rw [held_inactive hdone]
            exact Nat.zero_le _
      · apply count_claims_mono hactive hpath
        apply plans_subperm hread hfound _ hqueue
        rw [hafter]
        exact (List.perm_cons_erase hmem).symm.subperm

theorem Tidy.take {fd : Int} {after : Seat}
    {next : (Call.read fd).Answer -> Code Unit}
    {answer : (Call.read fd).Answer}
    (h : Tidy house) (hnumbered : house.Numbered)
    (hproc : house.procs[who]? = some (about own (Call.read fd) next))
    (hneeds : Needs site (Call.read fd) own)
    (hcalm : CalmCall site reply (Call.read fd) own house.world)
    (hact : act site reply (Call.read fd) own house.world =
      some (answer, after, kernel')) :
    Tidy
      { procs := house.procs.set who (done own after (next answer))
        world := kernel' } := by
  rcases act_seat hact with ⟨hpath, hending, _⟩
  have hactive : active (done own after (next answer)) = true ->
      active (about own (Call.read fd) next) = true :=
    fun hdone => active_about (hending (ending_done hdone))
  rcases act_read hcalm hact with hend | ⟨hfound, hlooking, hnames⟩
  · have hdone : active (done own after (next answer)) ≠ true := by
      intro hdone
      rw [ending_done hdone] at hend
      cases hend
    exact h.act_ended hnumbered hproc hneeds hact hdone
  · have hheld : (after.found ++ after.looking.toList).Subperm
        (own.data.found ++ own.data.looking.toList) := by
      rw [hfound, hlooking]
      exact (List.Subperm.refl _).append List.nil_subperm
    apply h.act_le hnumbered hproc hneeds hact
    · intro path
      exact Or.inl (count_held_mono hactive hpath hheld path)
    · apply count_claims_mono hactive hpath
      apply hheld.append
      change List.Subperm _
        ([] ++ (house.world.queue own.pid).filterMap broughtBy)
      rw [List.nil_append, ← hnames]
      apply List.Subperm.append
      · split
        · exact List.nil_subperm
        · exact List.Subperm.refl _
      · exact List.Subperm.refl _

theorem childrenOf_sublist (dirs : List (List FileName))
    (path : List FileName) :
    ((childrenOf dirs path).map (fun name => path ++ [name])).Sublist dirs := by
  induction dirs with
  | nil => exact List.Sublist.refl _
  | cons dir dirs ih =>
      unfold childrenOf at ih ⊢
      rw [List.filterMap_cons]
      split
      case h_1 _ => exact ih.cons dir
      case h_2 name hname =>
        split at hname
        case h_1 _ => cases hname
        case h_2 last hlast =>
          split at hname
          case isFalse _ => cases hname
          case isTrue heq =>
            injection hname with hname
            rw [List.map_cons, ← hname, ← heq,
              List.dropLast_append_getLast? last hlast, heq]
            exact ih.cons_cons dir

theorem childrenOf_inside {dirs : List (List FileName)} {path : List FileName}
    (hnodup : dirs.Nodup) :
    ((childrenOf dirs path).map (fun name => path ++ [name])).Nodup ∧
      forall dir,
        dir ∈ (childrenOf dirs path).map (fun name => path ++ [name]) ->
        dir ∈ dirs ∧ path <+: dir ∧ dir.length = path.length + 1 := by
  constructor
  · exact hnodup.sublist (childrenOf_sublist dirs path)
  · intro dir hdir
    refine ⟨(childrenOf_sublist dirs path).subset hdir, ?_⟩
    rcases List.mem_map.mp hdir with ⟨name, _, heq⟩
    rw [← heq]
    exact ⟨List.prefix_append path [name], by simp⟩

structure Opens (house house' : House) (dir : List FileName)
    (children : List (List FileName)) : Prop where
  dirs : house'.world.dirs = house.world.dirs
  here : dir ∈ house.world.dirs
  claimed : ¬ Unclaimed house dir
  shut : ¬ Opened house dir
  opened : Opened house' dir
  others : forall other, other ≠ dir -> Opened house other ->
    Opened house' other
  distinct : children.Nodup
  inside : forall path, path ∈ children ->
    path ∈ house.world.dirs ∧ dir <+: path ∧ path.length = dir.length + 1
  held : forall path, tally held house'.procs path ≤
    tally held house.procs path + children.count path
  claims : forall path, tally (claims house'.world) house'.procs path ≤
    tally (claims house.world) house.procs path + children.count path

section Opens

variable {house' : House} {dir : List FileName}
  {children : List (List FileName)}

theorem Opens.free (hopens : Opens house house' dir children) (h : Tidy house)
    {path : List FileName} (hpath : path ∈ house.world.dirs)
    (hbelow : dir <+: path) (hne : path ≠ dir) :
    tally (Watchers.claims house.world) house.procs path = 0 :=
  unclaimed_iff.mp
    (h.deep dir hopens.here hopens.claimed hopens.shut path hpath hbelow hne)

theorem Opens.count_le (hopens : Opens house house' dir children)
    (path : List FileName) : children.count path ≤ 1 :=
  List.nodup_iff_count_le_one.mp hopens.distinct path

theorem Opens.child_ne (hopens : Opens house house' dir children)
    {path : List FileName} (hpath : path ∈ children) : path ≠ dir := by
  intro heq
  have hlength := (hopens.inside path hpath).right.right
  rw [heq] at hlength
  lia

theorem Opens.child_le (hopens : Opens house house' dir children)
    (h : Tidy house) {path : List FileName} (hpath : path ∈ children) :
    tally (Watchers.claims house'.world) house'.procs path ≤ 1 := by
  rcases hopens.inside path hpath with ⟨hmem, hbelow, _⟩
  have hzero := hopens.free h hmem hbelow (hopens.child_ne hpath)
  have hle := hopens.claims path
  have hone := hopens.count_le path
  lia

theorem Opens.deep_child (hopens : Opens house house' dir children)
    (h : Tidy house) {child path : List FileName} (hchild : child ∈ children)
    (hpath : path ∈ house.world.dirs) (hbelow : child <+: path)
    (hne : path ≠ child) : Unclaimed house' path := by
  rcases hopens.inside child hchild with ⟨_, habove, hlength⟩
  have hlonger := hbelow.length_le
  have hzero := hopens.free h hpath (habove.trans hbelow) (by
    intro heq
    rw [heq] at hlonger
    lia)
  have hnone : children.count path = 0 := by
    apply List.count_eq_zero.mpr
    intro hmem
    have hsame := (hopens.inside path hmem).right.right
    exact hne (hbelow.eq_of_length (hlength.trans hsame.symm)).symm
  have hle := hopens.claims path
  rw [unclaimed_iff]
  lia

theorem Opens.deep_other (hopens : Opens house house' dir children)
    (h : Tidy house) {other path : List FileName}
    (hother : other ∈ house.world.dirs) (hclaimed : ¬ Unclaimed house other)
    (hshut : ¬ Opened house other) (hdiffer : other ≠ dir)
    (hpath : path ∈ house.world.dirs) (hbelow : other <+: path)
    (hne : path ≠ other) : Unclaimed house' path := by
  have hdeep := h.deep other hother hclaimed hshut
  have hnone : children.count path = 0 := by
    apply List.count_eq_zero.mpr
    intro hmem
    rcases hopens.inside path hmem with ⟨_, habove, hlength⟩
    have hlonger := hbelow.length_le
    have hshort : other.length ≤ dir.length := by
      have hproper : other.length ≠ path.length :=
        fun heq => hne (hbelow.eq_of_length heq).symm
      lia
    exact hopens.claimed (hdeep dir hopens.here
      (List.prefix_of_prefix_length_le hbelow habove hshort) hdiffer.symm)
  have hzero := hdeep path hpath hbelow hne
  have hle := hopens.claims path
  rw [unclaimed_iff] at hzero ⊢
  lia

theorem Tidy.opens (h : Tidy house)
    (hopens : Opens house house' dir children) : Tidy house' := by
  have hold : forall path, path ∉ children -> children.count path = 0 :=
    fun path => List.count_eq_zero.mpr
  constructor
  case once =>
    intro path
    by_cases hpath : path ∈ children
    · exact Nat.le_trans (tally_held_le house' path) (hopens.child_le h hpath)
    · have hle := hopens.held path
      have honce := h.once path
      rw [hold path hpath] at hle
      lia
  case single =>
    intro path hmem
    by_cases hpath : path ∈ children
    · exact hopens.child_le h hpath
    · have hle := hopens.claims path
      rw [hopens.dirs] at hmem
      have hsingle := h.single path hmem
      rw [hold path hpath] at hle
      lia
  case deep =>
    intro other hmem hclaimed hshut path hpath hbelow hne
    rw [hopens.dirs] at hmem hpath
    have hdiffer : other ≠ dir := by
      intro heq
      exact hshut (heq ▸ hopens.opened)
    by_cases hother : other ∈ children
    · exact hopens.deep_child h hother hpath hbelow hne
    · apply hopens.deep_other h hmem _ _ hdiffer hpath hbelow hne
      · intro hzero
        have hle := hopens.claims other
        rw [unclaimed_iff] at hclaimed hzero
        rw [hold other hother] at hle
        lia
      · exact fun hopen => hshut (hopens.others other hdiffer hopen)

end Opens

def scanOf (seat : Seat) (found : List FileName) : Seat :=
  { seat with
    stage := Stage.scanning
    found := found }

section OpenOwn

variable {path : Bytes} {found : List FileName} {code : Code Unit}
  {next : (Call.opendir path).Answer -> Code Unit}

theorem count_held_scan (hactive : active (about own (Call.opendir path) next) =
      true) (dir : List FileName) :
    (held (done own (scanOf own.data found) code)).count dir ≤
      (held (about own (Call.opendir path) next)).count dir +
        (found.map (fun name => own.data.path ++ [name])).count dir := by
  by_cases hdone : active (done own (scanOf own.data found) code) = true
  · rw [held, held, if_pos hdone, if_pos hactive, List.map_append,
      List.map_append, List.count_cons, List.count_cons, List.count_append,
      List.count_append]
    change List.count dir
          (found.map (fun name => own.data.path ++ [name])) +
        List.count dir (own.data.looking.toList.map own.data.below) +
        (if own.data.path == dir then 1 else 0) ≤
      List.count dir (own.data.found.map own.data.below) +
          List.count dir (own.data.looking.toList.map own.data.below) +
          (if own.data.path == dir then 1 else 0) +
        List.count dir (found.map (fun name => own.data.path ++ [name]))
    lia
  · rw [held_inactive hdone]
    exact Nat.zero_le _

theorem count_wanted_scan {kernel : Kernel}
    (hactive : active (about own (Call.opendir path) next) = true)
    (hqueue : kernel'.queue own.pid = kernel.queue own.pid)
    (dir : List FileName) :
    (wanted kernel' (done own (scanOf own.data found) code)).count dir ≤
      (wanted kernel (about own (Call.opendir path) next)).count dir := by
  rw [wanted, wanted, if_pos hactive]
  split
  case isTrue _ =>
    apply List.Sublist.count_le
    apply List.Sublist.map
    unfold pending
    change List.Sublist (_ ++ (kernel'.queue own.pid).filterMap broughtBy)
      (_ ++ (kernel.queue own.pid).filterMap broughtBy)
    rw [hqueue]
    apply List.Sublist.append_right
    split
    · exact List.nil_sublist _
    · exact List.Sublist.refl _
  case isFalse _ => exact Nat.zero_le _

theorem Tidy.scan (h : Tidy house) (hnodup : house.world.dirs.Nodup)
    (hproc : house.procs[who]? = some (about own (Call.opendir path) next))
    (hreplaces : Replaces house
      { procs :=
          house.procs.set who
            (done own
              (scanOf own.data (childrenOf house.world.dirs own.data.path))
              code)
        world := kernel' }
      who (about own (Call.opendir path) next)
      (done own (scanOf own.data (childrenOf house.world.dirs own.data.path))
        code) [])
    (hqueue : kernel'.queue own.pid = house.world.queue own.pid)
    (hfresh : own.data.stage = Stage.starting)
    (hin : own.data.path ∈ house.world.dirs)
    (hdone : active (done own
      (scanOf own.data (childrenOf house.world.dirs own.data.path)) code) =
        true) :
    Tidy
      { procs :=
          house.procs.set who
            (done own
              (scanOf own.data (childrenOf house.world.dirs own.data.path))
              code)
        world := kernel' } := by
  have hactive : active (about own (Call.opendir path) next) = true :=
    active_about (ending_done hdone)
  rcases @childrenOf_inside house.world.dirs own.data.path hnodup with
    ⟨hdistinct, hinside⟩
  apply @Tidy.opens house _ own.data.path
    ((childrenOf house.world.dirs own.data.path).map
      (fun name => own.data.path ++ [name])) h
  constructor
  case dirs => exact hreplaces.dirs
  case here => exact hin
  case distinct => exact hdistinct
  case inside => exact hinside
  case claimed =>
    intro hfree
    apply hfree
    exact List.mem_flatMap.mpr ⟨_, List.mem_of_getElem? hproc,
      mem_claims_path hactive⟩
  case shut =>
    rintro ⟨other, hother, hactive', hpath, hstage⟩
    rcases List.getElem?_of_mem hother with ⟨k, hk⟩
    have hwho := h.alone hproc hk hactive hactive' hpath.symm
    rw [← hwho, hproc] at hk
    injection hk with hk
    rw [← hk] at hstage
    exact hstage hfresh
  case opened =>
    exact ⟨_, hreplaces.mem_self, hdone, rfl, Stage.noConfusion⟩
  case others =>
    rintro dir hne ⟨other, hother, hactive', hpath, hstage⟩
    rcases List.getElem?_of_mem hother with ⟨k, hk⟩
    by_cases hwho : k = who
    · rw [hwho, hproc] at hk
      injection hk with hk
      rw [← hk] at hpath
      exact absurd hpath.symm hne
    · exact ⟨other, hreplaces.mem_other hk hwho, hactive', hpath, hstage⟩
  case held =>
    intro dir
    have heq := hreplaces.held_eq dir
    have hle := @count_held_scan own path
      (childrenOf house.world.dirs own.data.path) code next hactive dir
    rw [tally_nil] at heq
    lia
  case claims =>
    intro dir
    have heq := hreplaces.claims_eq dir
    have hheld := @count_held_scan own path
      (childrenOf house.world.dirs own.data.path) code next hactive dir
    have hwanted := @count_wanted_scan kernel' own path
      (childrenOf house.world.dirs own.data.path) code next house.world hactive
      hqueue dir
    rw [count_claims, count_claims, tally_nil] at heq
    lia

end OpenOwn

/-!
## An entry, and a child
-/

section Entry

variable {source : List Dirent} {given : Option Dirent × List Dirent}
  {next : Option Dirent × List Dirent -> Code Unit}

theorem readEntry_seat {kernel : Kernel}
    (hread : readEntry reply source own kernel = some (given, after, kernel')) :
    after.path = own.data.path ∧ after.ending = own.data.ending ∧
      after.handling = own.data.handling ∧
      (own.data.stage ≠ Stage.starting -> after.stage ≠ Stage.starting) ∧
      (kernel.arrived own.pid = [] ->
        (after.found ++ after.looking.toList).Subperm
          (own.data.found ++ own.data.looking.toList)) := by
  unfold readEntry at hread
  split at hread
  case isTrue _ =>
    cases hread
    exact ⟨rfl, rfl, rfl, id, fun _ => List.Subperm.refl _⟩
  case isFalse _ =>
    split at hread
    case h_1 _ =>
      cases hread
      refine ⟨rfl, rfl, rfl, fun _ => Stage.noConfusion, fun _ => ?_⟩
      exact (List.sublist_append_right _ _).subperm
    case h_2 file _ =>
      split at hread
      case isFalse _ =>
        cases hread
        exact ⟨rfl, rfl, rfl, id, fun _ => List.Subperm.refl _⟩
      case isTrue _ =>
        split at hread
        case h_1 _ => cases hread
        case h_2 name _ =>
          split at hread
          case isTrue hfound =>
            cases hread
            refine ⟨rfl, rfl, rfl, id, fun _ => ?_⟩
            have hperm := (List.perm_cons_erase hfound).symm
            apply List.Subperm.trans
              (List.perm_append_comm.trans hperm).subperm
            exact (List.sublist_append_left _ _).subperm
          case isFalse _ =>
            split at hread
            case isFalse _ => cases hread
            case isTrue harrived =>
              cases hread
              refine ⟨rfl, rfl, rfl, id, fun hnone => ?_⟩
              rw [hnone] at harrived
              cases harrived

theorem readEntry_kernel {kernel : Kernel}
    (hread : readEntry reply source own kernel = some (given, after, kernel')) :
    kernel'.dirs = kernel.dirs ∧
      (forall pid, pid ≠ own.pid -> kernel.SameFor kernel' pid) ∧
      kernel'.watched = kernel.watched ∧ kernel'.queue = kernel.queue ∧
      (kernel.arrived own.pid = [] -> kernel'.arrived own.pid = []) := by
  have hsame : kernel' = kernel -> kernel'.dirs = kernel.dirs ∧
      (forall pid, pid ≠ own.pid -> kernel.SameFor kernel' pid) ∧
      kernel'.watched = kernel.watched ∧ kernel'.queue = kernel.queue ∧
      (kernel.arrived own.pid = [] -> kernel'.arrived own.pid = []) := by
    intro heq
    rw [heq]
    exact ⟨rfl, fun _ _ => ⟨rfl, rfl, rfl, rfl⟩, rfl, rfl, id⟩
  unfold readEntry at hread
  split at hread
  case isTrue _ =>
    cases hread
    exact hsame rfl
  case isFalse _ =>
    split at hread
    case h_1 _ =>
      cases hread
      refine ⟨rfl, ?_, rfl, rfl, id⟩
      intro pid hne
      exact ⟨rfl, rfl, Function.update_of_ne hne _ _, rfl⟩
    case h_2 file _ =>
      split at hread
      case isFalse _ =>
        cases hread
        exact hsame rfl
      case isTrue _ =>
        split at hread
        case h_1 _ => cases hread
        case h_2 name _ =>
          split at hread
          case isTrue _ =>
            cases hread
            exact hsame rfl
          case isFalse _ =>
            split at hread
            case isFalse _ => cases hread
            case isTrue harrived =>
              cases hread
              refine ⟨rfl, ?_, rfl, rfl, ?_⟩
              · intro pid hne
                exact ⟨rfl, rfl, rfl, Function.update_of_ne hne _ _⟩
              · intro hnone
                rw [hnone] at harrived
                cases harrived

theorem Tidy.entry (h : Tidy house)
    (hproc : house.procs[who]? = some (aboutEntry own source next))
    (harrived : active (aboutEntry own source next) = true ->
      house.world.arrived own.pid = [])
    (hread : readEntry reply source own house.world =
      some (given, after, kernel')) :
    Tidy
      { procs := house.procs.set who (done own after (next given))
        world := kernel' } := by
  rcases readEntry_seat hread with ⟨hpath, hending, hhandling, hstage, hnames⟩
  rcases readEntry_kernel hread with ⟨hdirs, hothers, -, hqueue, -⟩
  have hactive : active (done own after (next given)) = true ->
      active (aboutEntry own source next) = true :=
    fun hdone => active_iff.mpr ⟨rfl, hending ▸ ending_done hdone⟩
  have hpending : (pending kernel' (done own after (next given))).Sublist
      (pending house.world (aboutEntry own source next)) := by
    unfold pending
    change List.Sublist
      ((if _ then [] else after.handling) ++
        (kernel'.queue own.pid).filterMap broughtBy)
      (own.data.handling ++ (house.world.queue own.pid).filterMap broughtBy)
    rw [hqueue, hhandling]
    apply List.Sublist.append_right
    split
    · exact List.nil_sublist _
    · exact List.Sublist.refl _
  have hreplaces : Replaces house
      { procs := house.procs.set who (done own after (next given))
        world := kernel' }
      who (aboutEntry own source next) (done own after (next given)) [] := by
    constructor
    case here => exact hproc
    case procs => exact (List.append_nil _).symm
    case dirs => exact hdirs
    case others =>
      intro k other hne hk
      exact claims_congr (congrFun hqueue other.own.pid)
  apply h.replace hreplaces
  · intro path
    apply Or.inl
    by_cases hdone : active (done own after (next given)) = true
    · exact count_held_mono hactive hpath (hnames (harrived (hactive hdone))) path
    · rw [held_inactive hdone]
      exact Nat.zero_le _
  · intro path _
    by_cases hdone : active (done own after (next given)) = true
    · apply count_claims_mono hactive hpath
      exact (hnames (harrived (hactive hdone))).append hpending.subperm
    · rw [claims_inactive hdone]
      exact Nat.zero_le _
  · exact List.not_mem_nil
  · exact fun _ => ⟨hpath, hstage⟩

end Entry

theorem claims_child {kernel : Kernel} {pid : Nat} {name : FileName}
    {code : Code Unit} (hnext : own.data.next = some name)
    (hqueue : kernel.queue pid = []) (path : List FileName) :
    (claims kernel ⟨(machine site).asChild own pid, code⟩).count path ≤
      [own.data.below name].count path := by
  by_cases hactive :
      active (⟨(machine site).asChild own pid, code⟩ : Member) = true
  · rw [claims_eq hactive]
    have hplans :
        plans kernel ⟨(machine site).asChild own pid, code⟩ = [] := by
      change ([] ++ []) ++ ((if _ then [] else []) ++
        (kernel.queue pid).filterMap broughtBy) = []
      rw [hqueue]
      split <;> rfl
    have hpath : ((machine site).asChild own pid).data.path =
        own.data.below name := by
      change own.data.path ++ own.data.next.toList = _
      rw [hnext]
      rfl
    rw [hplans, hpath]
    exact Nat.le_refl _
  · rw [claims_inactive hactive]
    exact Nat.zero_le _

section Birth

variable {pid : Nat} {name : FileName} {code : Code Unit}
  {next : Call.fork.Answer -> Code Unit}

theorem birth_inactive {code' : Code Unit}
    (h : active (about own Call.fork next) ≠ true) :
    active (⟨(machine site).asParent own pid, code⟩ : Member) ≠ true ∧
      active (⟨(machine site).asChild own pid, code'⟩ : Member) ≠ true := by
  have hending : own.data.ending ≠ false := fun hgoes => h (active_about hgoes)
  constructor
  · exact fun hactive => hending (active_iff.mp hactive).right
  · exact fun hactive => hending (active_iff.mp hactive).right

theorem count_held_parent (hlooking : own.data.looking = some name)
    (hactive : active (about own Call.fork next) = true)
    (path : List FileName) :
    (held ⟨(machine site).asParent own pid, code⟩).count path +
        [own.data.below name].count path ≤
      (held (about own Call.fork next)).count path := by
  have hbefore : held (about own Call.fork next) =
      (own.data.path :: own.data.found.map own.data.below) ++
        [own.data.below name] := by
    rw [held, if_pos hactive]
    change own.data.path ::
      (own.data.found ++ own.data.looking.toList).map own.data.below = _
    rw [hlooking, Option.toList_some, List.map_append, List.map_singleton,
      List.cons_append]
  have hafter : (held ⟨(machine site).asParent own pid, code⟩).count path ≤
      (own.data.path :: own.data.found.map own.data.below).count path := by
    rw [held]
    split
    case isTrue _ =>
      change List.count path (own.data.path ::
        (own.data.found ++ []).map own.data.below) ≤ _
      rw [List.append_nil]
    case isFalse _ => exact Nat.zero_le _
  rw [hbefore, List.count_append]
  exact Nat.add_le_add_right hafter _

theorem count_wanted_parent {kernel : Kernel}
    (hactive : active (about own Call.fork next) = true)
    (path : List FileName) :
    (wanted kernel ⟨(machine site).asParent own pid, code⟩).count path ≤
      (wanted kernel (about own Call.fork next)).count path := by
  rw [wanted, wanted, if_pos hactive]
  split
  case isTrue _ =>
    apply List.Sublist.count_le
    apply List.Sublist.map
    apply List.Sublist.append_right
    split
    · exact List.nil_sublist _
    · exact List.Sublist.refl _
  case isFalse _ => exact Nat.zero_le _

theorem Tidy.birth {answer : Nat -> Call.fork.Answer} (h : Tidy house)
    (hproc : house.procs[who]? = some (about own Call.fork next))
    (hnext : own.data.next = some name)
    (hqueue : house.world.queue pid = []) :
    Tidy
      { house with
        procs :=
          house.procs.set who
              ⟨(machine site).asParent own pid, next (answer pid)⟩ ++
            [⟨(machine site).asChild own pid, next (answer 0)⟩] } := by
  have hreplaces : Replaces house
      { house with
        procs :=
          house.procs.set who
              ⟨(machine site).asParent own pid, next (answer pid)⟩ ++
            [⟨(machine site).asChild own pid, next (answer 0)⟩] }
      who (about own Call.fork next)
      ⟨(machine site).asParent own pid, next (answer pid)⟩
      [⟨(machine site).asChild own pid, next (answer 0)⟩] :=
    ⟨hproc, rfl, rfl, fun _ _ _ _ => rfl⟩
  have hchild := @claims_child site own house.world pid name
    (next (answer 0)) hnext hqueue
  by_cases hactive : active (about own Call.fork next) = true
  · apply h.replace hreplaces
    · intro path
      apply Or.inl
      have hparent := @count_held_parent site own pid name (next (answer pid))
        next hnext hactive path
      have hborn := Nat.le_trans (@count_held_le house.world _ path)
        (hchild path)
      rw [tally_cons, tally_nil]
      lia
    · intro path _
      have hheld := @count_held_parent site own pid name (next (answer pid))
        next hnext hactive path
      have hwanted := @count_wanted_parent site own pid (next (answer pid))
        next house.world hactive path
      have hborn := hchild path
      rw [tally_cons, tally_nil, count_claims, count_claims (about _ _ _)]
      lia
    · rw [List.flatMap_cons, List.flatMap_nil, List.append_nil]
      apply List.count_eq_zero.mp
      have hnone : [own.data.below name].count own.data.path = 0 :=
        List.count_eq_zero.mpr (by simp [Seat.below])
      exact Nat.le_zero.mp (hnone ▸ hchild own.data.path)
    · exact fun _ => ⟨rfl, id⟩
  · rcases @birth_inactive site own pid (next (answer pid)) next
      (next (answer 0)) hactive with ⟨hparent, hborn⟩
    apply h.replace hreplaces
    · intro path
      rw [tally_cons, held_inactive hparent, held_inactive hborn]
      exact Or.inl (Nat.zero_le _)
    · intro path _
      rw [tally_cons, claims_inactive hparent, claims_inactive hborn]
      exact Nat.zero_le _
    · rw [List.flatMap_cons, claims_inactive hborn]
      exact List.not_mem_nil
    · exact fun hgoes => absurd hgoes hparent

end Birth

theorem Tidy.act (h : Tidy house) (hnumbered : house.Numbered)
    (hnodup : house.world.dirs.Nodup)
    (hproc : house.procs[who]? = some (about own op next))
    (hneeds : Needs site op own)
    (hcalm : CalmCall site reply op own house.world)
    (hact : act site reply op own house.world = some (answer, after, kernel')) :
    Tidy
      { procs := house.procs.set who (done own after (next answer))
        world := kernel' } := by
  cases op with
  | fork => cases hact
  | lstat path => exact h.look hnumbered hproc hact
  | read fd => exact h.take hnumbered hproc hneeds hcalm hact
  | signal number =>
      have hsame := hact
      cases hact
      exact h.act_same hnumbered hproc hneeds hsame rfl rfl rfl rfl
        (List.Sublist.refl _)
  | inotifyAddWatch fd path mask =>
      have hsame := hact
      simp only [Watchers.act] at hact
      split at hact
      · cases hact
        exact h.act_same hnumbered hproc hneeds hsame rfl rfl rfl rfl
          (List.Sublist.refl _)
      · cases hact
        apply h.act_same hnumbered hproc hneeds hsame rfl rfl rfl rfl
        simp only [Function.update_self]
        exact List.nil_sublist _
  | opendir path =>
      have hsame := hact
      simp only [Watchers.act] at hact
      split at hact
      case isTrue _ =>
        cases hact
        exact h.act_same hnumbered hproc hneeds hsame rfl rfl rfl rfl
          (List.Sublist.refl _)
      case isFalse _ =>
        split at hact
        case isFalse _ =>
          cases hact
          exact h.act_same hnumbered hproc hneeds hsame rfl rfl rfl rfl
            (List.Sublist.refl _)
        case isTrue hown =>
          split at hact
          case isFalse _ => cases hact
          case isTrue hin =>
            cases hact
            have hreplaces := replaces_act hnumbered hproc hneeds hsame
            by_cases hdone : active (done own
                (scanOf own.data (childrenOf house.world.dirs own.data.path))
                (next (some []))) = true
            · exact h.scan hnodup hproc hreplaces rfl hown.right hin hdone
            · exact h.act_ended hnumbered hproc hneeds hsame hdone
  | localArray | log _ | closedir | mkdir _ _ | cp _ _ | rm _ | getpid
  | setgid _ | killpg _ _ | inotifyInit | close _ | usleep _ | print _
  | openLog =>
      have hsame := hact
      cases hact
      exact h.act_same hnumbered hproc hneeds hsame rfl rfl rfl rfl
        (List.Sublist.refl _)

end Turn

end Watchers
end Backuper
end UnixPrograms
