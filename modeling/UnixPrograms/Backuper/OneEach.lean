import UnixPrograms.Backuper.Tidiness

/-!
# One process for each directory

Signals and calm changes of the source keep everything single too, so that in a
calm run at most one process has a path of the source.
-/

namespace UnixPrograms
namespace Backuper
namespace Watchers

open Foundation Program

/-!
## The whole house
-/

structure Kernel.Unborn (kernel : Kernel) (pid : Nat) : Prop where
  watched : kernel.watched pid = none
  queue : kernel.queue pid = []
  opened : kernel.opened pid = none
  arrived : kernel.arrived pid = []

theorem Kernel.Unborn.same {kernel kernel' : Kernel} {pid : Nat}
    (h : kernel.Unborn pid) (hsame : kernel.SameFor kernel' pid) :
    kernel'.Unborn pid where
  watched := hsame.watched.trans h.watched
  queue := hsame.queue.trans h.queue
  opened := hsame.opened.trans h.opened
  arrived := hsame.arrived.trans h.arrived

structure Orderly (site : Bytes) (house : House) : Prop where
  numbered : house.Numbered
  conduct : forall proc, proc ∈ house.procs ->
    Heeds site (fun _ _ => True) proc.own proc.code
  unborn : forall pid, house.procs.length < pid ->
    house.world.Unborn pid
  closed : forall path name, path ++ [name] ∈ house.world.dirs ->
    path ∈ house.world.dirs
  nodup : house.world.dirs.Nodup
  watch : forall proc, proc ∈ house.procs -> active proc = true ->
    forall dir, house.world.watched proc.own.pid = some dir ->
      dir = proc.own.data.path ∨ proc.own.data.path ∉ house.world.dirs
  arrived : forall proc, proc ∈ house.procs -> active proc = true ->
    house.world.arrived proc.own.pid = []
  tidy : Tidy house

section House

variable {site : Bytes} {house house' : House}

theorem Orderly.fork {who : Nat} {own : Own Seat} {reply : Reply}
    {next : Call.fork.Answer -> Code Unit} (h : Orderly site house)
    (hproc : house.procs[who]? = some (about own Call.fork next))
    (hstep : Pool.step (machine site) house (who, reply) = some house') :
    Orderly site house' := by
  have hnumbered := h.numbered.step hstep
  have hcode := h.conduct _ (List.mem_of_getElem? hproc)
  have hpid := h.numbered.pid_le hproc
  have hneeds : Needs site Call.fork own := hcode.left
  rcases Option.ne_none_iff_exists'.mp hneeds.left with ⟨name, hnext⟩
  have hunborn := h.unborn (house.procs.length + 1) (Nat.lt_succ_self _)
  have hhouse' : house' =
      { house with
        procs :=
          house.procs.set who
              ⟨(machine site).asParent own (house.procs.length + 1),
                next (house.procs.length + 1 : Nat)⟩ ++
            [⟨(machine site).asChild own (house.procs.length + 1),
              next (0 : Nat)⟩] } := by
    rw [Pool.step, hproc] at hstep
    injection hstep with hstep
    exact hstep.symm
  have habout : active (⟨(machine site).asParent own
        (house.procs.length + 1), next (house.procs.length + 1 : Nat)⟩ :
          Member) = true -> active (about own Call.fork next) = true :=
    fun hactive => active_about (active_iff.mp hactive).right
  rw [hhouse'] at hnumbered ⊢
  constructor
  case numbered => exact hnumbered
  case closed => exact h.closed
  case nodup => exact h.nodup
  case tidy =>
    exact @Tidy.birth site house who own _ name next (fun pid => pid) h.tidy
      hproc hnext hunborn.queue
  case conduct =>
    intro proc hmem
    rcases List.mem_append.mp hmem with hold | hnew
    · rcases List.mem_or_eq_of_mem_set hold with hkept | heq
      · exact h.conduct proc hkept
      · rw [heq]
        exact hcode.right (house.procs.length + 1 : Nat) _
          ⟨_, hpid, Or.inl ⟨rfl, rfl⟩⟩
    · rw [List.mem_singleton.mp hnew]
      exact hcode.right (0 : Nat) _ ⟨_, hpid, Or.inr ⟨rfl, rfl⟩⟩
  case unborn =>
    intro pid hlater
    apply h.unborn
    simp only [List.length_append, List.length_set, List.length_singleton]
      at hlater
    lia
  case watch =>
    intro proc hmem hactive dir hdir
    rcases List.mem_append.mp hmem with hold | hnew
    · rcases List.mem_or_eq_of_mem_set hold with hkept | heq
      · exact h.watch proc hkept hactive dir hdir
      · rw [heq] at hactive hdir ⊢
        exact h.watch _ (List.mem_of_getElem? hproc) (habout hactive) dir hdir
    · rw [List.mem_singleton.mp hnew] at hdir
      cases hunborn.watched.symm.trans hdir
  case arrived =>
    intro proc hmem hactive
    rcases List.mem_append.mp hmem with hold | hnew
    · rcases List.mem_or_eq_of_mem_set hold with hkept | heq
      · exact h.arrived proc hkept hactive
      · rw [heq] at hactive ⊢
        exact h.arrived (about own Call.fork next)
          (List.mem_of_getElem? hproc) (habout hactive)
    · rw [List.mem_singleton.mp hnew]
      exact hunborn.arrived

theorem Orderly.act {who : Nat} {own : Own Seat} {reply : Reply} {op : Call}
    {next : op.Answer -> Code Unit} {answer : op.Answer} {after : Seat}
    {kernel' : Kernel} (h : Orderly site house)
    (hproc : house.procs[who]? = some (about own op next))
    (hcalm : CalmCall site reply op own house.world)
    (hact : act site reply op own house.world = some (answer, after, kernel'))
    (hnumbered : Pool.Numbered
      ({ procs := house.procs.set who (done own after (next answer))
         world := kernel' } : House)) :
    Orderly site
      { procs := house.procs.set who (done own after (next answer))
        world := kernel' } := by
  have hmember := List.mem_of_getElem? hproc
  have hcode := h.conduct _ hmember
  have hpid := h.numbered.pid_le hproc
  rcases act_kernel hcode.left hact with ⟨hdirs, hothers, hwatched, harrived⟩
  rcases act_seat hact with ⟨hpath, hending, _⟩
  have hother : forall {k proc}, house.procs[k]? = some proc -> who ≠ k ->
      house.world.SameFor kernel' proc.own.pid := by
    intro k proc hk hne
    exact hothers _ (h.numbered.pid_ne hk hproc hne.symm)
  constructor
  case numbered => exact hnumbered
  case closed =>
    simp only [hdirs]
    exact h.closed
  case nodup =>
    simp only [hdirs]
    exact h.nodup
  case tidy =>
    exact h.tidy.act h.numbered h.nodup hproc hcode.left hcalm hact
  case conduct =>
    intro proc hmem
    rcases List.mem_or_eq_of_mem_set hmem with hkept | heq
    · exact h.conduct proc hkept
    · rw [heq]
      apply hcode.right
      cases op with
      | fork => cases hact
      | _ => exact ⟨reply, house.world, after, kernel', hcalm, hact, rfl⟩
  case unborn =>
    intro pid hlater
    rw [List.length_set] at hlater
    exact (h.unborn pid hlater).same (hothers pid (fun heq =>
      Nat.not_lt.mpr hlater (heq ▸ hpid)))
  case watch =>
    intro proc hmem hactive dir hdir
    simp only [hdirs]
    rcases List.getElem?_of_mem hmem with ⟨k, hk⟩
    rw [List.getElem?_set] at hk
    split at hk
    case isTrue _ =>
      split at hk
      case isFalse _ => cases hk
      case isTrue _ =>
        injection hk with hk
        rw [← hk] at hactive hdir ⊢
        change dir = after.path ∨ after.path ∉ _
        rw [hpath]
        rcases hwatched dir hdir with hbefore | heq
        · exact h.watch _ hmember
            (active_about (hending (ending_done hactive))) dir hbefore
        · exact Or.inl heq
    case isFalse hne =>
      rw [(hother hk hne).watched] at hdir
      exact h.watch proc (List.mem_of_getElem? hk) hactive dir hdir
  case arrived =>
    intro proc hmem hactive
    rcases List.getElem?_of_mem hmem with ⟨k, hk⟩
    rw [List.getElem?_set] at hk
    split at hk
    case isTrue _ =>
      split at hk
      case isFalse _ => cases hk
      case isTrue _ =>
        injection hk with hk
        rw [← hk] at hactive ⊢
        exact harrived (h.arrived _ hmember
          (active_about (hending (ending_done hactive))))
    case isFalse hne =>
      exact (hother hk hne).arrived.trans
        (h.arrived proc (List.mem_of_getElem? hk) hactive)

theorem Orderly.entry {who : Nat} {own : Own Seat} {reply : Reply}
    {source : List Dirent} {given : Option Dirent × List Dirent}
    {next : Option Dirent × List Dirent -> Code Unit} {after : Seat}
    {kernel' : Kernel} (h : Orderly site house)
    (hproc : house.procs[who]? = some (aboutEntry own source next))
    (hread : readEntry reply source own house.world =
      some (given, after, kernel'))
    (hnumbered : Pool.Numbered
      ({ procs := house.procs.set who (done own after (next given))
         world := kernel' } : House)) :
    Orderly site
      { procs := house.procs.set who (done own after (next given))
        world := kernel' } := by
  have hmember := List.mem_of_getElem? hproc
  have hcode := h.conduct _ hmember
  have hpid := h.numbered.pid_le hproc
  rcases readEntry_kernel hread with
    ⟨hdirs, hothers, hwatched, hqueue, harrived⟩
  rcases readEntry_seat hread with ⟨hpath, hending, -, -, -⟩
  have hactive : active (done own after (next given)) = true ->
      active (aboutEntry own source next) = true :=
    fun hdone => active_iff.mpr ⟨rfl, hending ▸ ending_done hdone⟩
  constructor
  case numbered => exact hnumbered
  case closed =>
    simp only [hdirs]
    exact h.closed
  case nodup =>
    simp only [hdirs]
    exact h.nodup
  case tidy =>
    exact h.tidy.entry hproc (h.arrived _ hmember) hread
  case conduct =>
    intro proc hmem
    rcases List.mem_or_eq_of_mem_set hmem with hkept | heq
    · exact h.conduct proc hkept
    · rw [heq]
      exact hcode.right given _
        ⟨reply, house.world, after, kernel', hread, rfl⟩
  case unborn =>
    intro pid hlater
    rw [List.length_set] at hlater
    exact (h.unborn pid hlater).same (hothers pid (fun heq =>
      Nat.not_lt.mpr hlater (heq ▸ hpid)))
  case watch =>
    intro proc hmem hgoes dir hdir
    simp only [hdirs]
    rw [hwatched] at hdir
    rcases List.mem_or_eq_of_mem_set hmem with hkept | heq
    · exact h.watch proc hkept hgoes dir hdir
    · rw [heq] at hgoes hdir ⊢
      change dir = after.path ∨ after.path ∉ _
      rw [hpath]
      exact h.watch _ hmember (hactive hgoes) dir hdir
  case arrived =>
    intro proc hmem hgoes
    rcases List.getElem?_of_mem hmem with ⟨k, hk⟩
    rw [List.getElem?_set] at hk
    split at hk
    case isTrue _ =>
      split at hk
      case isFalse _ => cases hk
      case isTrue _ =>
        injection hk with hk
        rw [← hk] at hgoes ⊢
        exact harrived (h.arrived _ hmember (hactive hgoes))
    case isFalse hne =>
      exact (hothers _ (h.numbered.pid_ne hk hproc
          (Ne.symm hne))).arrived.trans
        (h.arrived proc (List.mem_of_getElem? hk) hgoes)

theorem Orderly.turn {who : Nat} {reply : Reply} (h : Orderly site house)
    (hcalm : Calm site house (Happening.turn who reply))
    (hstep : Pool.step (machine site) house (who, reply) = some house') :
    Orderly site house' := by
  cases PoolMoves.of_step hstep with
  | @fork _ _ own query next answer hproc hforks =>
      cases query with
      | inr _ => cases hforks
      | inl op =>
          cases op with
          | fork => exact h.fork hproc hstep
          | _ => cases hforks
  | @act _ _ own query next answer after world' hproc hforks hact =>
      have hquery := hcalm _ (Option.mem_def.mpr hproc) query rfl
      cases query with
      | inl op => exact h.act hproc hquery hact (h.numbered.step hstep)
      | inr scan =>
          cases scan with
          | readdir source => exact h.entry hproc hact (h.numbered.step hstep)

/-!
## Signals
-/

theorem heeds_dropped {own : Own Seat} {code : Code Unit}
    {post : Own Seat -> Unit -> Prop}
    (hread : reading ⟨own, code⟩ = true) (h : Heeds site post own code) :
    Heeds site post
      { own with
        data :=
          { own.data with handling := [] } } code := by
  cases code with
  | ret value => cases hread
  | halt reason => cases hread
  | call query next =>
      cases query with
      | inr scan => cases hread
      | inl op =>
          cases op with
          | read fd =>
              refine ⟨h.left, ?_⟩
              rintro answer own' ⟨reply, kernel, after, kernel', hcalm, hact, heq⟩
              exact h.right answer own'
                ⟨reply, kernel, after, kernel', hcalm, hact, heq⟩
          | _ => cases hread

theorem interrupted_own {number : Nat} {g : Globals} {proc : Member}
    (hcaught : number ∈ proc.own.data.caught) (hnumber : number ≠ SIG_STOP) :
    (interrupted site number g proc).own =
      if reading proc = true then
        { proc.own with
          data :=
            { proc.own.data with handling := [] } }
      else proc.own := by
  unfold interrupted
  rw [if_pos hcaught]
  have hfalse : (number == SIG_STOP) = false := by simpa using hnumber
  split <;> simp [hfalse]

theorem heeds_interrupted {number : Nat} {g : Globals} {proc : Member}
    {post : Own Seat -> Unit -> Prop}
    (h : Heeds site post proc.own proc.code) :
    Heeds site post (interrupted site number g proc).own
      (interrupted site number g proc).code := by
  by_cases hcaught : number ∈ proc.own.data.caught
  · have hcode : (interrupted site number g proc).code =
        (plain
            (signalHandler number
              { g with srcPath := join site proc.own.data.path }) >>=
          fun _ => proc.code) := by
      unfold interrupted
      rw [if_pos hcaught]
    have hpath : (interrupted site number g proc).own.data.path =
        proc.own.data.path := by
      unfold interrupted
      rw [if_pos hcaught]
    rw [hcode]
    apply Ensures.bind
    apply heeds_plain
    apply obeys_signalHandler
    · rw [hpath]
    · intro hnumber
      unfold interrupted
      rw [if_pos hcaught, hnumber]
      simp
    · intro hnumber
      rw [interrupted_own hcaught hnumber]
      split
      case isTrue hread => exact heeds_dropped hread h
      case isFalse _ => exact h
  · unfold interrupted
    rw [if_neg hcaught]
    trivial

theorem Orderly.signal {who number : Nat} {g : Globals} {proc : Member}
    (h : Orderly site house) (hproc : house.procs[who]? = some proc)
    (hrunning : running proc = true) :
    Orderly site
      { house with
        procs := house.procs.set who (interrupted site number g proc) } := by
  have hmember := List.mem_of_getElem? hproc
  have hown : (interrupted site number g proc).own.pid = proc.own.pid ∧
      (interrupted site number g proc).own.data.path = proc.own.data.path ∧
      (interrupted site number g proc).own.data.found = proc.own.data.found ∧
      (interrupted site number g proc).own.data.looking =
        proc.own.data.looking ∧
      (interrupted site number g proc).own.data.stage =
        proc.own.data.stage := by
    unfold interrupted
    split <;> exact ⟨rfl, rfl, rfl, rfl, rfl⟩
  rcases hown with ⟨hpid, hpath, hfound, hlooking, hstage⟩
  have hactive : active (interrupted site number g proc) = true ->
      active proc = true := by
    intro hafter
    apply active_iff.mpr
    refine ⟨hrunning, ?_⟩
    have hending := (active_iff.mp hafter).right
    unfold interrupted at hending
    split at hending
    · exact (Bool.or_eq_false_iff.mp hending).left
    · exact hending
  constructor
  case numbered => exact h.numbered.set hproc rfl hpid
  case closed => exact h.closed
  case nodup => exact h.nodup
  case unborn =>
    intro pid hlater
    rw [List.length_set] at hlater
    exact h.unborn pid hlater
  case conduct =>
    intro other hmem
    rcases List.mem_or_eq_of_mem_set hmem with hkept | heq
    · exact h.conduct other hkept
    · rw [heq]
      exact heeds_interrupted (h.conduct proc hmember)
  case watch =>
    intro other hmem hother dir hdir
    rcases List.mem_or_eq_of_mem_set hmem with hkept | heq
    · exact h.watch other hkept hother dir hdir
    · rw [heq] at hother hdir ⊢
      rw [hpid] at hdir
      rw [hpath]
      exact h.watch proc hmember (hactive hother) dir hdir
  case arrived =>
    intro other hmem hother
    rcases List.mem_or_eq_of_mem_set hmem with hkept | heq
    · exact h.arrived other hkept hother
    · rw [heq] at hother ⊢
      rw [hpid]
      exact h.arrived proc hmember (hactive hother)
  case tidy =>
    have hreplaces : Replaces house
        { house with
          procs := house.procs.set who (interrupted site number g proc) }
        who proc (interrupted site number g proc) [] := by
      constructor
      case here => exact hproc
      case procs => exact (List.append_nil _).symm
      case dirs => rfl
      case others =>
        intro _ _ _ _
        rfl
    have hnames : (interrupted site number g proc).own.data.found ++
        (interrupted site number g proc).own.data.looking.toList =
          proc.own.data.found ++ proc.own.data.looking.toList := by
      rw [hfound, hlooking]
    have hpending : active (interrupted site number g proc) = true ->
        (pending house.world (interrupted site number g proc)).Sublist
          (pending house.world proc) := by
      intro hafter
      have hhandling : (interrupted site number g proc).own.data.handling =
          if reading proc = true then [] else proc.own.data.handling := by
        unfold interrupted at hafter ⊢
        split at hafter
        case isTrue hcaught => rw [if_pos hcaught]
        case isFalse _ => cases (active_iff.mp hafter).left
      rw [pending, pending, hpid, hhandling]
      apply List.Sublist.append_right
      split
      · exact List.nil_sublist _
      · exact List.Sublist.refl _
    apply h.tidy.replace hreplaces
    · intro path
      exact Or.inl (count_held_mono hactive hpath
        (hnames ▸ List.Subperm.refl _) path)
    · intro path _
      by_cases hafter : active (interrupted site number g proc) = true
      · apply count_claims_mono hactive hpath
        rw [plans, plans, hnames]
        exact (List.Subperm.refl _).append (hpending hafter).subperm
      · rw [claims_inactive hafter]
        exact Nat.zero_le _
    · exact List.not_mem_nil
    · intro _
      exact ⟨hpath, fun hopen => hstage ▸ hopen⟩

/-!
## Changes by the users

A change is heard of by the watchers of one or two directories.  In a calm run the
path it brings is new to everybody, and only the process of that directory
hears of it.
-/

/-- The names for which `event_create` is to run that the watchers of a
directory hear of. -/
def heard (happening : Happening) (dir : List FileName) : List FileName :=
  (newsOf happening.news dir).filterMap broughtBy

/-- What the users may do without giving anybody anything to do twice. -/
structure Happening.Gentle (house : House) (happening : Happening) : Prop where
  fresh : forall dir, dir ∈ happening.dirs house.world.dirs ->
    dir ∈ house.world.dirs ∨ Unclaimed house dir
  closed : forall path name,
    path ++ [name] ∈ happening.dirs house.world.dirs ->
    path ∈ happening.dirs house.world.dirs
  nodup : (happening.dirs house.world.dirs).Nodup
  follow : forall dir dir', happening.follow dir = some dir' ->
    dir ∈ happening.dirs house.world.dirs -> dir' = dir ∨ Unclaimed house dir
  single : forall dir, (heard happening dir).Nodup
  heard : forall dir name, name ∈ heard happening dir ->
    dir ++ [name] ∈ happening.dirs house.world.dirs ->
    Quiescent house dir ∧ Unclaimed house (dir ++ [name]) ∧
      Vacant house.world.dirs (dir ++ [name])
  arrives : forall dir name, name ∈ arrivalsIn happening dir ->
    Quiescent house dir

def heardBy (happening : Happening) (kernel : Kernel) (proc : Member) :
    List (List FileName) :=
  if active proc = true then
    ((kernel.watched proc.own.pid).toList.flatMap (heard happening)).map
      proc.own.data.below
  else []

theorem claims_changed {kernel kernel' : Kernel} {happening : Happening}
    (hchange : kernel.change happening = some kernel') (proc : Member)
    (path : List FileName) :
    (claims kernel' proc).count path =
      (claims kernel proc ++ heardBy happening kernel proc).count path := by
  unfold Kernel.change at hchange
  split at hchange
  case isFalse _ => cases hchange
  case isTrue _ =>
    injection hchange with hchange
    by_cases hactive : active proc = true
    · have hbrought : (kernel'.queue proc.own.pid).filterMap broughtBy =
          (kernel.queue proc.own.pid).filterMap broughtBy ++
            (kernel.watched proc.own.pid).toList.flatMap
              (Watchers.heard happening) := by
        rw [← hchange]
        simp only [List.filterMap_append, List.filterMap_flatMap]
        rfl
      rw [claims, claims, wanted, wanted, heardBy, if_pos hactive,
        if_pos hactive, if_pos hactive, pending, pending, hbrought]
      simp only [List.map_append, List.count_append]
      lia
    · rw [claims_inactive hactive, claims_inactive hactive, heardBy,
        if_neg hactive]
      rfl

theorem Orderly.hears {happening : Happening} (h : Orderly site house)
    (hgentle : happening.Gentle house) {proc : Member}
    (hproc : proc ∈ house.procs) {path : List FileName}
    (hheard : path ∈ heardBy happening house.world proc)
    (hpath : path ∈ happening.dirs house.world.dirs) :
    active proc = true ∧
      exists name, name ∈ heard happening proc.own.data.path ∧
        path = proc.own.data.path ++ [name] ∧
        house.world.watched proc.own.pid = some proc.own.data.path := by
  unfold heardBy at hheard
  split at hheard
  case isFalse _ => cases hheard
  case isTrue hactive =>
    refine ⟨hactive, ?_⟩
    rcases List.mem_map.mp hheard with ⟨name, hname, heq⟩
    rcases List.mem_flatMap.mp hname with ⟨dir, hdir, hmem⟩
    have hwatched := Option.mem_toList.mp hdir
    rcases h.watch proc hproc hactive dir hwatched with hsame | hgone
    · rw [hsame] at hmem hwatched
      exact ⟨name, hmem, heq.symm, hwatched⟩
    · exfalso
      rw [← heq] at hpath
      rcases hgentle.fresh _ (hgentle.closed _ _ hpath) with hold | hfree
      · exact hgone hold
      · apply hfree
        exact List.mem_flatMap.mpr ⟨proc, hproc, mem_claims_path hactive⟩

theorem Orderly.tally_heard_le {happening : Happening} (h : Orderly site house)
    (hgentle : happening.Gentle house) {path : List FileName}
    (hpath : path ∈ happening.dirs house.world.dirs) :
    tally (heardBy happening house.world) house.procs path ≤
      tally held house.procs path.dropLast := by
  apply tally_mono
  intro proc hproc
  by_cases hheard : path ∈ heardBy happening house.world proc
  · rcases h.hears hgentle hproc hheard hpath with
      ⟨hactive, name, _, heq, hwatched⟩
    have hone : (held proc).count path.dropLast ≠ 0 := by
      rw [heq, List.dropLast_concat]
      exact Nat.ne_of_gt (List.count_pos_iff.mpr (mem_held_path hactive))
    have hnodup : (heardBy happening house.world proc).Nodup := by
      rw [heardBy, if_pos hactive, hwatched, Option.toList_some,
        List.flatMap_singleton]
      apply (hgentle.single proc.own.data.path).map
      intro first second hsame
      simpa [Seat.below] using hsame
    have hle := List.nodup_iff_count_le_one.mp hnodup path
    lia
  · rw [List.count_eq_zero.mpr hheard]
    exact Nat.zero_le _

theorem Orderly.heard_new {happening : Happening} (h : Orderly site house)
    (hgentle : happening.Gentle house) {path : List FileName}
    (hpath : path ∈ happening.dirs house.world.dirs)
    (hheard : tally (heardBy happening house.world) house.procs path ≠ 0) :
    Unclaimed house path ∧ Vacant house.world.dirs path ∧
      exists dir name, path = dir ++ [name] ∧ Opened house dir := by
  rw [Ne, tally_eq_zero] at hheard
  simp only [not_forall, not_not] at hheard
  rcases hheard with ⟨proc, hproc, hmem⟩
  rcases h.hears hgentle hproc hmem hpath with
    ⟨hactive, name, hname, heq, hwatched⟩
  rw [heq] at hpath
  rcases hgentle.heard _ _ hname hpath with ⟨hquiet, hfree, hvacant⟩
  rw [heq]
  refine ⟨hfree, hvacant, _, _, rfl, proc, hproc, hactive, rfl, ?_⟩
  have hstage := (hquiet proc hproc hactive).left rfl (by rw [hwatched]; rfl)
  rw [hstage]
  exact Stage.noConfusion

theorem mem_of_above {dirs : List (List FileName)}
    (hclosed : forall path name, path ++ [name] ∈ dirs -> path ∈ dirs)
    {dir path : List FileName} (hbelow : dir <+: path) (hpath : path ∈ dirs) :
    dir ∈ dirs := by
  rcases hbelow with ⟨more, heq⟩
  induction more using List.reverseRecOn generalizing path with
  | nil =>
      rw [List.append_nil] at heq
      rw [heq]
      exact hpath
  | append_singleton more name ih =>
      rw [← List.append_assoc] at heq
      rw [← heq] at hpath
      exact ih (hclosed _ _ hpath) rfl

theorem Orderly.tidy_change {happening : Happening} {kernel' : Kernel}
    (h : Orderly site house) (hgentle : happening.Gentle house)
    (hchange : house.world.change happening = some kernel') :
    Tidy { house with world := kernel' } := by
  have hdirs : kernel'.dirs = happening.dirs house.world.dirs := by
    unfold Kernel.change at hchange
    split at hchange <;> cases hchange
    rfl
  have htally : forall path,
      tally (claims kernel') house.procs path =
        tally (claims house.world) house.procs path +
          tally (heardBy happening house.world) house.procs path := by
    intro path
    rw [← tally_add]
    apply Nat.le_antisymm <;> apply tally_mono <;> intro proc _
    · exact Nat.le_of_eq (claims_changed hchange proc path)
    · exact Nat.le_of_eq (claims_changed hchange proc path).symm
  have hscanned : forall dir, Opened { house with world := kernel' } dir <->
      Opened house dir := fun dir => Iff.rfl
  constructor
  case once => exact h.tidy.once
  case single =>
    intro path hpath
    change path ∈ kernel'.dirs at hpath
    rw [hdirs] at hpath
    change tally (claims kernel') house.procs path ≤ 1
    rw [htally path]
    by_cases hheard :
        tally (heardBy happening house.world) house.procs path = 0
    · rw [hheard]
      rcases hgentle.fresh path hpath with hold | hfree
      · exact h.tidy.single path hold
      · rw [unclaimed_iff] at hfree
        rw [hfree]
        exact Nat.zero_le 1
    · have hfree := (h.heard_new hgentle hpath hheard).left
      rw [unclaimed_iff] at hfree
      have hle := h.tally_heard_le hgentle hpath
      have honce := h.tidy.once path.dropLast
      lia
  case deep =>
    intro dir hdir hclaimed hunscanned path hpath hbelow hne
    change dir ∈ kernel'.dirs at hdir
    change path ∈ kernel'.dirs at hpath
    rw [hdirs] at hdir hpath
    rw [hscanned] at hunscanned
    have hclaimed' : Unclaimed house dir -> Vacant house.world.dirs dir := by
      intro hfree
      rw [unclaimed_iff] at hclaimed hfree
      have hheard : tally (heardBy happening house.world) house.procs dir ≠
          0 := by
        intro hzero
        apply hclaimed
        change tally (claims kernel') house.procs dir = 0
        rw [htally dir, hfree, hzero]
      exact (h.heard_new hgentle hdir hheard).right.left
    -- whatever is below has been unclaimed before
    have hbefore : forall below,
        below ∈ happening.dirs house.world.dirs -> dir <+: below ->
        below ≠ dir -> Unclaimed house below := by
      intro below hmem hfront hdiffer
      by_contra hbusy
      have hold := (hgentle.fresh below hmem).resolve_right hbusy
      have hdir' := mem_of_above h.closed hfront hold
      by_cases hfree : Unclaimed house dir
      · exact hdiffer (hclaimed' hfree below hold hfront)
      · exact hbusy (h.tidy.deep dir hdir' hfree hunscanned below hold hfront
          hdiffer)
    have hfree := hbefore path hpath hbelow hne
    rw [unclaimed_iff] at hfree
    rw [unclaimed_iff]
    change tally (claims kernel') house.procs path = 0
    rw [htally path, hfree, Nat.zero_add]
    by_contra hheard
    rcases (h.heard_new hgentle hpath hheard).right.right with
      ⟨parent, name, heq, hopen⟩
    rw [heq] at hbelow hpath hne
    rcases List.prefix_concat_iff.mp hbelow with hsame | habove
    · exact hne hsame.symm
    · by_cases hself : parent = dir
      · rw [hself] at hopen
        exact hunscanned hopen
      · have hnobody := hbefore parent (hgentle.closed parent name hpath)
          habove hself
        rcases hopen with ⟨proc, hproc, hactive, hat, _⟩
        apply hnobody
        rw [← hat]
        exact List.mem_flatMap.mpr ⟨proc, hproc, mem_claims_path hactive⟩

theorem Orderly.change {happening : Happening} {kernel' : Kernel}
    (h : Orderly site house) (hgentle : happening.Gentle house)
    (hchange : house.world.change happening = some kernel') :
    Orderly site { house with world := kernel' } := by
  have htidy := h.tidy_change hgentle hchange
  unfold Kernel.change at hchange
  split at hchange
  case isFalse _ => cases hchange
  case isTrue _ =>
    injection hchange with hchange
    constructor
    case numbered => exact h.numbered
    case conduct => exact h.conduct
    case tidy => exact htidy
    case closed =>
      rw [← hchange]
      exact hgentle.closed
    case nodup =>
      rw [← hchange]
      exact hgentle.nodup
    case unborn =>
      intro pid hlater
      rcases h.unborn pid hlater with ⟨hwatched, hqueue, hopened, harrived⟩
      rw [← hchange]
      constructor <;> simp [hwatched, hqueue, hopened, harrived]
    case arrived =>
      intro proc hproc hactive
      rw [← hchange]
      change house.world.arrived proc.own.pid ++ _ = []
      rw [h.arrived proc hproc hactive, List.nil_append,
        List.flatMap_eq_nil_iff]
      intro dir hdir
      apply List.eq_nil_iff_forall_not_mem.mpr
      intro name hname
      exact (hgentle.arrives dir name hname proc hproc hactive).right
        (Option.mem_toList.mp hdir)
    case watch =>
      intro proc hproc hactive dir' hdir'
      by_contra hneither
      rw [not_or, not_not] at hneither
      rcases hneither with ⟨hne, hin⟩
      rw [← hchange] at hdir' hin
      rcases Option.bind_eq_some_iff.mp hdir' with ⟨dir, hwatched, hfollow⟩
      have hbusy : ¬ Unclaimed house proc.own.data.path := by
        intro hfree
        apply hfree
        exact List.mem_flatMap.mpr ⟨proc, hproc, mem_claims_path hactive⟩
      rcases h.watch proc hproc hactive dir hwatched with hsame | hgone
      · rw [hsame] at hfollow
        rcases hgentle.follow _ _ hfollow hin with heq | hfree
        · exact hne heq
        · exact hbusy hfree
      · rcases hgentle.fresh _ hin with hold | hfree
        · exact hgone hold
        · exact hbusy hfree

theorem broughtBy_dirRecord (kind : Handler) (cookie : UInt32)
    (name : FileName) :
    broughtBy (dirRecord kind cookie name) =
      if kind.brings = true then some name else none := by
  have hlen : (dirRecord kind cookie name).len ≠ 0 :=
    record_len_ne_zero 1
      { kind := kind
        cookie := cookie
        name := name }
  have hbranch : branchOf (kind.mask ||| IN_ISDIR)
      (dirRecord kind cookie name).len = some kind := by
    simp only [branchOf, ne_eq, hlen, not_false_iff, and_true]
    cases kind <;> rfl
  have hdispatch : (dirRecord kind cookie name).dispatch =
      some
        { handler := kind
          mask := kind.mask ||| IN_ISDIR
          name := name.bytes } := by
    change (branchOf (kind.mask ||| IN_ISDIR) _).map _ = _
    rw [hbranch]
    exact congrArg some (by
      simp [dirRecord, Notice.record, FileName.cstr_field])
  unfold broughtBy
  rw [hdispatch]
  simp only [FileName.ofBytes_bytes]

theorem broughtBy_selfRecord (mask : UInt32) :
    broughtBy (selfRecord mask) = none := by
  have hdispatch : (selfRecord mask).dispatch = none := by
    change (branchOf mask 0).map _ = none
    rw [branchOf_zero]
    rfl
  unfold broughtBy
  rw [hdispatch]

theorem brought_nil (dir : List FileName) :
    (newsOf [] dir).filterMap broughtBy = [] := rfl

theorem brought_cons (news : List (List FileName × Record))
    (told dir : List FileName) (record : Record) :
    (newsOf ((told, record) :: news) dir).filterMap broughtBy =
      (if told = dir then (broughtBy record).toList else []) ++
        (newsOf news dir).filterMap broughtBy := by
  unfold newsOf
  by_cases heq : told = dir
  · cases hbrought : broughtBy record <;> simp [heq, hbrought]
  · simp [heq]

theorem heard_make (parent dir : List FileName) (name : FileName) :
    heard (Happening.make parent name) dir =
      if parent = dir then [name] else [] := by
  simp [heard, Happening.news, brought_cons, broughtBy_dirRecord,
    Handler.brings, brought_nil]

theorem heard_remove (parent dir : List FileName) (name : FileName) :
    heard (Happening.remove parent name) dir = [] := by
  simp [heard, Happening.news, brought_cons, broughtBy_dirRecord,
    broughtBy_selfRecord, Handler.brings, brought_nil]

theorem heard_rename (oldParent newParent dir : List FileName)
    (old new : FileName) (cookie : UInt32) :
    heard (Happening.rename oldParent old newParent new cookie) dir =
      if newParent = dir then [new] else [] := by
  simp [heard, Happening.news, brought_cons, broughtBy_dirRecord,
    broughtBy_selfRecord, Handler.brings, brought_nil]

theorem heard_tell (told dir : List FileName) (record : Record) :
    heard (Happening.tell told record) dir =
      if told = dir then (broughtBy record).toList else [] := by
  simp [heard, Happening.news, brought_cons, brought_nil]

theorem arrivalsIn_make (parent dir : List FileName) (name : FileName) :
    arrivalsIn (Happening.make parent name) dir =
      if parent = dir then [name] else [] := by
  by_cases heq : parent = dir
  · simp [arrivalsIn, Happening.arrivals, heq]
  · simp [arrivalsIn, Happening.arrivals, heq]

theorem arrivalsIn_rename (oldParent newParent dir : List FileName)
    (old new : FileName) (cookie : UInt32) :
    arrivalsIn (Happening.rename oldParent old newParent new cookie) dir =
      if newParent = dir then [new] else [] := by
  by_cases heq : newParent = dir
  · simp [arrivalsIn, Happening.arrivals, heq]
  · simp [arrivalsIn, Happening.arrivals, heq]

theorem Orderly.gentle_make {parent : List FileName} {name : FileName}
    (h : Orderly site house)
    (hpossible : (Happening.make parent name).Possible house.world.dirs)
    (hcalm : Calm site house (Happening.make parent name)) :
    (Happening.make parent name).Gentle house := by
  rcases hpossible with ⟨hparent, hnew⟩
  rcases hcalm with ⟨hfree, hquiet⟩
  constructor
  case fresh =>
    intro dir hdir
    rcases List.mem_append.mp hdir with hold | hmade
    · exact Or.inl hold
    · rw [List.mem_singleton.mp hmade]
      exact Or.inr hfree
  case closed =>
    intro path last hdir
    apply List.mem_append_left
    rcases List.mem_append.mp hdir with hold | hmade
    · exact h.closed path last hold
    · have heq := List.mem_singleton.mp hmade
      rw [(List.append_inj_left' heq rfl)]
      exact hparent
  case nodup =>
    exact List.nodup_append.mpr ⟨h.nodup, List.nodup_singleton _, by
      intro dir hdir dir' hmade heq
      rw [List.mem_singleton.mp hmade] at heq
      exact hnew (heq ▸ hdir)⟩
  case follow =>
    intro dir dir' hfollow _
    injection hfollow with hfollow
    exact Or.inl hfollow.symm
  case single =>
    intro dir
    rw [heard_make]
    split
    · exact List.nodup_singleton name
    · exact List.nodup_nil
  case arrives =>
    intro dir come hcome
    rw [arrivalsIn_make] at hcome
    split at hcome
    case isFalse _ => cases hcome
    case isTrue heq => exact heq ▸ hquiet
  case heard =>
    intro dir heardName hmem _
    rw [heard_make] at hmem
    split at hmem
    case isFalse _ => cases hmem
    case isTrue heq =>
      rw [List.mem_singleton.mp hmem, ← heq]
      refine ⟨hquiet, hfree, ?_⟩
      intro below hbelow hfront
      exact absurd (mem_of_above h.closed hfront hbelow) hnew

theorem Orderly.gentle_remove {parent : List FileName} {name : FileName}
    (h : Orderly site house)
    (hpossible : (Happening.remove parent name).Possible house.world.dirs) :
    (Happening.remove parent name).Gentle house := by
  rcases hpossible with ⟨_, hvacant⟩
  have hmem : forall dir,
      dir ∈ (Happening.remove parent name).dirs house.world.dirs <->
        dir ∈ house.world.dirs ∧ dir ≠ parent ++ [name] := by
    intro dir
    simp [Happening.dirs]
  constructor
  case fresh =>
    intro dir hdir
    exact Or.inl ((hmem dir).mp hdir).left
  case closed =>
    intro path last hdir
    rw [hmem] at hdir ⊢
    refine ⟨h.closed path last hdir.left, ?_⟩
    intro heq
    exact hdir.right (hvacant _ hdir.left ⟨[last], by rw [← heq]⟩)
  case nodup => exact h.nodup.filter _
  case follow =>
    intro dir dir' hfollow _
    simp only [Happening.follow] at hfollow
    split at hfollow <;> cases hfollow
    exact Or.inl rfl
  case single =>
    intro dir
    rw [heard_remove]
    exact List.nodup_nil
  case arrives =>
    intro dir come hcome
    cases hcome
  case heard =>
    intro dir heardName hmem _
    rw [heard_remove] at hmem
    cases hmem

theorem Orderly.gentle_tell {told : List FileName} {record : Record}
    (h : Orderly site house)
    (hpossible : (Happening.tell told record).Possible house.world.dirs) :
    (Happening.tell told record).Gentle house := by
  constructor
  case fresh => exact fun dir hdir => Or.inl hdir
  case closed => exact h.closed
  case nodup => exact h.nodup
  case follow =>
    intro dir dir' hfollow _
    injection hfollow with hfollow
    exact Or.inl hfollow.symm
  case single =>
    intro dir
    rw [heard_tell]
    split
    · cases broughtBy record with
      | none => exact List.nodup_nil
      | some name => exact List.nodup_singleton name
    · exact List.nodup_nil
  case arrives =>
    intro dir come hcome
    cases hcome
  case heard =>
    intro dir heardName hmem hin
    rw [heard_tell] at hmem
    split at hmem
    case isFalse _ => cases hmem
    case isTrue heq =>
      rw [← heq] at hin
      exact absurd hin (hpossible heardName (Option.mem_toList.mp hmem))

theorem moved_append (old new rest : List FileName) :
    moved old new (old ++ rest) = new ++ rest := by
  rw [moved, if_pos (List.prefix_append old rest), List.drop_left]

theorem moved_of_not {old new dir : List FileName} (h : ¬ old <+: dir) :
    moved old new dir = dir := if_neg h

theorem moved_injective {dirs : List (List FileName)}
    {old new first second : List FileName} (hvacant : Vacant dirs new)
    (hfirst : first ∈ dirs ∧ first ≠ new)
    (hsecond : second ∈ dirs ∧ second ≠ new)
    (heq : moved old new first = moved old new second) : first = second := by
  have hmixed : forall dir rest, dir ∈ dirs ∧ dir ≠ new ->
      new ++ rest ≠ dir := by
    rintro dir rest ⟨hdir, hne⟩ hsame
    exact hne (hvacant dir hdir ⟨rest, hsame⟩)
  by_cases hin : old <+: first
  · rcases hin with ⟨rest, hrest⟩
    rw [← hrest, moved_append] at heq
    by_cases hin' : old <+: second
    · rcases hin' with ⟨rest', hrest'⟩
      rw [← hrest', moved_append] at heq
      rw [← hrest, ← hrest', List.append_cancel_left heq]
    · rw [moved_of_not hin'] at heq
      exact absurd heq (hmixed second rest hsecond)
  · rw [moved_of_not hin] at heq
    by_cases hin' : old <+: second
    · rcases hin' with ⟨rest', hrest'⟩
      rw [← hrest', moved_append] at heq
      exact absurd heq.symm (hmixed first rest' hfirst)
    · rw [moved_of_not hin'] at heq
      exact heq

theorem Orderly.gentle_rename {oldParent newParent : List FileName}
    {old new : FileName} {cookie : UInt32} (h : Orderly site house)
    (hpossible : (Happening.rename oldParent old newParent new cookie).Possible
      house.world.dirs)
    (hcalm : Calm site house
      (Happening.rename oldParent old newParent new cookie)) :
    (Happening.rename oldParent old newParent new cookie).Gentle house := by
  rcases hpossible with ⟨hold, hparent, hvacant, hoff⟩
  rcases hcalm with ⟨hquiet, hfree⟩
  have hmem : forall dir,
      dir ∈ (Happening.rename oldParent old newParent new cookie).dirs
          house.world.dirs <->
        exists before, (before ∈ house.world.dirs ∧
            before ≠ newParent ++ [new]) ∧
          moved (oldParent ++ [old]) (newParent ++ [new]) before = dir := by
    intro dir
    simp [Happening.dirs]
  have hshorter : forall (path : List FileName) (name : FileName),
      path ++ [name] ≠ path := by
    intro path name heq
    simpa using congrArg List.length heq
  -- a directory that stays where it is
  have hstay : forall dir, dir ∈ house.world.dirs ->
      dir ≠ newParent ++ [new] -> ¬ oldParent ++ [old] <+: dir ->
      dir ∈ (Happening.rename oldParent old newParent new cookie).dirs
        house.world.dirs := by
    intro dir hdir hne hout
    exact (hmem dir).mpr ⟨dir, ⟨hdir, hne⟩, moved_of_not hout⟩
  constructor
  case fresh =>
    intro dir hdir
    rcases (hmem dir).mp hdir with ⟨before, hbefore, heq⟩
    by_cases hin : oldParent ++ [old] <+: before
    · rw [← heq]
      exact Or.inr (hfree before hbefore.left hin)
    · rw [moved_of_not hin] at heq
      rw [← heq]
      exact Or.inl hbefore.left
  case closed =>
    intro path last hdir
    rcases (hmem _).mp hdir with ⟨before, hbefore, heq⟩
    by_cases hin : oldParent ++ [old] <+: before
    · rcases hin with ⟨rest, hrest⟩
      rw [← hrest, moved_append] at heq
      cases rest using List.reverseRecOn with
      | nil =>
          rw [List.append_nil] at heq
          rw [← List.append_inj_left' heq rfl]
          apply hstay newParent hparent (hshorter newParent new).symm
          exact fun hin => hoff (hin.trans (List.prefix_append _ _))
      | append_singleton rest name =>
          rw [← List.append_assoc] at heq hrest
          rw [← List.append_inj_left' heq rfl]
          refine (hmem _).mpr ⟨oldParent ++ [old] ++ rest, ⟨?_, ?_⟩,
            moved_append _ _ rest⟩
          · exact h.closed _ name (hrest ▸ hbefore.left)
          · intro hsame
            exact hoff ⟨rest, hsame⟩
    · rw [moved_of_not hin] at heq
      rw [heq] at hbefore hin
      apply hstay path (h.closed path last hbefore.left)
      · intro hsame
        exact hbefore.right (hvacant _ hbefore.left ⟨[last], by rw [hsame]⟩)
      · exact fun hout => hin (hout.trans (List.prefix_append _ _))
  case nodup =>
    apply List.Nodup.map_on
    · intro first hfirst second hsecond heq
      simp only [List.mem_filter, decide_eq_true_eq] at hfirst hsecond
      exact moved_injective hvacant hfirst hsecond heq
    · exact h.nodup.filter _
  case follow =>
    intro dir dir' hfollow hin
    simp only [Happening.follow] at hfollow
    split at hfollow
    case isTrue _ => cases hfollow
    case isFalse _ =>
      injection hfollow with hfollow
      by_cases hmoved : oldParent ++ [old] <+: dir
      · rcases (hmem dir).mp hin with ⟨before, hbefore, heq⟩
        by_cases hbelow : oldParent ++ [old] <+: before
        · rw [← heq]
          exact Or.inr (hfree before hbefore.left hbelow)
        · rw [moved_of_not hbelow] at heq
          exact absurd (heq ▸ hmoved) hbelow
      · rw [moved_of_not hmoved] at hfollow
        exact Or.inl hfollow.symm
  case single =>
    intro dir
    rw [heard_rename]
    split
    · exact List.nodup_singleton new
    · exact List.nodup_nil
  case arrives =>
    intro dir come hcome
    rw [arrivalsIn_rename] at hcome
    split at hcome
    case isFalse _ => cases hcome
    case isTrue heq => exact heq ▸ hquiet
  case heard =>
    intro dir heardName hheard _
    rw [heard_rename] at hheard
    split at hheard
    case isFalse _ => cases hheard
    case isTrue heq =>
      rw [List.mem_singleton.mp hheard, ← heq]
      refine ⟨hquiet, ?_, hvacant⟩
      have hself := hfree _ hold (List.prefix_refl _)
      have hmoved := moved_append (oldParent ++ [old]) (newParent ++ [new]) []
      rw [List.append_nil, List.append_nil] at hmoved
      rw [hmoved] at hself
      exact hself

/-!
## Runs
-/

theorem Orderly.step {happening : Happening} (h : Orderly site house)
    (hcalm : Calm site house happening)
    (hstep : happen site house happening = some house') :
    Orderly site house' := by
  have hchange : forall happening : Happening,
      (happening.Possible house.world.dirs -> happening.Gentle house) ->
      (house.world.change happening).map
        (fun kernel => { house with world := kernel }) = some house' ->
      Orderly site house' := by
    intro happening hgentle hmap
    rcases Option.map_eq_some_iff.mp hmap with ⟨kernel', hkernel, heq⟩
    have hpossible : happening.Possible house.world.dirs := by
      unfold Kernel.change at hkernel
      split at hkernel
      case isTrue hpossible => exact hpossible
      case isFalse _ => cases hkernel
    rw [← heq]
    exact h.change (hgentle hpossible) hkernel
  cases happening with
  | turn who reply => exact h.turn hcalm hstep
  | signal who number g =>
      simp only [happen] at hstep
      split at hstep
      case h_1 _ => cases hstep
      case h_2 proc hproc =>
        split at hstep
        case isFalse _ => cases hstep
        case isTrue hrunning =>
          injection hstep with hstep
          rw [← hstep]
          exact h.signal hproc hrunning
  | make parent name =>
      exact hchange _ (fun hpossible => h.gentle_make hpossible hcalm) hstep
  | remove parent name =>
      exact hchange _ (fun hpossible => h.gentle_remove hpossible) hstep
  | rename oldParent old newParent new cookie =>
      exact hchange _ (fun hpossible => h.gentle_rename hpossible hcalm) hstep
  | tell dir record =>
      exact hchange _ (fun hpossible => h.gentle_tell hpossible) hstep

structure IsTree (dirs : List (List FileName)) : Prop where
  closed : forall path name, path ++ [name] ∈ dirs -> path ∈ dirs
  nodup : dirs.Nodup

theorem orderly_started {fuel : Nat} {srcPath destPath : Bytes}
    {dirs : List (List FileName)} (htree : IsTree dirs) :
    Orderly srcPath (started fuel srcPath destPath dirs) := by
  have hfresh : Fresh srcPath daemonOwn (Globals.start srcPath destPath) :=
    ⟨Nat.one_pos, rfl, rfl, rfl, rfl⟩
  have hclaims : forall path,
      tally (claims (started fuel srcPath destPath dirs).world)
        (started fuel srcPath destPath dirs).procs path = [[]].count path := by
    intro path
    change tally _ [_] path = _
    rw [tally_cons, tally_nil]
    rfl
  have hunclaimed : forall path, path ≠ [] ->
      Unclaimed (started fuel srcPath destPath dirs) path := by
    intro path hne
    rw [unclaimed_iff, hclaims]
    exact List.count_eq_zero.mpr (by simpa using hne)
  have hsmall : forall path : List FileName, [[]].count path ≤ 1 :=
    fun path => List.nodup_iff_count_le_one.mp (List.nodup_singleton _) path
  constructor
  case numbered => exact Pool.numbered_single rfl
  case conduct =>
    intro proc hmem
    rw [List.mem_singleton.mp hmem]
    exact heeds_daemon hfresh
  case unborn => exact fun _ _ => ⟨rfl, rfl, rfl, rfl⟩
  case arrived => exact fun _ _ _ => rfl
  case closed => exact htree.closed
  case nodup => exact htree.nodup
  case watch =>
    intro proc _ _ dir hdir
    cases hdir
  case tidy =>
    constructor
    case once =>
      intro path
      exact Nat.le_trans (tally_held_le _ path) (hclaims path ▸ hsmall path)
    case single =>
      intro path _
      exact hclaims path ▸ hsmall path
    case deep =>
      intro dir _ hclaimed _ path _ hbelow hne
      apply hunclaimed
      intro hnil
      rw [hnil] at hbelow hne
      exact hne (List.prefix_nil.mp hbelow).symm

theorem Orderly.run {happenings : List Happening} (h : Orderly site house)
    (hcalm : AllSteps (happen site) (Calm site) house happenings)
    (hrun : Foundation.run (happen site) house happenings = some house') :
    Orderly site house' :=
  run_invariant (Orderly site)
    (fun _ _ _ horderly hguard hstep => horderly.step hguard hstep) h hcalm
    hrun

/-- A process that forks, adds a watch or reads has not begun `finish`, one that
closes its watch has, and it watches its own directory. -/
theorem needs_in_calm_run {fuel : Nat} {srcPath destPath : Bytes}
    {dirs : List (List FileName)} {happenings : List Happening} {own : Own Seat}
    {op : Call} {next : op.Answer -> Code Unit} (htree : IsTree dirs)
    (hcalm : AllSteps (happen srcPath) (Calm srcPath)
      (started fuel srcPath destPath dirs) happenings)
    (hrun : Foundation.run (happen srcPath)
      (started fuel srcPath destPath dirs) happenings = some house)
    (hproc : about own op next ∈ house.procs) : Needs srcPath op own :=
  (((orderly_started htree).run hcalm hrun).conduct _ hproc).left

end House

/-!
## A directory that is made late, and one that is made too early
-/

def steps (count who : Nat) (entry : Option Dirent) : List Happening :=
  List.replicate count
    (Happening.turn who
      { result := 3
        mode := S_IFDIR
        array := []
        opens := true
        entry := entry
        count := 0 })

def readsEvent (who : Nat) : Happening :=
  Happening.turn who
    { result := 32
      mode := S_IFDIR
      array := []
      opens := true
      entry := none
      count := 1 }

def lateRun : List Happening :=
  steps 10 0 none ++
    [Happening.make [] sampleName, readsEvent 0] ++
    steps 7 0 none ++ steps 9 1 none

/-- The directory is made when the daemon has opened the source and has still to
read it. -/
def raceRun : List Happening :=
  steps 9 0 none ++ [Happening.make [] sampleName] ++
    steps 1 0
      (some
        { name := text ['f']
          type := DT_DIR }) ++
    steps 2 0 none ++ [readsEvent 0] ++ steps 7 0 none

end Watchers
end Backuper
end UnixPrograms
