import UnixPrograms.Foundation.Contract
import UnixPrograms.Backuper.Decoding
import UnixPrograms.Backuper.Watch

/-!
# The counterpart converges

For each name on its own: as long as an event of the name is queued, the last
one tells whether the file exists, and otherwise the code in hand leaves the
file in the counterpart as it is in the source, however the source changes
under its other names meanwhile.
-/

namespace UnixPrograms
namespace Backuper

open Foundation Program

/-!
## What the code does, as long as something is known of the source
-/

/-- The operations of the backuper, on a source directory of which only
`known` is known. -/
def working (watch : Watch) (known : Directory -> Prop) :
    Contract Call Call.Answer Directory where
  needs := fun _ _ => True
  does := fun op dest answer dest' =>
    exists source chance,
      known source ∧ perform watch source chance op dest = some (answer, dest')

abbrev Meets (watch : Watch) (known : Directory -> Prop)
    (post : Directory -> alpha -> Prop) (dest : Directory) (code : Code alpha) :
    Prop :=
  Ensures (working watch known) (fun _ _ => False) post dest code

def Watch.Keeps (watch : Watch) (g : Globals) : Prop :=
  g.srcPath = watch.globals.srcPath ∧ g.destPath = watch.globals.destPath

def Handler.brings : Handler -> Bool
  | eventCreate => true
  | eventDelete => false
  | eventModify => true
  | eventMoveTo => true
  | eventMoveFrom => false

section Code

variable {watch : Watch} {known : Directory -> Prop} {alpha : Type}
variable {dest : Directory}

theorem meets_localArray {post : Directory -> Bytes -> Prop}
    (h : forall array, post dest array) :
    Meets watch known post dest localArray := by
  constructor
  · trivial
  · rintro answer dest' ⟨source, chance, -, hperform⟩
    injection hperform with heq
    cases heq
    exact h _

theorem meets_getpid {post : Directory -> Nat -> Prop}
    (h : forall pid, post dest pid) : Meets watch known post dest getpid := by
  constructor
  · trivial
  · rintro answer dest' ⟨source, chance, -, hperform⟩
    injection hperform with heq
    cases heq
    exact h _

theorem meets_effect {op : Call} {unit : op.Answer} {after : Directory}
    {post : Directory -> op.Answer -> Prop}
    (heffect : forall source chance,
      perform watch source chance op dest = some (unit, after))
    (h : post after unit) : Meets watch known post dest (ask op) := by
  constructor
  · trivial
  · rintro answer dest' ⟨source, chance, -, hperform⟩
    rw [heffect source chance] at hperform
    injection hperform with heq
    cases heq
    exact h

theorem meets_log {post : Directory -> Unit -> Prop} {message : Bytes}
    (h : post dest ()) : Meets watch known post dest (daemonLog message) :=
  @meets_effect watch known dest (Call.log message) () dest post
    (fun _ _ => rfl) h

theorem meets_lstat {post : Directory -> Int × UInt32 -> Prop} {path : Bytes}
    (h : forall source result mode, known source ->
      LstatAllows watch source path result mode -> post dest (result, mode)) :
    Meets watch known post dest (lstat path) := by
  constructor
  · trivial
  · rintro answer dest' ⟨source, chance, hknown, hperform⟩
    change (if _ then _ else _) = _ at hperform
    split at hperform
    case isTrue hallows =>
      injection hperform with heq
      cases heq
      exact h source _ _ hknown hallows
    case isFalse _ => cases hperform

theorem meets_cp {post : Directory -> Unit -> Prop} {path target : Bytes}
    (h : forall source, known source ->
      post (cpInto watch source dest path target) ()) :
    Meets watch known post dest (ask (Call.cp path target)) := by
  constructor
  · trivial
  · rintro answer dest' ⟨source, chance, hknown, hperform⟩
    injection hperform with heq
    cases heq
    exact h source hknown

theorem meets_rm {post : Directory -> Unit -> Prop} {path : Bytes}
    (h : post (rmFrom watch dest path) ()) :
    Meets watch known post dest (ask (Call.rm path)) :=
  @meets_effect watch known dest (Call.rm path) () (rmFrom watch dest path) post
    (fun _ _ => rfl) h

theorem meets_sendChildren {post : Directory -> Unit -> Prop} {signal : Nat}
    (h : post dest ()) :
    Meets watch known post dest (sendChildren signal) := by
  apply Ensures.bind
  apply meets_getpid
  intro pid
  apply Ensures.bind
  apply @meets_effect watch known dest (Call.setgid (pid + 1)) () dest
  · intro _ _
    rfl
  · exact @meets_effect watch known dest (Call.killpg pid signal) () dest post
      (fun _ _ => rfl) h

theorem meets_isRegular {post : Directory -> Bool -> Prop} {name : FileName}
    (h : forall source, known source -> post dest (source name).isSome) :
    Meets watch known post dest
      (isRegular (watch.globals.srcPath ++ SLASH :: name.bytes)) := by
  apply Ensures.bind
  apply meets_lstat
  intro source result mode hknown hallows
  have hpost := h source hknown
  simp only [LstatAllows, nameIn_join] at hallows
  split at hallows
  case isTrue hsome =>
    rw [hsome] at hpost
    simp only [hallows.right, ne_eq, not_true, if_false]
    exact hpost
  case isFalse hnone =>
    rw [Bool.eq_false_of_not_eq_true hnone] at hpost
    simp only [ne_eq, hallows.right.left, not_false_iff, if_true]
    exact hpost

theorem meets_isDirectory {post : Directory -> Bool -> Prop} {name : FileName}
    (h : post dest false) :
    Meets watch known post dest
      (isDirectory (watch.globals.srcPath ++ SLASH :: name.bytes)) := by
  apply Ensures.bind
  apply meets_lstat
  intro source result mode _ hallows
  have hmode : mode &&& S_IFMT ≠ S_IFDIR := by
    simp only [LstatAllows, nameIn_join] at hallows
    split at hallows
    case isTrue _ =>
      rw [hallows.right]
      decide
    case isFalse _ => exact hallows.right.right
  simp only [ne_eq, hmode, not_false_iff, if_true]
  exact h

theorem meets_checkFolder {post : Directory -> Unit -> Prop} {g : Globals}
    (hg : watch.Keeps g) (h : post dest ()) :
    Meets watch known post dest (checkFolder g) := by
  apply Ensures.bind
  rw [isAlife, hg.left]
  apply Ensures.bind
  apply meets_lstat
  intro source result mode _ hallows
  simp only [LstatAllows, nameIn_self] at hallows
  rw [hallows trivial]
  exact h

theorem cpInto_join (source : Directory) (name : FileName) :
    cpInto watch source dest (watch.globals.srcPath ++ SLASH :: name.bytes)
        watch.globals.destPath =
      if (source name).isSome = true then
        Function.update dest name (source name)
      else dest := by
  simp only [cpInto, nameIn_join, and_true]

theorem meets_eventCreate {post : Directory -> Globals -> Prop} {fuel : Nat}
    {name : FileName} {g : Globals} (hg : watch.Keeps g)
    (hmissing : forall source, known source -> source name = none ->
      post dest g)
    (hcopied : forall source, known source -> source name ≠ none ->
      post (Function.update dest name (source name)) g) :
    Meets watch known post dest (eventCreate fuel name.bytes g) := by
  rw [eventCreate]
  apply Ensures.bind
  apply meets_localArray
  intro arraySrc
  apply Ensures.bind
  apply meets_localArray
  intro arrayDest
  simp only [makePath_eq, hg.left, hg.right]
  apply Ensures.bind
  apply meets_isRegular
  intro source hknown
  cases hsource : source name with
  | none =>
      apply Ensures.bind
      apply meets_isDirectory
      exact hmissing source hknown hsource
  | some content =>
      apply Ensures.bind
      apply Ensures.bind
      apply meets_log
      apply meets_cp
      intro later hlater
      rw [cpInto_join]
      cases hagain : later name with
      | none => exact hmissing later hlater hagain
      | some content' =>
          have hcopy := hcopied later hlater
          rw [hagain] at hcopy
          exact hcopy (Option.some_ne_none content')

theorem meets_eventDelete {post : Directory -> Globals -> Prop}
    {name : FileName} {g : Globals} (hg : watch.Keeps g)
    (h : post (Function.update dest name none) g) :
    Meets watch known post dest (eventDelete name.bytes g) := by
  rw [eventDelete]
  apply Ensures.bind
  apply meets_localArray
  intro array
  rw [makePath_eq, hg.right]
  apply Ensures.bind
  rw [del]
  apply Ensures.bind
  apply meets_log
  apply Ensures.bind
  apply meets_rm
  apply meets_sendChildren
  simp only [rmFrom, nameIn_join]
  exact h

theorem meets_handler {post : Directory -> Globals -> Prop} {fuel : Nat}
    {kind : Handler} {name : FileName} {g : Globals} (hg : watch.Keeps g)
    (hmissing : kind.brings = true -> forall source, known source ->
      source name = none -> post dest g)
    (hcopied : kind.brings = true -> forall source, known source ->
      source name ≠ none ->
        post (Function.update dest name (source name)) g)
    (hremoved : kind.brings = false -> post (Function.update dest name none) g) :
    Meets watch known post dest (kind.code fuel name.bytes g) := by
  cases kind with
  | eventCreate => exact meets_eventCreate hg (hmissing rfl) (hcopied rfl)
  | eventModify => exact meets_eventCreate hg (hmissing rfl) (hcopied rfl)
  | eventMoveTo =>
      apply Ensures.bind
      apply @meets_effect watch known dest (Call.usleep 1000) () dest
      · intro _ _
        rfl
      · exact meets_eventCreate hg (hmissing rfl) (hcopied rfl)
  | eventDelete => exact meets_eventDelete hg (hremoved rfl)
  | eventMoveFrom => exact meets_eventDelete hg (hremoved rfl)

theorem branchOf_mask {kind : Handler} {len : UInt32} (hlen : len ≠ 0) :
    branchOf kind.mask len = some kind := by
  simp only [branchOf, ne_eq, hlen, not_false_iff, and_true]
  cases kind <;> rfl

theorem record_len_ne_zero (wd : UInt32) (notice : Notice) :
    (notice.record wd).len ≠ 0 := by
  have hlength : (notice.record wd).name.length =
      EVENT_HEADER * (notice.name.bytes.length / EVENT_HEADER + 1) :=
    notice.name.field_length
  have hpositive : 0 < (notice.record wd).name.length := by
    rw [hlength]
    exact Nat.mul_pos (by decide) (Nat.succ_pos _)
  intro hzero
  have hnat := congrArg UInt32.toNat hzero
  rw [Record.len, UInt32.toNat_ofNat_of_lt' (notice.record wd).short] at hnat
  exact absurd hnat (Nat.ne_of_gt hpositive)

theorem checkEvent_notice (wd : UInt32) (notice : Notice) (stale : Bytes) :
    checkEvent ((notice.record wd).bytes ++ stale) 0 =
      some
        { handler := notice.kind
          mask := notice.kind.mask
          name := notice.name.bytes } := by
  have hbranch := @branchOf_mask notice.kind _ (record_len_ne_zero wd notice)
  rw [checkEvent_record, Record.dispatch]
  change (branchOf notice.kind.mask (notice.record wd).len).map _ = _
  rw [hbranch]
  exact congrArg some (by simp [Notice.record, FileName.cstr_field])

theorem meets_handleEvent {post : Directory -> Globals -> Prop} {fuel : Nat}
    {notice : Notice} {stale : Bytes} {g : Globals} (hg : watch.Keeps g)
    (h : Meets watch known post dest
      (notice.kind.code fuel notice.name.bytes g)) :
    Meets watch known post dest
      (handleEvent fuel ((notice.record watch.wd).bytes ++ stale) 0 g) := by
  rw [handleEvent]
  apply Ensures.bind
  apply meets_checkFolder hg
  rw [checkEvent_notice]
  apply Ensures.bind
  apply meets_log
  exact h

end Code

/-!
## The last event of a name

The events of a name are handled in their order, so that the last one decides.
It tells whether the file exists in the end.
-/

def lastFor (queue : List Notice) (name : FileName) : Option Notice :=
  (queue.filter (fun notice => notice.name = name)).getLast?

theorem lastFor_append (queue more : List Notice) (name : FileName) :
    lastFor (queue ++ more) name =
      (lastFor more name).or (lastFor queue name) := by
  rw [lastFor, List.filter_append, List.getLast?_append]
  rfl

theorem lastFor_singleton (notice : Notice) (name : FileName) :
    lastFor [notice] name = if notice.name = name then some notice else none := by
  rw [lastFor, List.filter_singleton]
  by_cases h : notice.name = name <;> simp [h]

theorem lastFor_cons (notice : Notice) (queue : List Notice)
    (name : FileName) :
    lastFor (notice :: queue) name =
      (lastFor queue name).or
        (if notice.name = name then some notice else none) := by
  rw [← List.singleton_append, lastFor_append, lastFor_singleton]

/-- The last event tells whether the file exists, and without an event the file
is as before. -/
def Tells (last : Option Notice) (before after : Option Bytes) : Prop :=
  match last with
  | none => after = before
  | some notice => notice.kind.brings = after.isSome

theorem tells_single {kind : Handler} {cookie : UInt32} {changed : FileName}
    {dir : Directory} {content : Option Bytes}
    (h : kind.brings = content.isSome) (name : FileName) :
    Tells (lastFor [⟨kind, cookie, changed⟩] name) (dir name)
      (Function.update dir changed content name) := by
  rw [lastFor_singleton]
  by_cases hname : changed = name
  · rw [if_pos hname, hname, Function.update_self]
    exact h
  · rw [if_neg hname, Function.update_of_ne (Ne.symm hname)]
    exact rfl

theorem Tells.trans {first second : Option Notice}
    {before between after : Option Bytes} (h1 : Tells first before between)
    (h2 : Tells second between after) :
    Tells (second.or first) before after := by
  cases second with
  | none =>
      change after = between at h2
      rw [h2]
      exact h1
  | some notice => exact h2

theorem Change.tells {dir : Directory} {c : Change}
    (hpossible : c.possible dir = true) (name : FileName) :
    Tells (lastFor c.notices name) (dir name) (c.apply dir name) := by
  cases c with
  | create changed content => exact tells_single rfl name
  | rewrite changed content => exact tells_single rfl name
  | delete changed => exact tells_single rfl name
  | moveInto changed content cookie => exact tells_single rfl name
  | moveOut changed cookie => exact tells_single rfl name
  | rename old new cookie =>
      by_cases hsame : old = new
      · simp only [Change.notices, Change.apply, if_pos hsame]
        exact rfl
      · simp only [Change.notices, Change.apply, if_neg hsame]
        have hbrings : Handler.eventMoveTo.brings = (dir old).isSome :=
          Eq.symm hpossible
        rw [lastFor_cons, ← lastFor_singleton]
        exact Tells.trans (tells_single rfl name) (tells_single hbrings name)

/-!
## The invariant

Each name is followed by itself: its last queued event tells whether the file
exists, or the code in hand leaves it in the counterpart as it is in the
source.
-/

namespace Mirror

/-- What holds of a name: its last event tells whether the file exists, or the
code in hand leaves the file in the counterpart as it is in the source. -/
def Tracks (watch : Watch) (s : Mirror) (name : FileName) : Prop :=
  match lastFor s.queue name with
  | some notice => notice.kind.brings = (s.source name).isSome
  | none =>
      Meets watch (fun source => source name = s.source name)
        (fun dest _ => dest name = s.source name) s.dest s.hand

structure Sound (watch : Watch) (s : Mirror) : Prop where
  /-- The backuper does not stop and does not leave its directory. -/
  running : Meets watch (fun _ => True) (fun _ g => watch.Keeps g) s.dest s.hand
  tracks : forall name, s.Tracks watch name

theorem Sound.start (watch : Watch) (agreed : Directory) :
    Sound watch (Mirror.start watch agreed) where
  running := ⟨rfl, rfl⟩
  tracks := fun _ => rfl

theorem Tracks.change {watch : Watch} {s : Mirror} {c : Change}
    {name : FileName} (h : s.Tracks watch name)
    (hpossible : c.possible s.source = true) :
    Tracks watch
      { s with
        source := c.apply s.source
        queue := s.queue ++ c.notices } name := by
  have htells := c.tells hpossible name
  rw [Tracks, lastFor_append]
  cases hlast : lastFor c.notices name with
  | none =>
      rw [hlast] at htells
      change c.apply s.source name = s.source name at htells
      simp only [Option.none_or, htells]
      exact h
  | some notice =>
      rw [hlast] at htells
      exact htells

theorem Tracks.take {watch : Watch} {fuel : Nat} {s : Mirror} {stale : Bytes}
    {g : Globals} {notice : Notice} {queue : List Notice} {name : FileName}
    (h : s.Tracks watch name) (hhand : s.hand = Program.ret g)
    (hqueue : s.queue = notice :: queue) (hg : watch.Keeps g) :
    Tracks watch
      { s with
        queue := queue
        hand :=
          handleEvent fuel ((notice.record watch.wd).bytes ++ stale) 0 g }
      name := by
  rw [Tracks, hqueue, lastFor_cons] at h
  rw [Tracks]
  cases hlast : lastFor queue name with
  | some later =>
      rw [hlast] at h
      exact h
  | none =>
      rw [hlast, Option.none_or] at h
      apply meets_handleEvent hg
      by_cases hname : notice.name = name
      · -- the event was the last one of this name
        rw [if_pos hname] at h
        have htells : notice.kind.brings = (s.source name).isSome := h
        rw [hname]
        apply meets_handler hg
        · intro hbrings source hknown hnone
          have hgone : s.source name = none := Eq.trans hknown.symm hnone
          rw [hbrings, hgone] at htells
          cases htells
        · intro _ source hknown _
          rw [Function.update_self]
          exact hknown
        · intro hbrings
          rw [hbrings] at htells
          rw [Function.update_self]
          exact (Option.not_isSome_iff_eq_none.mp
            (Bool.eq_false_iff.mp htells.symm)).symm
      · rw [if_neg hname, hhand] at h
        have hagree : s.dest name = s.source name := h
        have hframe : forall content,
            Function.update s.dest notice.name content name =
              s.source name := by
          intro content
          rw [Function.update_of_ne (Ne.symm hname)]
          exact hagree
        apply meets_handler hg
        · exact fun _ _ _ _ => hagree
        · exact fun _ source _ _ => hframe (source notice.name)
        · exact fun _ => hframe none

theorem meets_next {watch : Watch} {known : Directory -> Prop}
    {post : Directory -> Globals -> Prop} {s : Mirror} {chance : Chance}
    {op : Call} {next : op.Answer -> Code Globals} {answer : op.Answer}
    {dest : Directory} (h : Meets watch known post s.dest s.hand)
    (hknown : known s.source) (hhand : s.hand = Program.call op next)
    (hperform :
      perform watch s.source chance op s.dest = some (answer, dest)) :
    Meets watch known post dest (next answer) := by
  rw [hhand] at h
  exact h.right answer dest ⟨s.source, chance, hknown, hperform⟩

theorem Sound.step {watch : Watch} {fuel : Nat} {s s' : Mirror}
    {event : MirrorEvent} (h : Sound watch s)
    (hstep : mirror watch fuel s event = some s') : Sound watch s' := by
  cases MirrorMoves.of_step hstep with
  | change hpossible =>
      constructor
      case running => exact h.running
      case tracks => exact fun name => (h.tracks name).change hpossible
  | @take _ g _ _ hhand hqueue =>
      have hg : watch.Keeps g := by
        have hrunning := h.running
        rw [hhand] at hrunning
        exact hrunning
      constructor
      case running =>
        apply meets_handleEvent hg
        apply meets_handler hg
        · exact fun _ _ _ _ => hg
        · exact fun _ _ _ _ => hg
        · exact fun _ => hg
      case tracks => exact fun name => (h.tracks name).take hhand hqueue hg
  | work hhand hperform =>
      constructor
      case running => exact meets_next h.running trivial hhand hperform
      case tracks =>
        intro name
        have htracks := h.tracks name
        rw [Tracks] at htracks ⊢
        split
        case h_1 notice hlast =>
          rw [hlast] at htracks
          exact htracks
        case h_2 hlast =>
          rw [hlast] at htracks
          exact meets_next htracks rfl hhand hperform

theorem Sound.run {watch : Watch} {fuel : Nat} {events : List MirrorEvent}
    {s t : Mirror} (h : Sound watch s)
    (hrun : run (mirror watch fuel) s events = some t) : Sound watch t :=
  run_invariant (Sound watch) (fun _ _ _ hs _ hstep => hs.step hstep) h
    (allSteps_of_forall (fun _ _ => trivial) events _) hrun

theorem Sound.agrees {watch : Watch} {s : Mirror} (h : Sound watch s)
    (hquiet : s.Quiet) : s.dest = s.source := by
  rcases hquiet with ⟨hqueue, g, hhand⟩
  funext name
  have htracks := h.tracks name
  rw [Tracks, hqueue, hhand] at htracks
  exact htracks

end Mirror

/-!
## Main results
-/

/-- In every reachable state with no event queued or in hand, the counterpart
has the names and the contents of the source. -/
theorem backup_converges {watch : Watch} {fuel : Nat} {agreed : Directory}
    {events : List MirrorEvent} {s : Mirror}
    (hrun : run (mirror watch fuel) (Mirror.start watch agreed) events = some s)
    (hquiet : s.Quiet) : s.dest = s.source :=
  ((Mirror.Sound.start watch agreed).run hrun).agrees hquiet

def sampleWatch : Watch where
  wd := 1
  globals :=
    { inFd := 3
      checkFlag := true
      srcPath := text ['s']
      destPath := text ['d']
      source := []
      dest := []
      mainPid := 7 }

def sampleName : FileName where
  bytes := text ['f']
  nonempty := by decide
  noNul := by decide
  noSlash := by decide
  short := by decide
  proper := by decide

theorem backup_converges_create :
    exists s,
      run (mirror sampleWatch 0) (Mirror.start sampleWatch (fun _ => none))
          ([MirrorEvent.change (Change.create sampleName (text ['x'])),
            MirrorEvent.take []] ++
            List.replicate 7
              (MirrorEvent.work ⟨0, S_IFREG, 7, [], none⟩)) = some s ∧
        s.Quiet ∧ s.source sampleName = some (text ['x']) ∧
          s.dest = s.source := by
  have hrun : exists s,
      run (mirror sampleWatch 0) (Mirror.start sampleWatch (fun _ => none))
          ([MirrorEvent.change (Change.create sampleName (text ['x'])),
            MirrorEvent.take []] ++
            List.replicate 7
              (MirrorEvent.work ⟨0, S_IFREG, 7, [], none⟩)) = some s ∧
        s.Quiet ∧ s.source sampleName = some (text ['x']) :=
    ⟨_, rfl, ⟨rfl, _, rfl⟩, rfl⟩
  rcases hrun with ⟨s, hrun, hquiet, hsource⟩
  exact ⟨s, hrun, hquiet, hsource, backup_converges hrun hquiet⟩

/-!
The backuper gets there: it is never stuck in an event, and no change is needed
for it to go on.
-/

theorem perform_answers (watch : Watch) (source : Directory) (op : Call)
    (dest : Directory) :
    exists chance answer dest',
      perform watch source chance op dest = some (answer, dest') := by
  cases op with
  | lstat path =>
      have hallows : exists result mode,
          LstatAllows watch source path result mode := by
        cases hname : nameIn watch.globals.srcPath path with
        | none =>
            exists 0, 0
            rw [LstatAllows, hname]
            exact fun _ => rfl
        | some name =>
            cases hsource : source name with
            | none =>
                exists -1, 0
                simp only [LstatAllows, hname, hsource]
                decide
            | some content =>
                exists 0, S_IFREG
                simp only [LstatAllows, hname, hsource, Option.isSome_some,
                  if_true, true_and]
                decide
      rcases hallows with ⟨result, mode, hallows⟩
      exact ⟨⟨result, mode, 0, [], none⟩, (result, mode), dest, if_pos hallows⟩
  | _ => exact ⟨⟨0, 0, 0, [], none⟩, _, _, rfl⟩

def MirrorEvent.IsBackup : MirrorEvent -> Prop
  | change _ => False
  | take _ => True
  | work _ => True

theorem hand_ends {watch : Watch} {fuel : Nat} (code : Code Globals)
    {s : Mirror} (hhand : s.hand = code)
    (h : Meets watch (fun _ => True) (fun _ g => watch.Keeps g) s.dest code) :
    exists events t,
      (forall event, event ∈ events -> event.IsBackup) ∧
        run (mirror watch fuel) s events = some t ∧
        t.source = s.source ∧ t.queue = s.queue ∧
        exists g, t.hand = Program.ret g := by
  induction code generalizing s with
  | ret g =>
      exact ⟨[], s, fun _ hmem => absurd hmem List.not_mem_nil, rfl, rfl, rfl,
        g, hhand⟩
  | halt reason => exact absurd h id
  | call op next ih =>
      rcases perform_answers watch s.source op s.dest with
        ⟨chance, answer, dest, hperform⟩
      have hstep : mirror watch fuel s (MirrorEvent.work chance) =
          some
            { s with
              hand := next answer
              dest := dest } := by
        rw [mirror, hhand, Program.step, hperform]
        rfl
      have hnext :=
        h.right answer dest ⟨s.source, chance, trivial, hperform⟩
      rcases @ih answer
          { s with
            hand := next answer
            dest := dest } rfl hnext with
        ⟨events, t, hbackup, hrun, hsource, hqueue, hidle⟩
      refine ⟨MirrorEvent.work chance :: events, t, ?_, ?_, hsource, hqueue,
        hidle⟩
      · intro event hmem
        rcases List.mem_cons.mp hmem with heq | hrest
        · rw [heq]
          trivial
        · exact hbackup event hrest
      · rw [run_cons_of_step events hstep]
        exact hrun

/-- Without further changes the backuper makes the counterpart agree. -/
theorem backup_settles {watch : Watch} {fuel : Nat} {s : Mirror}
    (h : Mirror.Sound watch s) :
    exists events t,
      (forall event, event ∈ events -> event.IsBackup) ∧
        run (mirror watch fuel) s events = some t ∧
        t.source = s.source ∧ t.dest = s.source := by
  generalize hqueue : s.queue = queue
  induction queue generalizing s with
  | nil =>
      rcases @hand_ends watch fuel s.hand s rfl h.running with
        ⟨events, t, hbackup, hrun, hsource, hkept, hidle⟩
      refine ⟨events, t, hbackup, hrun, hsource, ?_⟩
      rw [← hsource]
      exact (h.run hrun).agrees ⟨hkept.trans hqueue, hidle⟩
  | cons notice queue ih =>
      rcases @hand_ends watch fuel s.hand s rfl h.running with
        ⟨first, mid, hfirst, hrunfirst, hsource, hkept, g, hidle⟩
      have htake : mirror watch fuel mid (MirrorEvent.take []) =
          some
            { mid with
              queue := queue
              hand :=
                handleEvent fuel
                  ((notice.record watch.wd).bytes ++ []) 0 g } := by
        rw [mirror, hidle, hkept, hqueue]
      rcases ih ((h.run hrunfirst).step htake) rfl with
        ⟨second, t, hsecond, hrunsecond, hsource', hagree⟩
      refine ⟨first ++ MirrorEvent.take [] :: second, t, ?_, ?_,
        hsource'.trans hsource, hagree.trans hsource⟩
      · intro event hmem
        rcases List.mem_append.mp hmem with hin | hin
        · exact hfirst event hin
        · rcases List.mem_cons.mp hin with heq | hrest
          · rw [heq]
            trivial
          · exact hsecond event hrest
      · apply run_append hrunfirst
        rw [run_cons_of_step second htake]
        exact hrunsecond

end Backuper
end UnixPrograms
