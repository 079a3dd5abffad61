import UnixPrograms.Backuper.Watchers

/-!
# What a process forks for

A process forks for the directories that its scan has found and for the names
of the events that it has read, once for each, and its child adds a watch for
exactly that directory.
-/

namespace UnixPrograms
namespace Backuper
namespace Watchers

open Foundation Program

/-!
## The contract
-/

/-- A fork is for something, and a watch is for the directory of the process.
Only `finish` closes the watch, and it does not fork or read any more. -/
def Needs (site : Bytes) : Call -> Own Seat -> Prop
  | Call.fork, own => own.data.next ≠ none ∧ own.data.ending = false
  | Call.inotifyAddWatch _ path _, own =>
      path = join site own.data.path ∧ own.data.ending = false
  | Call.read _, own => own.data.ending = false
  | Call.close _, own => own.data.ending = true
  | _, _ => True

def Does (site : Bytes) :
    (op : Call) -> Own Seat -> op.Answer -> Own Seat -> Prop
  | Call.fork, own, answer, own' =>
      exists pid, own.pid < pid ∧
        (answer = pid ∧ own' = (machine site).asParent own pid ∨
          answer = (0 : Nat) ∧ own' = (machine site).asChild own pid)
  | op, own, answer, own' =>
      exists reply kernel after kernel',
        CalmCall site reply op own kernel ∧
          act site reply op own kernel = some (answer, after, kernel') ∧
          own' = { own with data := after }

def QueryNeeds (site : Bytes) : Query -> Own Seat -> Prop
  | Sum.inl op, own => Needs site op own
  | Sum.inr _, own =>
      own.data.stage ≠ Stage.starting ∧ own.data.ending = false

def QueryDoes (site : Bytes) :
    (query : Query) -> Own Seat -> query.Answer -> Own Seat -> Prop
  | Sum.inl op, own, answer, own' => Does site op own answer own'
  | Sum.inr (Scan.readdir source), own, answer, own' =>
      exists reply kernel after kernel',
        readEntry reply source own kernel = some (answer, after, kernel') ∧
          own' = { own with data := after }

def conduct (site : Bytes) : Contract Query Query.Answer (Own Seat) where
  needs := QueryNeeds site
  does := QueryDoes site

abbrev Obeys {alpha : Type} (site : Bytes) (post : Own Seat -> alpha -> Prop)
    (own : Own Seat) (code : Backuper.Code alpha) : Prop :=
  Ensures (restrict (conduct site)) (fun _ _ => True) post own code

abbrev Heeds {alpha : Type} (site : Bytes) (post : Own Seat -> alpha -> Prop)
    (own : Own Seat) (code : Code alpha) : Prop :=
  Ensures (conduct site) (fun _ _ => True) post own code

theorem heeds_plain {alpha : Type} {site : Bytes}
    {post : Own Seat -> alpha -> Prop} {own : Own Seat}
    {code : Backuper.Code alpha} (h : Obeys site post own code) :
    Heeds site post own (plain code) :=
  Ensures.embed h

section Code

variable {alpha : Type} {site : Bytes} {own : Own Seat}

theorem act_seat {op : Call} {reply : Reply} {kernel kernel' : Kernel}
    {answer : op.Answer} {after : Seat}
    (hact : act site reply op own kernel = some (answer, after, kernel')) :
    after.path = own.data.path ∧
      (after.ending = false -> own.data.ending = false) ∧
      (own.data.stage ≠ Stage.starting -> after.stage ≠ Stage.starting) := by
  cases op with
  | lstat path =>
      have hlooked : forall directory result,
          (own.data.looked site path directory result).path = own.data.path ∧
            ((own.data.looked site path directory result).ending = false ->
              own.data.ending = false) ∧
            (own.data.looked site path directory result).stage =
              own.data.stage := by
        intro directory result
        unfold Seat.looked
        split
        · split <;> exact ⟨rfl, id, rfl⟩
        · split
          · exact ⟨rfl, fun hcontra => absurd hcontra (by simp), rfl⟩
          · exact ⟨rfl, id, rfl⟩
      have hkeeps : forall directory result,
          after = own.data.looked site path directory result ->
          after.path = own.data.path ∧
            (after.ending = false -> own.data.ending = false) ∧
            (own.data.stage ≠ Stage.starting ->
              after.stage ≠ Stage.starting) := by
        intro directory result heq
        rcases hlooked directory result with ⟨hpath, hending, hstage⟩
        rw [heq]
        exact ⟨hpath, hending, fun h => hstage ▸ h⟩
      simp only [act] at hact
      split at hact
      · split at hact
        · cases hact
          exact hkeeps true 0 rfl
        · cases hact
      · split at hact
        · cases hact
        · cases hact
          exact hkeeps false reply.result rfl
  | opendir path =>
      simp only [act] at hact
      split at hact
      · cases hact
        exact ⟨rfl, id, id⟩
      · split at hact
        · split at hact
          · cases hact
            exact ⟨rfl, id, fun _ => Stage.noConfusion⟩
          · cases hact
        · cases hact
          exact ⟨rfl, id, id⟩
  | inotifyAddWatch fd path mask =>
      simp only [act] at hact
      split at hact
      · cases hact
        exact ⟨rfl, id, id⟩
      · cases hact
        exact ⟨rfl, id, id⟩
  | read fd =>
      simp only [act] at hact
      split at hact
      · cases hact
        exact ⟨rfl, fun hcontra => absurd hcontra (by simp), id⟩
      · split at hact
        · cases hact
          exact ⟨rfl, id, id⟩
        · cases hact
  | fork => cases hact
  | _ =>
      cases hact
      exact ⟨rfl, id, id⟩

theorem obeys_ask {op : Call} {post : Own Seat -> op.Answer -> Prop}
    (hforks : Backuper.forks op = none) (hneeds : Needs site op own)
    (h : forall reply kernel answer after kernel',
      CalmCall site reply op own kernel ->
      act site reply op own kernel = some (answer, after, kernel') ->
      post { own with data := after } answer) :
    Obeys site post own (ask op) := by
  constructor
  · exact hneeds
  · intro answer own' hdoes
    cases op with
    | fork => cases hforks
    | _ =>
        rcases hdoes with ⟨reply, kernel, after, kernel', hcalm, hact, heq⟩
        rw [heq]
        exact h reply kernel answer after kernel' hcalm hact

def isPlain : Call -> Bool
  | Call.localArray => true
  | Call.log _ => true
  | Call.closedir => true
  | Call.mkdir _ _ => true
  | Call.cp _ _ => true
  | Call.rm _ => true
  | Call.getpid => true
  | Call.setgid _ => true
  | Call.killpg _ _ => true
  | Call.inotifyInit => true
  | Call.usleep _ => true
  | Call.print _ => true
  | Call.openLog => true
  | _ => false

theorem plain_act {op : Call} (hplain : isPlain op = true) {reply : Reply}
    {kernel kernel' : Kernel} {answer : op.Answer} {after : Seat}
    (hact : act site reply op own kernel = some (answer, after, kernel')) :
    after = own.data := by
  cases op with
  | lstat _ | opendir _ | fork | inotifyAddWatch _ _ _ | signal _ | read _
  | close _ => cases hplain
  | localArray | log _ | closedir | mkdir _ _ | cp _ _ | rm _ | getpid
  | setgid _ | killpg _ _ | inotifyInit | usleep _ | print _ | openLog =>
      cases hact
      rfl

theorem obeys_plain {op : Call} {post : Own Seat -> op.Answer -> Prop}
    (hplain : isPlain op = true) (h : forall answer, post own answer) :
    Obeys site post own (ask op) := by
  have hforks : Backuper.forks op = none := by
    cases op <;> first | rfl | cases hplain
  have hneeds : Needs site op own := by
    cases op <;> trivial
  apply obeys_ask hforks hneeds
  intro reply kernel answer after kernel' _ hact
  rw [plain_act hplain hact]
  exact h answer

theorem obeys_getpid {post : Own Seat -> Nat -> Prop}
    (h : post own own.pid) : Obeys site post own getpid := by
  apply @obeys_ask site own Call.getpid post rfl trivial
  intro reply kernel answer after kernel' _ hact
  cases hact
  exact h

theorem obeys_log {post : Own Seat -> Unit -> Prop} {message : Bytes}
    (h : post own ()) : Obeys site post own (daemonLog message) :=
  @obeys_plain site own (Call.log message) post rfl (fun _ => h)

theorem obeys_fork {post : Own Seat -> Nat -> Prop}
    (hnext : own.data.next ≠ none) (hending : own.data.ending = false)
    (h : forall pid, own.pid < pid ->
      post ((machine site).asParent own pid) pid ∧
        post ((machine site).asChild own pid) 0) :
    Obeys site post own fork := by
  constructor
  · exact ⟨hnext, hending⟩
  · rintro answer own' ⟨pid, hpid, ⟨hanswer, heq⟩ | ⟨hanswer, heq⟩⟩
    · rw [hanswer, heq]
      exact (h pid hpid).left
    · rw [hanswer, heq]
      exact (h pid hpid).right

theorem obeys_fail {post : Own Seat -> alpha -> Prop} {message : Nat -> Bytes}
    {status : Nat} :
    Obeys site post own (do
      let pid ← getpid
      daemonLog (message pid)
      halt (Stop.exit status)) := by
  apply Ensures.bind
  apply obeys_getpid
  apply Ensures.bind
  apply obeys_log
  trivial

/-!
## The end of a process
-/

theorem obeys_sendChildren {post : Own Seat -> Unit -> Prop} {signal : Nat}
    (h : post own ()) : Obeys site post own (sendChildren signal) := by
  apply Ensures.bind
  apply @obeys_plain site own Call.getpid _ rfl
  intro pid
  apply Ensures.bind
  apply @obeys_plain site own (Call.setgid _) _ rfl
  intro _
  exact @obeys_plain site own (Call.killpg _ _) _ rfl (fun _ => h)

theorem obeys_finish {post : Own Seat -> Unit -> Prop} {g : Globals}
    (hend : own.data.ending = true) : Obeys site post own (finish g) := by
  unfold finish
  extract_lets done goodbye dest
  have hisAlife : forall {own : Own Seat} {post : Own Seat -> Bool -> Prop}
      {path : Bytes}, own.data.ending = true ->
      (forall own' alive, own'.data.ending = true -> post own' alive) ->
      Obeys site post own (isAlife path) := by
    intro own post path hend h
    apply Ensures.bind
    apply @obeys_ask site own (Call.lstat path) _ rfl trivial
    rintro reply kernel ⟨res, mode⟩ after kernel' _ hact
    have hstill : after.ending = true := by
      by_contra hcontra
      have hbefore := (act_seat hact).right.left (by simpa using hcontra)
      rw [hend] at hbefore
      cases hbefore
    apply Ensures.ite <;> exact fun _ => h _ _ hstill
  have hdone : forall own r, Obeys site post own (done r) :=
    fun _ _ => trivial
  have hgoodbye : forall own r, own.data.ending = true ->
      Obeys site post own (goodbye r) := by
    intro own _ hend
    apply Ensures.bind
    apply @obeys_ask site own (Call.close g.inFd) _ rfl hend
    intro reply kernel answer after kernel' _ hact
    cases hact
    apply Ensures.bind
    apply obeys_sendChildren
    apply Ensures.bind
    apply obeys_getpid
    apply Ensures.bind
    apply obeys_log
    apply Ensures.bind
    apply obeys_getpid
    apply Ensures.ite
    · intro _
      apply Ensures.bind
      apply @obeys_plain site own (Call.usleep 1000000) _ rfl
      intro _
      apply Ensures.bind
      apply obeys_log
      exact hdone own ()
    · intro _
      exact hdone own ()
  have hdest : forall own r, own.data.ending = true ->
      Obeys site post own (dest r) := by
    intro own _ hend
    apply Ensures.bind
    apply hisAlife hend
    intro own' alive hend
    apply Ensures.ite
    · intro _
      apply Ensures.bind
      exact @obeys_plain site own' Call.closedir _ rfl
        (fun r => hgoodbye own' r hend)
    · intro _
      exact hgoodbye own' () hend
  apply Ensures.bind
  apply hisAlife hend
  intro own' alive hend
  apply Ensures.ite
  · intro _
    apply Ensures.bind
    exact @obeys_plain site own' Call.closedir _ rfl
      (fun r => hdest own' r hend)
  · intro _
    exact hdest own' () hend

theorem named_own (seat : Seat) (site : Bytes) :
    seat.named site (join site seat.path) = none := by
  unfold Seat.named
  rw [List.find?_eq_none]
  intro name _
  simp only [decide_eq_true_eq]
  intro heq
  have hlength := congrArg List.length (join_injective heq)
  simp at hlength

theorem obeys_checkFolder {post : Own Seat -> Unit -> Prop} {g : Globals}
    (hsrc : g.srcPath = join site own.data.path) (h : post own ()) :
    Obeys site post own (checkFolder g) := by
  rw [checkFolder, isAlife]
  apply Ensures.bind
  apply Ensures.bind
  apply @obeys_ask site own (Call.lstat g.srcPath) _ rfl trivial
  rintro reply kernel ⟨res, mode⟩ after kernel' _ hact
  have hanswer : (res = -1 -> after.ending = true) ∧
      (res ≠ -1 -> after = own.data) := by
    simp only [act, Seat.looked, hsrc, named_own] at hact
    split at hact
    · split at hact
      · cases hact
        constructor
        · intro hcontra
          exact absurd hcontra (by decide)
        · intro _
          exact if_neg (fun hboth => absurd hboth.right (by decide))
      · cases hact
    · split at hact
      · cases hact
      · cases hact
        constructor
        · intro hres
          rw [if_pos ⟨trivial, hres⟩]
        · intro hres
          exact if_neg (fun hboth => hres hboth.right)
  apply Ensures.ite
  · intro hres
    apply Ensures.ite
    · intro _
      exact obeys_finish (hanswer.left hres)
    · intro hcontra
      exact absurd Bool.false_ne_true hcontra
  · intro hres
    apply Ensures.ite
    · intro hcontra
      exact absurd hcontra (by simp)
    · intro _
      rw [hanswer.right hres]
      exact h

theorem obeys_signalHandler {post : Own Seat -> Unit -> Prop} {number : Nat}
    {g : Globals} (hsrc : g.srcPath = join site own.data.path)
    (hstop : number = SIG_STOP -> own.data.ending = true)
    (h : number ≠ SIG_STOP -> post own ()) :
    Obeys site post own (signalHandler number g) := by
  apply Ensures.ite
  · intro hnumber
    exact obeys_finish (hstop hnumber)
  · intro hnumber
    exact obeys_checkFolder hsrc (h hnumber)

/-!
## The scan
-/

theorem obeys_createInotify {post : Own Seat -> Globals -> Prop} {g : Globals}
    (hsrc : g.srcPath = join site own.data.path)
    (hending : own.data.ending = false)
    (h : forall fd, post own { g with inFd := fd }) :
    Obeys site post own (createInotify g) := by
  apply Ensures.bind
  apply @obeys_plain site own Call.inotifyInit _ rfl
  intro (fd : Int)
  apply Ensures.ite
  · intro _
    apply Ensures.bind
    apply obeys_log
    trivial
  · intro _
    apply Ensures.bind
    apply @obeys_ask site own (Call.inotifyAddWatch fd g.srcPath watchMask) _
      rfl ⟨hsrc, hending⟩
    intro reply kernel (watch : Int) after kernel' _ hact
    have hafter : after = own.data := by
      simp only [act] at hact
      split at hact <;> cases hact <;> rfl
    rw [hafter]
    apply Ensures.ite
    · intro _
      apply Ensures.bind
      apply obeys_log
      trivial
    · intro _
      exact h fd

def opened (own : Own Seat) (found : List FileName) : Own Seat :=
  { own with
    data :=
      { own.data with
        stage := Stage.scanning
        found := found } }

theorem obeys_openOwn {post : Own Seat -> List Dirent -> Prop}
    (hfresh : own.data.stage = Stage.starting)
    (h : forall found, post (opened own found) []) :
    Obeys site post own (openDir (join site own.data.path) Age.OLD) := by
  apply Ensures.bind
  apply @obeys_ask site own (Call.opendir _) _ rfl trivial
  intro reply kernel (dir : Option (List Dirent)) after kernel' _ hact
  simp only [act, hfresh, and_self, if_true] at hact
  apply Ensures.ite
  · intro hnew
    cases hnew.left
  · intro _
    split at hact
    case isTrue _ =>
      cases hact
      exact obeys_fail
    case isFalse _ =>
      split at hact
      case isTrue _ =>
        cases hact
        exact h _
      case isFalse _ => cases hact

theorem obeys_openOther {post : Own Seat -> List Dirent -> Prop} {path : Bytes}
    {flag : Age} (hopened : own.data.stage ≠ Stage.starting)
    (h : forall stream, post own stream) :
    Obeys site post own (openDir path flag) := by
  have hopen : forall {post : Own Seat -> Option (List Dirent) -> Prop},
      (forall dir, post own dir) -> Obeys site post own (opendir path) := by
    intro post h
    apply @obeys_ask site own (Call.opendir path) post rfl trivial
    intro reply kernel answer after kernel' _ hact
    simp only [act, hopened, and_false, if_false] at hact
    split at hact
    · cases hact
      exact h _
    · cases hact
      exact h _
  unfold openDir
  extract_lets done again
  have hdone : forall dir, Obeys site post own (done dir) := by
    intro dir
    cases dir with
    | some stream => exact h stream
    | none => exact obeys_fail
  have hagain : forall r, Obeys site post own (again r) := by
    intro _
    apply Ensures.bind
    exact hopen hdone
  apply Ensures.bind
  apply hopen
  intro dir
  apply Ensures.ite
  · intro _
    apply Ensures.bind
    apply @obeys_plain site own (Call.mkdir path S_IRWXU) _ rfl
    intro (check : Int)
    apply Ensures.ite
    · intro _
      exact obeys_fail
    · intro _
      exact hagain ()
  · intro _
    exact hdone dir

theorem FileName.bytes_of_ofBytes {bytes : Bytes} {name : FileName}
    (h : FileName.ofBytes bytes = some name) : name.bytes = bytes := by
  unfold FileName.ofBytes at h
  split at h
  case isTrue _ =>
    injection h with h
    rw [← h]
  case isFalse _ => cases h

structure Fresh (site : Bytes) (own : Own Seat) (g : Globals) : Prop where
  born : 0 < own.pid
  srcPath : g.srcPath = join site own.data.path
  ending : own.data.ending = false
  stage : own.data.stage = Stage.starting
  looking : own.data.looking = none

structure Scanning (site : Bytes) (own : Own Seat) (g : Globals) : Prop where
  born : 0 < own.pid
  srcPath : g.srcPath = join site own.data.path
  ending : own.data.ending = false
  stage : own.data.stage = Stage.scanning
  looking : own.data.looking = none

structure Working (site : Bytes) (own : Own Seat) (g : Globals) : Prop where
  born : 0 < own.pid
  srcPath : g.srcPath = join site own.data.path
  ending : own.data.ending = false
  stage : own.data.stage = Stage.scanned

structure Settled (site : Bytes) (own : Own Seat) (g : Globals) : Prop
    extends Working site own g where
  looking : own.data.looking = none

theorem Settled.congr {g g' : Globals} (h : Settled site own g)
    (hsrc : g'.srcPath = g.srcPath) : Settled site own g' where
  toWorking := ⟨h.born, hsrc.trans h.srcPath, h.ending, h.stage⟩
  looking := h.looking

theorem fresh_child {g : Globals} {name : FileName} {pid : Nat}
    (hnext : own.data.next = some name) (hpid : own.pid < pid)
    (hending : own.data.ending = false)
    (hsrc : g.srcPath = join site own.data.path ++ SLASH :: name.bytes) :
    Fresh site ((machine site).asChild own pid) g where
  born := Nat.lt_of_le_of_lt (Nat.zero_le _) hpid
  srcPath := by
    change g.srcPath = join site (own.data.path ++ own.data.next.toList)
    rw [hnext, Option.toList_some, join_concat]
    exact hsrc
  ending := hending
  stage := rfl
  looking := rfl

def delivered (own : Own Seat) (name : FileName) (found : List FileName) :
    Own Seat :=
  { own with
    data :=
      { own.data with
        looking := some name
        found := found } }

def atEnd (own : Own Seat) : Own Seat :=
  { own with
    data :=
      { own.data with
        stage := Stage.scanned
        found := [] } }

theorem heeds_readdir {post : Own Seat -> Option Dirent × List Dirent -> Prop}
    {source : List Dirent} (hstage : own.data.stage = Stage.scanning)
    (hending : own.data.ending = false)
    (hend : post (atEnd own) (none, source))
    (hother : forall file, ¬ Forks file -> post own (some file, source))
    (hdir : forall file name found, Forks file -> name.bytes = file.name ->
      post (delivered own name found) (some file, source)) :
    Heeds site post own (readdir source) := by
  constructor
  · refine ⟨?_, hending⟩
    rw [hstage]
    exact Stage.noConfusion
  · rintro answer own' ⟨reply, kernel, after, kernel', hread, heq⟩
    have hnot : own.data.stage ≠ Stage.scanned := by
      rw [hstage]
      exact Stage.noConfusion
    rw [heq]
    unfold readEntry at hread
    rw [if_neg hnot] at hread
    split at hread
    case h_1 _ =>
      cases hread
      exact hend
    case h_2 file _ =>
      split at hread
      case isFalse hforks =>
        cases hread
        exact hother file hforks
      case isTrue hforks =>
        split at hread
        case h_1 _ => cases hread
        case h_2 name hname =>
          have hbytes := FileName.bytes_of_ofBytes hname
          split at hread
          case isTrue _ =>
            cases hread
            exact hdir file name _ hforks hbytes
          case isFalse _ =>
            split at hread
            case isTrue _ =>
              cases hread
              exact hdir file name _ hforks hbytes
            case isFalse _ => cases hread

theorem heeds_readdir_behind
    {post : Own Seat -> Option Dirent × List Dirent -> Prop}
    {source : List Dirent} (hstage : own.data.stage = Stage.scanned)
    (hending : own.data.ending = false)
    (h : forall file, post own (file, source)) :
    Heeds site post own (readdir source) := by
  constructor
  · refine ⟨?_, hending⟩
    rw [hstage]
    exact Stage.noConfusion
  · rintro answer own' ⟨reply, kernel, after, kernel', hread, heq⟩
    rw [heq]
    rw [readEntry, if_pos hstage] at hread
    cases hread
    exact h reply.entry

theorem obeys_copyFile {post : Own Seat -> Unit -> Prop} {source dest : Bytes}
    (h : post own ()) : Obeys site post own (copyFile source dest) := by
  apply Ensures.bind
  apply obeys_log
  exact @obeys_plain site own (Call.cp source dest) post rfl (fun _ => h)

/-- The loop in which a child returns from its own scan ends at once. -/
theorem heeds_outerLoop {fuel : Nat} {post : Own Seat -> Globals -> Prop}
    {array : Bytes} {g : Globals} (h : Settled site own g)
    (hpost : forall g', Settled site own g' -> post own g') :
    Heeds site post own (copyLoop fuel 0 array g) := by
  cases fuel with
  | zero => trivial
  | succ fuel =>
      rw [copyLoop]
      apply Ensures.bind
      apply heeds_readdir_behind h.stage h.ending
      intro file
      cases file with
      | none => exact hpost _ (h.congr rfl)
      | some file => exact hpost _ (h.congr rfl)

def LoopHeeds (site : Bytes) (fuel : Nat) : Prop :=
  forall {own : Own Seat} {post : Own Seat -> Globals -> Prop} (last : Nat)
    (array : Bytes) (g : Globals), last ≠ 0 -> Scanning site own g ->
    (forall own' g', Settled site own' g' -> post own' g') ->
    Heeds site post own (copyLoop fuel last array g)

theorem heeds_copyDirectoryWith {fuel : Nat} (hloop : LoopHeeds site fuel)
    {post : Own Seat -> Globals -> Prop} {g : Globals}
    (hfresh : Fresh site own g)
    (h : forall own' g', Settled site own' g' -> post own' g') :
    Heeds site post own (copyDirectoryWith (copyLoop fuel) g) := by
  apply Ensures.bind
  apply heeds_plain
  apply obeys_createInotify hfresh.srcPath hfresh.ending
  intro fd
  apply Ensures.bind
  simp only [hfresh.srcPath]
  apply heeds_plain
  apply obeys_openOwn hfresh.stage
  intro found
  apply Ensures.bind
  apply heeds_plain
  apply obeys_openOther Stage.noConfusion
  intro dest
  apply Ensures.bind
  apply heeds_plain
  apply @obeys_plain site _ Call.localArray _ rfl
  intro array
  apply Ensures.bind
  apply heeds_plain
  apply obeys_getpid
  apply hloop
  · exact Nat.ne_of_gt hfresh.born
  · exact ⟨hfresh.born, rfl, hfresh.ending, rfl, hfresh.looking⟩
  · exact h

theorem loopHeeds (site : Bytes) (fuel : Nat) : LoopHeeds site fuel := by
  induction fuel with
  | zero =>
      intro own post last array g _ _ _
      trivial
  | succ fuel ih =>
      intro own post last array g hlast hscan h
      have hgo : forall array source,
          Heeds site post own
            (copyLoop fuel last array { g with source := source }) := by
        intro array source
        exact ih last array _ hlast
          ⟨hscan.born, hscan.srcPath, hscan.ending, hscan.stage, hscan.looking⟩ h
      rw [copyLoop]
      apply Ensures.bind
      apply heeds_readdir hscan.stage hscan.ending
      · exact h _ _ ⟨⟨hscan.born, hscan.srcPath, hscan.ending, rfl⟩, hscan.looking⟩
      · intro file hforks
        apply Ensures.ite
        · intro hzero
          exact absurd hzero hlast
        · intro _
          apply Ensures.ite
          · intro hname
            apply Ensures.ite
            · intro _
              apply Ensures.bind
              apply heeds_plain
              apply obeys_copyFile
              exact hgo _ _
            · intro hreg
              apply Ensures.ite
              · intro hdir
                exact absurd ⟨hname, hreg, hdir⟩ hforks
              · intro _
                apply Ensures.bind
                apply heeds_plain
                apply obeys_log
                exact hgo _ _
          · intro _
            exact hgo _ _
      · intro file name found hforks hbytes
        rcases hforks with ⟨hname, hreg, hdir⟩
        simp only [if_neg hlast, if_pos hname, if_neg hreg, if_pos hdir]
        apply Ensures.bind
        apply heeds_plain
        apply obeys_fork
        · exact Option.some_ne_none name
        · exact hscan.ending
        · intro pid hpid
          constructor
          · rw [if_neg (by lia)]
            apply ih pid _ _ (by lia) _ h
            exact ⟨hscan.born, hscan.srcPath, hscan.ending, hscan.stage, rfl⟩
          · rw [if_pos rfl]
            apply Ensures.bind
            apply heeds_plain
            apply obeys_getpid
            apply Ensures.bind
            apply heeds_plain
            apply obeys_log
            apply Ensures.bind
            apply heeds_copyDirectoryWith ih
            · apply fresh_child rfl hpid hscan.ending
              rw [makePath_eq, hscan.srcPath, ← hbytes]
              rfl
            · intro own' g' hsettled
              exact heeds_outerLoop hsettled (fun g'' h' => h own' g'' h')

/-!
## Events
-/

def shown (own : Own Seat) (name : FileName) (directory : Bool) : Own Seat :=
  { own with
    data :=
      if directory = true then
        { own.data with
          looking := some name
          handling := own.data.names.erase name }
      else
        { own.data with
          looking := none
          handling := own.data.names } }

theorem names_shown {name : FileName} (h : name ∈ own.data.names)
    (directory : Bool) :
    (shown own name directory).data.names.Perm own.data.names := by
  cases directory with
  | false => exact List.Perm.refl _
  | true => exact (List.perm_cons_erase h).symm

theorem named_eq {seat : Seat} {name : FileName} (h : name ∈ seat.names) :
    seat.named site (join site seat.path ++ SLASH :: name.bytes) =
      some name := by
  rw [← join_concat]
  unfold Seat.named
  cases hfind : seat.names.find?
      (fun name' => join site (seat.path ++ [name']) =
        join site (seat.path ++ [name])) with
  | none =>
      rw [List.find?_eq_none] at hfind
      exact absurd (decide_eq_true rfl) (hfind name h)
  | some name' =>
      have heq := List.find?_some hfind
      simp only [decide_eq_true_eq] at heq
      have hpath := join_injective heq
      simp only [List.append_cancel_left_eq, List.cons.injEq, and_true]
        at hpath
      rw [hpath]

theorem obeys_look {post : Own Seat -> Int × UInt32 -> Prop} {path : Bytes}
    {name : FileName} (hname : name ∈ own.data.names)
    (hpath : path = join site own.data.path ++ SLASH :: name.bytes)
    (h : forall result mode,
      post (shown own name (decide (mode &&& S_IFMT = S_IFDIR)))
        (result, mode)) :
    Obeys site post own (lstat path) := by
  apply @obeys_ask site own (Call.lstat path) post rfl trivial
  intro reply kernel answer after kernel' hcalm hact
  have hnamed : own.data.named site path = some name := by
    rw [hpath]
    exact named_eq hname
  simp only [act] at hact
  split at hact
  case h_1 dir _ =>
    split at hact
    case isTrue hmode =>
      cases hact
      have hshown := h 0 reply.mode
      rw [decide_eq_true hmode] at hshown
      simp only [Seat.looked, hnamed]
      exact hshown
    case isFalse _ => cases hact
  case h_2 hnone =>
    split at hact
    case isTrue _ => cases hact
    case isFalse _ =>
      cases hact
      have hmode : reply.mode &&& S_IFMT ≠ S_IFDIR := by
        apply hcalm _ hnone
        rw [hnamed]
        rfl
      have hshown := h reply.result reply.mode
      rw [decide_eq_false hmode] at hshown
      simp only [Seat.looked, hnamed]
      exact hshown

theorem obeys_isRegular {post : Own Seat -> Bool -> Prop} {path : Bytes}
    {name : FileName} (hname : name ∈ own.data.names)
    (hpath : path = join site own.data.path ++ SLASH :: name.bytes)
    (hregular : post (shown own name false) true)
    (hother : forall directory, post (shown own name directory) false) :
    Obeys site post own (isRegular path) := by
  apply Ensures.bind
  apply obeys_look hname hpath
  intro result mode
  apply Ensures.ite
  · intro _
    exact hother _
  · intro hmode
    rw [decide_eq_false (by rw [not_not.mp hmode]; decide)]
    exact hregular

theorem obeys_isDirectory {post : Own Seat -> Bool -> Prop} {path : Bytes}
    {name : FileName} (hname : name ∈ own.data.names)
    (hpath : path = join site own.data.path ++ SLASH :: name.bytes)
    (h : forall directory, post (shown own name directory) directory) :
    Obeys site post own (isDirectory path) := by
  apply Ensures.bind
  apply obeys_look hname hpath
  intro result mode
  apply Ensures.ite
  · intro hmode
    rw [decide_eq_false hmode]
    exact h false
  · intro hmode
    rw [decide_eq_true (not_not.mp hmode)]
    exact h true

def Ahead (own : Own Seat) (names : List FileName) : Prop :=
  names.Subperm own.data.handling

theorem Working.shown {g : Globals} (h : Working site own g) (name : FileName)
    (directory : Bool) : Working site (shown own name directory) g := by
  cases directory <;> exact ⟨h.born, h.srcPath, h.ending, h.stage⟩

theorem Working.settled {g : Globals} (h : Working site own g)
    (name : FileName) : Settled site (Watchers.shown own name false) g where
  toWorking := h.shown name false
  looking := rfl

theorem Working.fork {g : Globals} (h : Working site own g)
    (name : FileName) (pid : Nat) :
    Settled site ((machine site).asParent (Watchers.shown own name true) pid)
      g where
  toWorking := ⟨h.born, h.srcPath, h.ending, h.stage⟩
  looking := rfl

theorem heeds_eventCreate {fuel : Nat} {post : Own Seat -> Globals -> Prop}
    {name : FileName} {rest : List FileName} {g : Globals}
    (h : Settled site own g) (hahead : Ahead own (name :: rest))
    (hparent : forall own', Settled site own' g -> Ahead own' rest ->
      post own' g)
    (hchild : forall own' g', Settled site own' g' -> g'.checkFlag = false ->
      post own' g') :
    Heeds site post own (eventCreate fuel name.bytes g) := by
  have hnames : own.data.names = own.data.handling := by
    unfold Seat.names
    rw [h.looking]
    rfl
  have hmem : name ∈ own.data.names := by
    rw [hnames]
    exact hahead.subset List.mem_cons_self
  have hpath : forall array,
      makePath array g.srcPath name.bytes =
        join site own.data.path ++ SLASH :: name.bytes := by
    intro array
    rw [makePath_eq, h.srcPath]
  -- what is left in the array, with or without a fork
  have hleft : forall names : List FileName, names.Perm own.data.names ->
      rest.Subperm (names.erase name) := by
    intro names hperm
    have hcancel := (hahead.trans (hnames ▸ hperm).symm.subperm).erase name
    rw [List.erase_cons_head] at hcancel
    exact hcancel
  have hstay : forall own', Working site own' g ->
      own'.data.names.Perm own.data.names ->
      post (shown own' name false) g := by
    intro own' hworking hperm
    exact hparent _ (hworking.settled name)
      ((hleft _ hperm).trans List.erase_sublist.subperm)
  apply Ensures.bind
  apply heeds_plain
  apply @obeys_plain site own Call.localArray _ rfl
  intro (arraySrc : Bytes)
  apply Ensures.bind
  apply heeds_plain
  apply @obeys_plain site own Call.localArray _ rfl
  intro (arrayDest : Bytes)
  apply Ensures.bind
  apply heeds_plain
  apply obeys_isRegular hmem (hpath arraySrc)
  · rw [if_pos rfl]
    apply Ensures.bind
    apply heeds_plain
    apply obeys_copyFile
    exact hstay own h.toWorking (List.Perm.refl _)
  · intro looked
    have hperm := names_shown hmem looked
    have hworking := h.toWorking.shown name looked
    have hagain : makePath arraySrc g.srcPath name.bytes =
        join site (shown own name looked).data.path ++ SLASH :: name.bytes := by
      rw [makePath_eq, hworking.srcPath]
    rw [if_neg Bool.false_ne_true]
    apply Ensures.bind
    apply heeds_plain
    apply obeys_isDirectory (hperm.mem_iff.mpr hmem) hagain
    · intro directory
      cases directory with
      | false =>
          rw [if_neg Bool.false_ne_true]
          exact hstay _ hworking hperm
      | true =>
          rw [if_pos rfl]
          have hending := (hworking.shown name true).ending
          apply Ensures.bind
          apply heeds_plain
          apply obeys_fork
          · exact Option.some_ne_none name
          · exact hending
          · intro pid hpid
            constructor
            · rw [if_neg (by lia)]
              exact hparent _ (hworking.fork name pid) (hleft _ hperm)
            · rw [if_pos rfl]
              apply Ensures.bind
              apply heeds_plain
              apply obeys_getpid
              apply Ensures.bind
              apply heeds_plain
              apply obeys_log
              apply Ensures.bind
              apply heeds_copyDirectoryWith (loopHeeds site fuel)
              · exact fresh_child rfl hpid hending hagain
              · intro own' g' hsettled
                exact hchild own' _ (hsettled.congr rfl) rfl

theorem obeys_eventDelete {post : Own Seat -> Globals -> Prop} {name : Bytes}
    {g : Globals} (h : post own g) :
    Obeys site post own (eventDelete name g) := by
  apply Ensures.bind
  apply @obeys_plain site own Call.localArray _ rfl
  intro array
  apply Ensures.bind
  apply Ensures.bind
  apply obeys_log
  apply Ensures.bind
  apply @obeys_plain site own (Call.rm _) _ rfl
  intro _
  exact obeys_sendChildren h

def Waiting (own : Own Seat) (events : Bytes) (i left : Nat) : Prop :=
  exists names, namesFrom events i left = names.map FileName.bytes ∧
    Ahead own names

def Goes (site : Bytes) (events : Bytes) (i left : Nat) (own : Own Seat)
    (g : Globals) : Prop :=
  Settled site own g ∧ (g.checkFlag = true -> Waiting own events i left)

theorem heeds_handler {fuel i left : Nat} {events : Bytes}
    {post : Own Seat -> Globals -> Prop} {dispatch : Dispatch} {g : Globals}
    (hdispatch : checkEvent events i = some dispatch)
    (h : Settled site own g) (hwaiting : Waiting own events i (left + 1))
    (hpost : forall own' g', Goes site events (i + 1) left own' g' ->
      post own' g') :
    Heeds site post own (handlerCode fuel dispatch.name g dispatch.handler) := by
  rcases hwaiting with ⟨names, hnames, hahead⟩
  have hbrought : dispatch.handler.brings = true ->
      broughtAt events i = some dispatch.name := by
    intro hbrings
    unfold broughtAt
    rw [hdispatch]
    exact if_pos hbrings
  have hcreate : dispatch.handler.brings = true ->
      Heeds site post own (eventCreate fuel dispatch.name g) := by
    intro hbrings
    rw [namesFrom, List.range'_succ,
      List.filterMap_cons_some (hbrought hbrings)] at hnames
    cases names with
    | nil => cases hnames
    | cons name rest =>
        injection hnames with hname hrest
        rw [hname]
        apply heeds_eventCreate h hahead
        · intro own' hsettled hrest'
          exact hpost own' g ⟨hsettled, fun _ => ⟨rest, hrest, hrest'⟩⟩
        · intro own' g' hsettled hflag
          apply hpost own' g' ⟨hsettled, _⟩
          intro hset
          rw [hflag] at hset
          cases hset
  have hdelete : dispatch.handler.brings = false ->
      Obeys site post own (eventDelete dispatch.name g) := by
    intro hbrings
    have hnone : broughtAt events i = none := by
      unfold broughtAt
      rw [hdispatch]
      exact if_neg (by rw [hbrings]; exact Bool.false_ne_true)
    rw [namesFrom, List.range'_succ, List.filterMap_cons_none hnone] at hnames
    apply obeys_eventDelete
    exact hpost own g ⟨h, fun _ => ⟨names, hnames, hahead⟩⟩
  cases hkind : dispatch.handler with
  | eventCreate => exact hcreate (by rw [hkind]; rfl)
  | eventModify => exact hcreate (by rw [hkind]; rfl)
  | eventMoveTo =>
      apply Ensures.bind
      apply heeds_plain
      apply @obeys_plain site own (Call.usleep 1000) _ rfl
      intro _
      exact hcreate (by rw [hkind]; rfl)
  | eventDelete => exact heeds_plain (hdelete (by rw [hkind]; rfl))
  | eventMoveFrom => exact heeds_plain (hdelete (by rw [hkind]; rfl))

theorem heeds_handleEvent {fuel i left : Nat} {events : Bytes}
    {post : Own Seat -> Globals -> Prop} {g : Globals}
    (h : Settled site own g) (hwaiting : Waiting own events i (left + 1))
    (hpost : forall own' g', Goes site events (i + 1) left own' g' ->
      post own' g') :
    Heeds site post own (handleEvent fuel events i g) := by
  apply Ensures.bind
  apply heeds_plain
  apply obeys_checkFolder h.srcPath
  split
  case h_1 hnone =>
    rcases hwaiting with ⟨names, hnames, hahead⟩
    have hbrought : broughtAt events i = none := by
      unfold broughtAt
      rw [hnone]
    rw [namesFrom, List.range'_succ, List.filterMap_cons_none hbrought]
      at hnames
    exact hpost own g ⟨h, fun _ => ⟨names, hnames, hahead⟩⟩
  case h_2 dispatch hdispatch =>
    apply Ensures.bind
    apply heeds_plain
    apply obeys_log
    exact heeds_handler hdispatch h hwaiting hpost

theorem heeds_forEvents {fuel left i : Nat} {events : Bytes}
    {post : Own Seat -> Globals -> Prop} {g : Globals}
    (h : Goes site events i left own g)
    (hpost : forall own' g', Settled site own' g' -> post own' g') :
    Heeds site post own (forEvents fuel events left i g) := by
  induction left generalizing own i g with
  | zero => exact hpost own g h.left
  | succ left ih =>
      apply Ensures.ite
      · intro hflag
        apply Ensures.bind
        apply heeds_handleEvent h.left (h.right hflag)
        intro own' g' hgoes
        exact ih hgoes
      · intro _
        exact hpost own g h.left

/-!
## The daemon
-/

theorem filterMap_ofBytes (names : List FileName) :
    (names.map FileName.bytes).filterMap FileName.ofBytes = names := by
  induction names with
  | nil => rfl
  | cons name names ih =>
      rw [List.map_cons,
        List.filterMap_cons_some (FileName.ofBytes_bytes name), ih]

theorem obeys_read {post : Own Seat -> Int × Bytes -> Prop} {fd : Int}
    {g : Globals} (h : Settled site own g)
    (hend : forall own' resRead events, eventCount resRead ≤ 0 ->
      own'.data.ending = true -> post own' (resRead, events))
    (hevents : forall own' resRead events, 0 < eventCount resRead ->
      Settled site own' g ->
      Waiting own' events 0 (eventCount resRead).toNat ->
      post own' (resRead, events)) :
    Obeys site post own (read fd) := by
  apply @obeys_ask site own (Call.read fd) post rfl h.ending
  intro reply kernel answer after kernel' hcalm hact
  simp only [act] at hact
  split at hact
  case isTrue hcount =>
    cases hact
    exact hend _ _ _ hcount rfl
  case isFalse hcount =>
    split at hact
    case isFalse _ => cases hact
    case isTrue _ =>
      cases hact
      have hnames := hcalm (Int.not_le.mp hcount)
      refine hevents _ _ _ (Int.not_le.mp hcount) ?_ ⟨_, hnames, ?_⟩
      · exact ⟨⟨h.born, h.srcPath, h.ending, h.stage⟩, rfl⟩
      · unfold Ahead
        change List.Subperm _ (List.filterMap _ (namesFrom _ _ _))
        rw [hnames, filterMap_ofBytes]

theorem heeds_whileWorking {fuel rounds : Nat}
    {post : Own Seat -> Globals -> Prop} {g : Globals}
    (h : Settled site own g)
    (hpost : forall own' g', own'.data.ending = true -> post own' g') :
    Heeds site post own (whileWorking fuel rounds g) := by
  induction rounds generalizing own g with
  | zero => trivial
  | succ rounds ih =>
      apply Ensures.bind
      apply heeds_plain
      apply obeys_read (@Settled.congr site own g { g with checkFlag := true } h rfl)
      · intro own' resRead events hcount hend
        apply Ensures.ite
        · intro _
          exact hpost _ _ hend
        · intro hcontra
          exact absurd hcount hcontra
      · intro own' resRead events hcount hsettled hwaiting
        apply Ensures.ite
        · intro hcontra
          exact absurd hcount (Int.not_lt.mpr hcontra)
        · intro _
          apply Ensures.bind
          apply heeds_forEvents ⟨hsettled, fun _ => hwaiting⟩
          intro own'' g'' hsettled'
          exact ih hsettled'

theorem heeds_daemon {fuel : Nat} {g : Globals} (h : Fresh site own g) :
    Heeds site (fun _ _ => True) own (daemon fuel g) := by
  have hsignal : forall {own : Own Seat} {number : Nat}
      {post : Own Seat -> Unit -> Prop},
      (forall caught, post
        { own with data := { own.data with caught := caught } } ()) ->
      Obeys site post own (ask (Call.signal number)) := by
    intro own number post h
    apply @obeys_ask site own (Call.signal number) post rfl trivial
    intro reply kernel answer after kernel' _ hact
    cases hact
    exact h _
  apply Ensures.bind
  apply heeds_plain
  apply obeys_getpid
  apply Ensures.bind
  apply heeds_plain
  apply hsignal
  intro first
  apply Ensures.bind
  apply heeds_plain
  apply hsignal
  intro both
  apply Ensures.bind
  apply heeds_copyDirectoryWith (loopHeeds site fuel)
  · exact ⟨h.born, h.srcPath, h.ending, h.stage, h.looking⟩
  · intro own' g' hsettled
    apply Ensures.bind
    apply heeds_whileWorking hsettled
    intro own'' g'' hend
    apply heeds_plain
    exact obeys_finish hend

end Code

end Watchers
end Backuper
end UnixPrograms
