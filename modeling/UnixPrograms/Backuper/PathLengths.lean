import UnixPrograms.Backuper.PathBuffers

/-!
# Lengths that are known beforehand

A process that is forked for a directory has paths that are longer than those
of its parent by a slash and a name.  Its paths are therefore bounded by the
length of the arguments and by the number of forks between it and the daemon,
and a bound on the names decides beforehand that every string fits.
-/

namespace UnixPrograms
namespace Backuper
namespace Noting

open Foundation Program

def Note.Named (limit : Nat) : Note -> Prop
  | entry _ _ file => file.name.length ≤ limit
  | event _ _ dispatch => dispatch.name.length ≤ limit
  | _ => True

def Note.Within (limit room : Nat) : Note -> Prop
  | arguments srcPath destPath =>
      srcPath.length ≤ room ∧ destPath.length ≤ room
  | entry srcPath destPath _ | event srcPath destPath _ =>
      srcPath.length + (limit + 1) ≤ room ∧ destPath.length + (limit + 1) ≤ room
  | store _ _ => True

def IsBirth : Sigma (Noted Call.Answer Note) -> Bool
  | ⟨Sum.inl Call.fork, pid⟩ => (show Nat from pid) == 0
  | _ => false

def roomAfter (limit : Nat) (taken : Sigma (Noted Call.Answer Note))
    (room : Nat) : Nat :=
  if IsBirth taken = true then room + (limit + 1) else room

/-- Each fork into the child makes room for one more name. -/
def growing (limit : Nat) :
    Contract (Call ⊕ Note) (Noted Call.Answer Note) Nat where
  needs := fun op room =>
    match op with
    | Sum.inl _ => True
    | Sum.inr n => n.Within limit room
  does := fun op room answer room' =>
    room' = roomAfter limit ⟨op, answer⟩ room ∧
      match op with
      | Sum.inl _ => True
      | Sum.inr n => n.Named limit

def Grows {alpha : Type} (limit : Nat) (post : Nat -> alpha -> Prop)
    (room : Nat) (code : Code alpha) : Prop :=
  Ensures (growing limit) (fun _ _ => True) post room code

structure Spacious (limit room : Nat) (g : Globals) : Prop where
  src : g.srcPath.length + (limit + 1) ≤ room
  dest : g.destPath.length + (limit + 1) ≤ room

section Rules

variable {limit room : Nat} {alpha beta : Type}

theorem le_roomAfter (taken : Sigma (Noted Call.Answer Note)) :
    room ≤ roomAfter limit taken room := by
  unfold roomAfter
  split
  · exact Nat.le_add_right _ _
  · exact le_refl _

theorem Spacious.mono {room' : Nat} {g : Globals} (h : Spacious limit room g)
    (hle : room ≤ room') : Spacious limit room' g :=
  ⟨h.src.trans hle, h.dest.trans hle⟩

theorem Grows.bind {middle : Nat -> alpha -> Prop} {post : Nat -> beta -> Prop}
    {first : Code alpha} {rest : alpha -> Code beta}
    (hfirst : Grows limit middle room first)
    (hrest : forall room value, middle room value ->
      Grows limit post room (rest value)) :
    Grows limit post room (first >>= rest) :=
  Ensures.seq hfirst hrest

theorem Grows.note {post : Nat -> alpha -> Prop} {n : Note}
    {rest : Unit -> Code alpha} (hwithin : n.Within limit room)
    (hrest : n.Named limit -> Grows limit post room (rest ())) :
    Grows limit post room (note n >>= rest) := by
  refine ⟨hwithin, fun _ room' hdoes => ?_⟩
  rcases hdoes with ⟨hroom, hnamed⟩
  rw [hroom]
  exact hrest hnamed

theorem Grows.strcpy {post : Nat -> alpha -> Prop} {buffer : Buffer}
    {string : Bytes} {rest : Bytes -> Code alpha}
    (hrest : Grows limit post room (rest string)) :
    Grows limit post room (strcpy buffer string >>= rest) := by
  refine ⟨trivial, fun _ room' hdoes => ?_⟩
  rw [hdoes.left]
  exact hrest

theorem grows_plain {post : alpha -> Prop} {code : Backuper.Code alpha}
    (h : Ensures (Contract.unknown Call Call.Answer Unit) (fun _ _ => True)
      (fun _ => post) () code) :
    Grows limit (fun room' value => room ≤ room' ∧ post value) room
      (plain code) := by
  have hnotes : forall op n, n ∈ logNotes op ->
      forall room, n.Within limit room := by
    intro op n hn room
    cases op with
    | log message | rm path =>
        rw [List.mem_singleton.mp hn]
        exact trivial
    | _ => cases hn
  suffices hcode : forall least, least ≤ room ->
      Grows limit (fun room' value => least ≤ room' ∧ post value) room
        (plain code) from
    hcode room (le_refl room)
  intro least hleast
  induction code generalizing room with
  | ret value => exact ⟨hleast, h⟩
  | halt reason => exact trivial
  | call op next ih =>
      have hop := hnotes op
      unfold plain at ih ⊢
      rw [annotate]
      generalize logNotes op = list at hop
      induction list generalizing room with
      | nil =>
          refine ⟨trivial, fun answer room' hdoes => ?_⟩
          apply ih answer (h.right answer () trivial)
          rw [hdoes.left]
          exact hleast.trans (le_roomAfter _)
      | cons n list ihlist =>
          refine ⟨hop n List.mem_cons_self room, fun _ room' hdoes => ?_⟩
          rw [hdoes.left]
          exact ihlist hleast (fun m hm => hop m (List.mem_cons_of_mem n hm))

theorem Grows.after {post : Nat -> beta -> Prop} {first : Backuper.Code alpha}
    {rest : alpha -> Code beta}
    (hrest : forall room' value, room ≤ room' ->
      Grows limit post room' (rest value)) :
    Grows limit post room (plain first >>= rest) :=
  Grows.bind (grows_plain (Ensures.unknown first ()))
    (fun room' value h => hrest room' value h.left)

theorem Grows.fork {post : Nat -> alpha -> Prop} {rest : Nat -> Code alpha}
    (hchild : Grows limit post (room + (limit + 1)) (rest 0))
    (hparent : forall pid, pid ≠ 0 -> Grows limit post room (rest pid)) :
    Grows limit post room (plain fork >>= rest) := by
  refine ⟨trivial, fun pid room' hdoes => ?_⟩
  rw [hdoes.left]
  by_cases hpid : (show Nat from pid) = 0
  · have hroom : roomAfter limit ⟨Sum.inl Call.fork, pid⟩ room =
        room + (limit + 1) := if_pos (beq_iff_eq.mpr hpid)
    rw [hroom]
    cases hpid
    exact hchild
  · have hroom : roomAfter limit ⟨Sum.inl Call.fork, pid⟩ room = room :=
      if_neg (fun h => hpid (beq_iff_eq.mp h))
    rw [hroom]
    exact hparent pid hpid

end Rules

/-!
## The code
-/

section Functions

variable {limit room : Nat} {g : Globals}

theorem Spacious.child (h : Spacious limit room g) {name : Bytes}
    (hname : name.length ≤ limit) {child : Globals}
    (hsrc : child.srcPath.length = g.srcPath.length + 1 + name.length)
    (hdest : child.destPath.length = g.destPath.length + 1 + name.length) :
    Spacious limit (room + (limit + 1)) child := by
  have hroomSrc := h.src
  have hroomDest := h.dest
  constructor
  case src => lia
  case dest => lia

theorem grows_createInotify :
    Grows limit (fun room' g' => room ≤ room' ∧ g' = { g with inFd := g'.inFd })
      room (plain (createInotify g)) := by
  apply grows_plain
  unfold createInotify
  refine ⟨trivial, fun (fd : Int) _ _ => ?_⟩
  dsimp only
  apply Ensures.ite
  · intro _
    exact ⟨trivial, fun _ _ _ => trivial⟩
  · intro _
    refine ⟨trivial, fun (watch : Int) _ _ => ?_⟩
    dsimp only
    apply Ensures.ite
    · intro _
      exact ⟨trivial, fun _ _ _ => trivial⟩
    · intro _
      exact rfl

theorem grows_copyDirectoryWith
    {loop : Nat -> Bytes -> Globals -> Code Globals}
    (h : forall pid filePathSrc room g, Spacious limit room g ->
      Grows limit (Spacious limit) room (loop pid filePathSrc g))
    (hg : Spacious limit room g) :
    Grows limit (Spacious limit) room (copyDirectoryWith loop g) := by
  apply Grows.bind grows_createInotify
  rintro room' g' ⟨hle, hg'⟩
  have hspacious : Spacious limit room' g' := by
    rw [hg']
    exact ⟨hg.src.trans hle, hg.dest.trans hle⟩
  apply Grows.after
  intro room₁ source h₁
  apply Grows.after
  intro room₂ dest h₂
  apply Grows.after
  intro room₃ filePathSrc h₃
  apply Grows.after
  intro room₄ pid h₄
  have hwider := hspacious.mono (h₁.trans (h₂.trans (h₃.trans h₄)))
  exact h pid filePathSrc room₄ _ ⟨hwider.src, hwider.dest⟩

theorem grows_copyLoop {fuel pid : Nat} {filePathSrc : Bytes}
    (hg : Spacious limit room g) :
    Grows limit (Spacious limit) room (copyLoop fuel pid filePathSrc g) := by
  induction fuel generalizing room pid filePathSrc g with
  | zero => exact trivial
  | succ fuel ih =>
      rw [copyLoop]
      cases g.source with
      | nil => exact hg
      | cons file entries =>
          have hleft : Spacious limit room { g with source := entries } :=
            ⟨hg.src, hg.dest⟩
          dsimp only
          split
          case isTrue _ => exact hleft
          case isFalse _ =>
            split
            case isTrue _ =>
              refine Grows.note ⟨hg.src, hg.dest⟩ (fun hname => ?_)
              apply Grows.strcpy
              split
              case isTrue _ =>
                apply Grows.after
                intro room' _ hle
                exact ih (hleft.mono hle)
              case isFalse _ =>
                split
                case isTrue _ =>
                  apply Grows.fork
                  case hchild =>
                    rw [if_pos rfl]
                    apply Grows.strcpy
                    apply Grows.strcpy
                    apply Grows.after
                    intro room₁ _ h₁
                    apply Grows.after
                    intro room₂ _ h₂
                    have hchild : Spacious limit (room + (limit + 1))
                        { g with
                          source := entries
                          srcPath :=
                            Backuper.makePath g.srcPath g.srcPath file.name
                          destPath :=
                            Backuper.makePath g.destPath g.destPath file.name } :=
                      hleft.child hname (makePath_length _ _ _)
                        (makePath_length _ _ _)
                    apply Grows.bind (grows_copyDirectoryWith
                      (fun _ _ _ _ h => ih h) (hchild.mono (h₁.trans h₂)))
                    intro room' g' hg'
                    exact ih hg'
                  case hparent =>
                    intro pid hpid
                    rw [if_neg hpid]
                    exact ih hleft
                case isFalse _ =>
                  apply Grows.after
                  intro room' _ hle
                  exact ih (hleft.mono hle)
            case isFalse _ => exact ih hleft

theorem grows_copyDirectory (fuel : Nat) (hg : Spacious limit room g) :
    Grows limit (Spacious limit) room (copyDirectory fuel g) :=
  grows_copyDirectoryWith (fun _ _ _ _ => grows_copyLoop) hg

theorem grows_eventCreate (fuel : Nat) {name : Bytes}
    (hname : name.length ≤ limit) (hg : Spacious limit room g) :
    Grows limit (Spacious limit) room (eventCreate fuel name g) := by
  apply Grows.after
  intro room₁ stale h₁
  apply Grows.after
  intro room₂ stale' h₂
  apply Grows.strcpy
  apply Grows.strcpy
  apply Grows.after
  intro room₃ regular h₃
  have hg₃ := hg.mono (h₁.trans (h₂.trans h₃))
  split
  case isTrue _ =>
    apply Grows.after
    intro room' _ hle
    exact hg₃.mono hle
  case isFalse _ =>
    apply Grows.after
    intro room₄ directory h₄
    have hg₄ := hg₃.mono h₄
    split
    case isTrue _ =>
      apply Grows.fork
      case hchild =>
        rw [if_pos rfl]
        apply Grows.strcpy
        apply Grows.strcpy
        apply Grows.after
        intro room₅ _ h₅
        apply Grows.after
        intro room₆ _ h₆
        have hchild : Spacious limit (room₄ + (limit + 1))
            { g with
              srcPath := Backuper.makePath stale g.srcPath name
              destPath := Backuper.makePath stale' g.destPath name } :=
          hg₄.child hname (makePath_length _ _ _) (makePath_length _ _ _)
        apply Grows.bind (grows_copyDirectory fuel (hchild.mono (h₅.trans h₆)))
        intro room' g' hg'
        exact ⟨hg'.src, hg'.dest⟩
      case hparent =>
        intro pid hpid
        rw [if_neg hpid]
        exact hg₄
    case isFalse _ => exact hg₄

theorem grows_handlerCode (fuel : Nat) {name : Bytes}
    (hname : name.length ≤ limit) (hg : Spacious limit room g)
    (handler : Handler) :
    Grows limit (Spacious limit) room (handlerCode fuel name g handler) := by
  cases handler with
  | eventCreate | eventModify => exact grows_eventCreate fuel hname hg
  | eventDelete | eventMoveFrom =>
      apply Grows.after
      intro room₁ stale h₁
      apply Grows.strcpy
      apply Grows.after
      intro room₂ _ h₂
      exact hg.mono (h₁.trans h₂)
  | eventMoveTo =>
      apply Grows.after
      intro room' _ hle
      exact grows_eventCreate fuel hname (hg.mono hle)

theorem grows_handleEvent (fuel : Nat) (events : Bytes) (i : Nat)
    (hg : Spacious limit room g) :
    Grows limit (Spacious limit) room (handleEvent fuel events i g) := by
  apply Grows.after
  intro room₁ _ h₁
  have hg₁ := hg.mono h₁
  cases checkEvent events i with
  | none => exact hg₁
  | some dispatch =>
      refine Grows.note ⟨hg₁.src, hg₁.dest⟩ (fun hname => ?_)
      apply Grows.after
      intro room₂ _ h₂
      exact grows_handlerCode fuel hname (hg₁.mono h₂) dispatch.handler

theorem grows_forEvents (fuel : Nat) (events : Bytes) {left i : Nat}
    (hg : Spacious limit room g) :
    Grows limit (Spacious limit) room (forEvents fuel events left i g) := by
  induction left generalizing room i g with
  | zero => exact hg
  | succ left ih =>
      rw [forEvents]
      split
      case isTrue _ =>
        apply Grows.bind (grows_handleEvent fuel events i hg)
        intro room' g' hg'
        exact ih hg'
      case isFalse _ => exact hg

theorem grows_whileWorking (fuel : Nat) {rounds : Nat}
    (hg : Spacious limit room g) :
    Grows limit (Spacious limit) room (whileWorking fuel rounds g) := by
  induction rounds generalizing room g with
  | zero => exact trivial
  | succ rounds ih =>
      apply Grows.after
      rintro room₁ ⟨resRead, events⟩ h₁
      have hg₁ : Spacious limit room₁ { g with checkFlag := true } :=
        ⟨hg.src.trans h₁, hg.dest.trans h₁⟩
      dsimp only
      split
      case isTrue _ => exact hg₁
      case isFalse _ =>
        apply Grows.bind (grows_forEvents fuel events hg₁)
        intro room' g' hg'
        exact ih hg'

theorem grows_main (fuel : Nat) {srcPath destPath : Bytes}
    (hsrc : srcPath.length ≤ room) (hdest : destPath.length ≤ room) :
    Grows limit (fun _ _ => True) room (main fuel srcPath destPath) := by
  refine Grows.note ⟨hsrc, hdest⟩ (fun _ => ?_)
  apply Grows.strcpy
  apply Grows.strcpy
  have hstart : Grows limit (fun room' _ => room + (limit + 1) ≤ room') room
      (plain (startDaemon (Globals.start srcPath destPath))) := by
    unfold startDaemon plain
    rw [annotate_bind]
    apply Grows.fork
    case hchild =>
      rw [if_neg (fun h => h rfl)]
      exact Ensures.mono (grows_plain (Ensures.unknown _ ()))
        (fun _ _ h => h.left)
    case hparent =>
      intro pid hpid
      rw [if_pos hpid]
      refine ⟨trivial, fun _ _ _ => ?_⟩
      exact ⟨trivial, fun _ _ _ => trivial⟩
  apply Grows.bind hstart
  intro room₁ _ h₁
  apply Grows.after
  intro room₂ pid h₂
  apply Grows.after
  intro room₃ _ h₃
  apply Grows.after
  intro room₄ _ h₄
  have hroom := h₁.trans (h₂.trans (h₃.trans h₄))
  have hdaemon : Spacious limit room₄
      { Globals.start srcPath destPath with mainPid := pid } :=
    ⟨(Nat.add_le_add_right hsrc _).trans hroom,
      (Nat.add_le_add_right hdest _).trans hroom⟩
  apply Grows.bind (grows_copyDirectory fuel hdaemon)
  intro room₅ g hg
  apply Grows.bind (grows_whileWorking fuel hg)
  intro room₆ g' _
  exact Ensures.mono (grows_plain (Ensures.unknown _ ())) (fun _ _ _ => trivial)

end Functions

/-!
## All runs
-/

def births (history : History) : Nat := history.countP IsBirth

section Histories

variable {fuel limit : Nat} {srcPath destPath : Bytes} {history : History}

theorem room_of_births (limit room : Nat) (history : History) :
    history.foldl (fun room taken => roomAfter limit taken room) room =
      room + births history * (limit + 1) := by
  induction history generalizing room with
  | nil => simp [births]
  | cons first rest ih =>
      rw [List.foldl_cons, ih]
      unfold roomAfter births
      by_cases hbirth : IsBirth first = true
      · rw [if_pos hbirth, List.countP_cons_of_pos hbirth, Nat.succ_mul]
        lia
      · rw [if_neg hbirth, List.countP_cons_of_neg hbirth]

theorem within_of_mem (hfollows : Follows (main fuel srcPath destPath) history)
    (hnames : forall n, noted n ∈ history -> n.Named limit) {n : Note}
    (hmem : noted n ∈ history) :
    n.Within limit (max srcPath.length destPath.length +
      births history * (limit + 1)) := by
  rcases List.append_of_mem hmem with ⟨before, after, hsplit⟩
  have hmain : Grows limit (fun _ _ => True)
      (max srcPath.length destPath.length) (main fuel srcPath destPath) :=
    grows_main fuel (le_max_left _ _) (le_max_right _ _)
  have hdoes : forall taken room, taken ∈ before ->
      (growing limit).does taken.1 room taken.2 (roomAfter limit taken room) := by
    rintro ⟨op, answer⟩ room htaken
    have hearlier : ⟨op, answer⟩ ∈ history := by
      rw [hsplit]
      exact List.mem_append_left _ htaken
    cases op with
    | inl op => exact ⟨rfl, trivial⟩
    | inr earlier => exact ⟨rfl, hnames earlier hearlier⟩
  have hsplit' : Follows (main fuel srcPath destPath)
      (before ++ noted n :: after) := by
    rw [← hsplit]
    exact hfollows
  have hwithin : n.Within limit (before.foldl
      (fun room taken => roomAfter limit taken room)
      (max srcPath.length destPath.length)) :=
    Ensures.along (roomAfter limit) hmain hsplit' hdoes
  rw [room_of_births] at hwithin
  have hbirths : births before ≤ births history := by
    rw [hsplit]
    exact (List.sublist_append_left before _).countP_le
  have hle := Nat.add_le_add_left (Nat.mul_le_mul_right (limit + 1) hbirths)
    (max srcPath.length destPath.length)
  cases n with
  | store buffer string => exact trivial
  | _ => exact ⟨hwithin.left.trans hle, hwithin.right.trans hle⟩

/-- The arguments, a bound on the names and the number of forks decide
beforehand that all names are short for the paths of their processes. -/
theorem allShort_of_lengths
    (hfollows : Follows (main fuel srcPath destPath) history)
    (hnames : forall n, noted n ∈ history -> n.Named limit)
    (hpids : forall pid : Nat, did Call.getpid pid ∈ history -> pid < 2 ^ 31)
    (hroom : max srcPath.length destPath.length +
      births history * (limit + 1) < PATH_SIZE) : AllShort history := by
  have hfits : forall {path name : Bytes}, name.length ≤ limit ->
      path.length + (limit + 1) ≤ max srcPath.length destPath.length +
        births history * (limit + 1) -> RoomBehind path name := by
    intro path name hname hpath
    unfold RoomBehind
    lia
  rintro ⟨op, answer⟩ hmem
  cases op with
  | inl op =>
      cases op with
      | getpid => exact hpids answer hmem
      | _ => exact trivial
  | inr n =>
      have hwithin := within_of_mem hfollows hnames hmem
      have hnamed := hnames n hmem
      cases n with
      | arguments srcPath destPath =>
          exact ⟨hwithin.left.trans_lt hroom, hwithin.right.trans_lt hroom⟩
      | entry srcPath destPath file =>
          exact ⟨hfits hnamed hwithin.left, fun _ => hfits hnamed hwithin.right⟩
      | event srcPath destPath dispatch =>
          exact ⟨hfits hnamed hwithin.right, fun _ => hfits hnamed hwithin.left⟩
      | store buffer string => exact trivial

theorem strings_fit_of_lengths
    (hfollows : Follows (main fuel srcPath destPath) history)
    (hnames : forall n, noted n ∈ history -> n.Named limit)
    (hpids : forall pid : Nat, did Call.getpid pid ∈ history -> pid < 2 ^ 31)
    (hroom : max srcPath.length destPath.length +
      births history * (limit + 1) < PATH_SIZE) :
    forall buffer string, noted (Note.store buffer string) ∈ history ->
      string.length < buffer.size := by
  intro buffer string hmem
  exact Ensures.follows (bounded_main fuel srcPath destPath) hfollows
    (allShort_of_lengths hfollows hnames hpids hroom) _ hmem

end Histories

end Noting
end Backuper
end UnixPrograms
