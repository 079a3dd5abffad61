import UnixPrograms.BizzBuzz.FinalNewline
import UnixPrograms.BizzBuzz.Reading

/-!
# The file at the destination

The destination is removed, or opened for writing, before the source is looked
at.  What an error exit leaves of it depends on how far the program came, and
where it could not be removed, on what had been written into it.
-/

namespace UnixPrograms
namespace BizzBuzz

open Foundation

/-!
## What has been written before a `read`
-/

def beforeLastSep (content : Bytes) : Bytes :=
  (content.rdropWhile (fun b => !isSep b)).dropLast

theorem beforeLastSep_append {v : Vars} {done run : Bytes}
    (h : Settled v done) (hrun : forall b, b ∈ run -> isSep b = false) :
    beforeLastSep (done ++ run) = done.dropLast := by
  have hdrop : (done ++ run).rdropWhile (fun b => !isSep b) = done := by
    rw [List.rdropWhile, List.reverse_append, List.dropWhile_append_of_pos
      (by simpa using hrun)]
    rcases List.eq_nil_or_concat' done with hnil | ⟨init, b, hdone⟩
    · rw [hnil]
      rfl
    · have hlast := h.last b (by rw [hdone, List.getLast?_concat])
      rw [hdone]
      simp [hlast.left]
  rw [beforeLastSep, hdrop]

theorem mainLoop_out (temp : UInt8) {content : Bytes} {k : Nat}
    (hk : k < content.length) :
    exists v, mainLoop content k 0 (Vars.start temp) = some v ∧
      v.out = rewrite (beforeLastSep (content.take k)) := by
  rcases mainLoop_settled (scan_start temp content) (settled_start temp) hk with
    ⟨v, done, run, rest, hscan, hsettled, hlength, hloop⟩
  have htake : content.take k = done ++ run := by
    have hwhole := congrArg List.length hscan.whole
    rw [List.length_append] at hwhole
    have hk' : k = (done ++ run).length := by
      lia
    rw [hscan.whole, hk', List.take_left]
  refine ⟨v, hloop 0, ?_⟩
  rw [htake, beforeLastSep_append hsettled hscan.noSep, hsettled.out]

/-!
## Damaged files
-/

structure File.FirstDamage (f : File) (k : Nat) : Prop where
  inside : k < f.content.length
  damaged : f.damaged k = true
  before : forall off, off < k -> f.damaged off = false

def File.Intact (f : File) : Prop :=
  forall off, off < f.content.length -> f.damaged off = false

theorem File.intact_or_damaged (f : File) :
    f.Intact ∨ exists k, f.FirstDamage k := by
  by_cases h : exists k, k < f.content.length ∧ f.damaged k = true
  · rcases Nat.find_spec h with ⟨hinside, hdamaged⟩
    refine Or.inr ⟨Nat.find h, hinside, hdamaged, fun off hoff => ?_⟩
    rw [← Bool.not_eq_true]
    exact fun hbad => Nat.find_min h hoff ⟨by lia, hbad⟩
  · refine Or.inl (fun off hoff => ?_)
    rw [← Bool.not_eq_true]
    exact fun hbad => h ⟨off, hoff, hbad⟩

theorem File.Intact.not_damaged {f : File} (h : f.Intact) {k : Nat} :
    ¬ f.FirstDamage k := by
  intro hk
  have hbad := hk.damaged
  rw [h k hk.inside] at hbad
  cases hbad

theorem File.FirstDamage.unique {f : File} {k k' : Nat}
    (h : f.FirstDamage k) (h' : f.FirstDamage k') : k = k' := by
  have hle : forall {k k'}, f.FirstDamage k -> f.FirstDamage k' -> k ≤ k' := by
    intro k k' h h'
    by_contra hlt
    have hbad := h'.damaged
    rw [h.before k' (Nat.lt_of_not_le hlt)] at hbad
    cases hbad
  exact Nat.le_antisymm (hle h h') (hle h' h)

/-!
## Writing
-/

theorem File.write_damaged (f : File) (bytes : Bytes) :
    (f.write bytes).damaged = f.damaged ∧
      f.content.length ≤ (f.write bytes).content.length := by
  rw [write]
  split
  · refine ⟨rfl, ?_⟩
    simp only [List.length_append, List.length_drop]
    lia
  · exact ⟨rfl, Nat.le_refl _⟩

theorem File.write_eq_self_iff {f : File} {bytes : Bytes} :
    f.write bytes = f <-> (f.kind = Kind.regular -> bytes <+: f.content) := by
  rw [write]
  by_cases hkind : f.kind = Kind.regular
  · rw [if_pos hkind]
    constructor
    · intro h _
      have hcontent := congrArg File.content h
      exact ⟨_, hcontent⟩
    · intro h
      rcases h hkind with ⟨rest, hrest⟩
      have hcontent : bytes ++ f.content.drop bytes.length = f.content := by
        rw [← hrest, List.drop_left]
      rw [hcontent]
  · rw [if_neg hkind]
    exact iff_of_true rfl (fun h => absurd h hkind)

namespace Disk

variable {disk : Disk} {fdSrc fdDir k : Nat}

theorem source_delivers {n : Nat}
    (hlength : n ≤ (disk.files fdSrc).content.length)
    (h : forall off, off < n -> (disk.files fdSrc).damaged off = false) :
    (disk.source fdSrc fdDir).Delivers n := by
  intro out off hoff
  have hfile : ((disk.write fdDir out).files fdSrc).damaged =
        (disk.files fdSrc).damaged ∧
      (disk.files fdSrc).content.length ≤
        ((disk.write fdDir out).files fdSrc).content.length := by
    by_cases hsame : fdSrc = fdDir
    · rw [hsame, write_self]
      exact File.write_damaged _ _
    · rw [write_other hsame]
      exact ⟨rfl, Nat.le_refl _⟩
  have hin : off < ((disk.write fdDir out).files fdSrc).content.length := by
    lia
  refine ⟨((disk.write fdDir out).files fdSrc).content[off], ?_⟩
  rw [source, File.read, hfile.left, if_neg (by rw [h off hoff]; decide)]
  exact List.getElem?_eq_getElem hin

theorem source_damaged (h : (disk.files fdSrc).FirstDamage k) (out : Bytes) :
    disk.source fdSrc fdDir out k = none := by
  have hfile : ((disk.write fdDir out).files fdSrc).damaged =
      (disk.files fdSrc).damaged := by
    by_cases hsame : fdSrc = fdDir
    · rw [hsame, write_self]
      exact (File.write_damaged _ _).left
    · rw [write_other hsame]
  rw [source, File.read, hfile, if_pos h.damaged]

/-- What has been written does no harm: the destination is another file than
the source, or it begins with it. -/
def Harmless (disk : Disk) (fdSrc fdDir : Nat) (out : Bytes) : Prop :=
  fdSrc = fdDir -> out <+: (disk.files fdSrc).content

theorem source_agree (h : (disk.files fdSrc).FirstDamage k) :
    Source.Agree (disk.Harmless fdSrc fdDir) k (disk.source fdSrc fdDir)
      (Source.const (disk.files fdSrc).content) := by
  constructor
  case shorter =>
    intro out more hgood hsame
    exact (List.prefix_append out more).trans (hgood hsame)
  case same =>
    intro out off hgood hoff
    have hfile : (disk.write fdDir out).files fdSrc = disk.files fdSrc := by
      by_cases hsame : fdSrc = fdDir
      · have hbegins := hgood hsame
        rw [hsame] at hbegins ⊢
        rw [write_self]
        exact File.write_eq_self_iff.mpr (fun _ => hbegins)
      · exact write_other hsame
    rw [source, hfile, File.read, if_neg (by rw [h.before off hoff]; decide)]
    rfl

end Disk

theorem Source.Agree.symm {Good : Bytes -> Prop} {n : Nat}
    {source source' : Source} (h : Agree Good n source source') :
    Agree Good n source' source :=
  ⟨h.shorter, fun out off hout hoff => (h.same out off hout hoff).symm⟩

/-!
## The conversion

A failing `read` leaves the rewriting of what stands before the last separator.
The open destination is then as it was only if it began so.
-/

section Convert

variable {temp : UInt8} {disk : Disk} {fdSrc fdDir k : Nat}

def File.writtenBefore (f : File) (k : Nat) : Bytes :=
  rewrite (beforeLastSep (f.content.take k))

theorem aligned_start (temp : UInt8) : Source.Aligned 0 (Vars.start temp) :=
  ⟨rfl, Nat.le_refl 0⟩

theorem convert_intact (hkind : (disk.files fdSrc).kind = Kind.regular)
    (h : (disk.files fdSrc).Intact) :
    (convert temp disk fdSrc fdDir).1 = Ending.done := by
  have hdelivers := @Disk.source_delivers disk fdSrc fdDir _ (Nat.le_refl _) h
  rcases Source.mainLoop_ok hdelivers (aligned_start temp)
    (Nat.le_of_eq (Nat.zero_add _)) (disk.files fdSrc).content.length with
    ⟨v, hloop, _⟩
  simp only [convert, hkind, ne_eq, not_true_eq_false, if_false, hloop]

theorem const_loop (temp : UInt8) (f : File) (hk : k < f.content.length) :
    exists v, (Source.const f.content).mainLoop f.content.length k 0
        (Vars.start temp) = Except.ok v ∧ v.out = f.writtenBefore k := by
  rcases mainLoop_out temp hk with ⟨v, hloop, hout⟩
  rw [← Source.const_mainLoop] at hloop
  refine ⟨v, ?_, hout⟩
  cases hconst : (Source.const f.content).mainLoop f.content.length k 0
      (Vars.start temp) with
  | error v' =>
      rw [hconst] at hloop
      cases hloop
  | ok v' =>
      rw [hconst] at hloop
      cases hloop
      rfl

/-- The `read` at the first damage fails.  What has been written by then is the
rewriting of the source as it was, if this or that is harmless. -/
theorem convert_damaged (hkind : (disk.files fdSrc).kind = Kind.regular)
    (h : (disk.files fdSrc).FirstDamage k) :
    exists out, convert temp disk fdSrc fdDir =
        (Ending.errorReading, disk.write fdDir out) ∧
      (disk.Harmless fdSrc fdDir out ∨
          disk.Harmless fdSrc fdDir ((disk.files fdSrc).writtenBefore k) ->
        out = (disk.files fdSrc).writtenBefore k) := by
  generalize hsize : (disk.files fdSrc).content.length = size
  have hk : k < size := hsize ▸ h.inside
  have hdelivers := @Disk.source_delivers disk fdSrc fdDir k
    (Nat.le_of_lt h.inside) h.before
  have hconst : (Source.const (disk.files fdSrc).content).Delivers k :=
    fun out off hoff => ⟨_, List.getElem?_eq_getElem (by lia)⟩
  have hcount : 0 + k ≤ k := Nat.le_of_eq (Nat.zero_add k)
  rcases Source.mainLoop_ok hdelivers (aligned_start temp) hcount size with
    ⟨v, hloop, haligned⟩
  rcases const_loop temp (disk.files fdSrc) h.inside with ⟨v', hloop', hout'⟩
  rw [hsize] at hloop'
  have hlast : (disk.source fdSrc fdDir).iteration size (0 + k) v =
      Except.error { v with prevSymbol := v.temp } := by
    have hoff : v.off = k := haligned.off.trans (Nat.zero_add k)
    have hnone : disk.source fdSrc fdDir v.out v.off = none := by
      rw [hoff]
      exact Disk.source_damaged h v.out
    simp only [Source.iteration, Source.read, hnone]
    rfl
  have hwhole : (disk.source fdSrc fdDir).mainLoop size size 0
      (Vars.start temp) = Except.error { v with prevSymbol := v.temp } := by
    have hrest : size = k + (size - k - 1 + 1) := by
      lia
    conv => lhs; arg 3; rw [hrest]
    rw [Source.mainLoop_add, hloop]
    simp only [Source.mainLoop, hlast]
  refine ⟨v.out, ?_, ?_⟩
  · simp only [convert, hkind, ne_eq, not_true_eq_false, if_false, hsize,
      hwhole]
  · have hagree := @Disk.source_agree disk fdSrc fdDir k h
    rintro (hgood | hgood)
    · have hsame := (Source.mainLoop_congr hagree hdelivers
        (aligned_start temp) hcount hloop hgood).right
      rw [hloop'] at hsame
      injection hsame with hsame
      rw [← hsame, hout']
    · rw [← hout'] at hgood
      have hsame := (Source.mainLoop_congr hagree.symm hconst
        (aligned_start temp) hcount hloop' hgood).right
      rw [hloop] at hsame
      injection hsame with hsame
      rw [hsame, hout']

theorem convert_kept_iff :
    ((convert temp disk fdSrc fdDir).1 ≠ Ending.done ->
        (convert temp disk fdSrc fdDir).2.files fdDir = disk.files fdDir) <->
      ((disk.files fdSrc).kind = Kind.regular ->
        forall k, (disk.files fdSrc).FirstDamage k ->
          (disk.files fdDir).kind = Kind.regular ->
            (disk.files fdSrc).writtenBefore k <+:
              (disk.files fdDir).content) := by
  by_cases hkind : (disk.files fdSrc).kind = Kind.regular
  · rcases (disk.files fdSrc).intact_or_damaged with hintact | ⟨k, hk⟩
    · exact iff_of_true (fun h => absurd (convert_intact hkind hintact) h)
        (fun _ k hk => absurd hk hintact.not_damaged)
    · rcases @convert_damaged temp disk fdSrc fdDir k hkind hk with
        ⟨out, hconvert, hout⟩
      have hsame : (disk.files fdDir).kind = Kind.regular ->
          (out <+: (disk.files fdDir).content <->
            (disk.files fdSrc).writtenBefore k <+:
              (disk.files fdDir).content) := by
        intro _
        constructor
        · intro hbegins
          rw [← hout (Or.inl (fun heq => by rw [heq]; exact hbegins))]
          exact hbegins
        · intro hbegins
          rw [hout (Or.inr (fun heq => by rw [heq] at hbegins ⊢; exact hbegins))]
          exact hbegins
      rw [hconvert]
      change (Ending.errorReading ≠ Ending.done ->
        (disk.write fdDir out).files fdDir = disk.files fdDir) <-> _
      rw [Disk.write_self, File.write_eq_self_iff]
      constructor
      · intro h _ k' hk' hregular
        rw [hk'.unique hk]
        exact (hsame hregular).mp (h (by decide) hregular)
      · intro h _ hregular
        exact (hsame hregular).mpr (h hkind k hk hregular)
  · have hconvert : convert temp disk fdSrc fdDir =
        (Ending.notRegular, disk) := by
      simp only [convert, ne_eq, hkind, not_false_eq_true, if_true]
    rw [hconvert]
    exact iff_of_true (fun _ => rfl) (fun h => absurd h hkind)

theorem convert_names :
    (convert temp disk fdSrc fdDir).2.names = disk.names := by
  rw [convert]
  split
  · rfl
  · split
    · rfl
    · rfl

end Convert

/-!
## The whole program
-/

def Kept (disk disk' : Disk) (path : Bytes) : Prop :=
  forall n, disk.names path = some n ->
    disk'.names path = some n ∧ disk'.files n = disk.files n

structure Converts (disk : Disk) (src dir : Bytes) : Prop where
  source : exists fdSrc, disk.openRead src = some fdSrc ∧
    (disk.files fdSrc).kind = Kind.regular ∧ (disk.files fdSrc).Intact
  destination : disk.removable dir = true -> disk.creatable dir = true

/-- The destination cannot be removed, and what the program has written when a
`read` fails is how the destination begins anyway. -/
structure Overwrites (disk : Disk) (src dir : Bytes) : Prop where
  stays : disk.removable dir = false
  same : forall fdSrc fdDir k, disk.openRead src = some fdSrc ->
    disk.names dir = some fdDir ->
    (disk.files fdSrc).kind = Kind.regular ->
    (disk.files fdSrc).FirstDamage k ->
    (disk.files fdDir).kind = Kind.regular ->
      (disk.files fdSrc).writtenBefore k <+: (disk.files fdDir).content

def Spares (disk : Disk) (src dir : Bytes) : Prop :=
  forall fdDir, disk.names dir = some fdDir ->
    (disk.files fdDir).Writable ->
      Converts disk src dir ∨ Overwrites disk src dir

section Opening

variable {temp : UInt8} {disk : Disk} {src dir : Bytes} {fdDir : Nat}

theorem openReadWrite_eq (h : disk.names dir = some fdDir) :
    disk.openReadWrite dir =
      if (disk.files fdDir).Writable then some fdDir else none := by
  rw [Disk.openReadWrite, h]

theorem openCreate_eq (h : disk.names dir = some fdDir) :
    disk.openCreate dir =
      (if (disk.files fdDir).Writable then some fdDir else none, disk) := by
  rw [Disk.openCreate, h]

theorem locked_eq (h : disk.names dir = some fdDir)
    (hlocked : ¬ (disk.files fdDir).Writable) :
    openAndConvert temp disk src dir = (Ending.errorOpening, disk) := by
  have hopen := openReadWrite_eq h
  have hcreate := openCreate_eq h
  rw [if_neg hlocked] at hopen hcreate
  simp only [openAndConvert, hopen, Option.isSome_none, Bool.false_eq_true,
    if_false, hcreate]
  cases disk.openRead src with
  | none => rfl
  | some fdSrc => rfl

theorem staying_eq (h : disk.names dir = some fdDir)
    (hwritable : (disk.files fdDir).Writable)
    (hstays : disk.removable dir = false) :
    openAndConvert temp disk src dir =
      match disk.openRead src with
      | none => (Ending.errorOpening, disk)
      | some fdSrc => convert temp disk fdSrc fdDir := by
  have hopen := openReadWrite_eq h
  have hcreate := openCreate_eq h
  have hunlink : disk.unlink dir = disk := by
    rw [Disk.unlink, if_neg (by rw [hstays]; decide)]
  rw [if_pos hwritable] at hopen hcreate
  simp only [openAndConvert, hopen, Option.isSome_some, if_true, hunlink,
    hcreate]
  cases disk.openRead src with
  | none => rfl
  | some fdSrc => rfl

theorem removed_eq (h : disk.names dir = some fdDir)
    (hwritable : (disk.files fdDir).Writable)
    (hremovable : disk.removable dir = true) :
    openAndConvert temp disk src dir =
      if disk.creatable dir = true then
        match disk.openRead src with
        | none => (Ending.errorOpening, (disk.unlink dir).create dir)
        | some fdSrc =>
            convert temp ((disk.unlink dir).create dir) fdSrc disk.count
      else
        (Ending.errorOpening, disk.unlink dir) := by
  have hopen := openReadWrite_eq h
  rw [if_pos hwritable] at hopen
  have hunlink : (disk.unlink dir).names dir = none ∧
      (disk.unlink dir).creatable = disk.creatable ∧
      (disk.unlink dir).count = disk.count := by
    rw [Disk.unlink, if_pos hremovable]
    exact ⟨Function.update_self .., rfl, rfl⟩
  have hcreate : (disk.unlink dir).openCreate dir =
      if disk.creatable dir = true then
        (some disk.count, (disk.unlink dir).create dir)
      else (none, disk.unlink dir) := by
    simp only [Disk.openCreate, hunlink.left, hunlink.right.left,
      hunlink.right.right]
  simp only [openAndConvert, hopen, Option.isSome_some, if_true, hcreate]
  by_cases hcreatable : disk.creatable dir = true
  · simp only [if_pos hcreatable]
    cases disk.openRead src with
    | none => rfl
    | some fdSrc => rfl
  · simp only [if_neg hcreatable]
    cases disk.openRead src with
    | none => rfl
    | some fdSrc => rfl

theorem openRead_lt {fdSrc : Nat} (h : disk.openRead src = some fdSrc) :
    fdSrc < disk.count := by
  rw [Disk.openRead] at h
  cases hname : disk.names src with
  | none =>
      rw [hname] at h
      cases h
  | some m =>
      simp only [hname] at h
      split at h
      · cases h
        exact disk.known src _ hname
      · cases h

theorem removed_not_kept (h : disk.names dir = some fdDir)
    (hremovable : disk.removable dir = true)
    (hwritable : (disk.files fdDir).Writable) :
    ¬ Kept disk (openAndConvert temp disk src dir).2 dir := by
  intro hkept
  have hname := (hkept fdDir h).left
  have hlt := disk.known dir fdDir h
  have hunlinked : (disk.unlink dir).names dir = none := by
    rw [Disk.unlink, if_pos hremovable]
    exact Function.update_self ..
  have hcreated : ((disk.unlink dir).create dir).names dir =
      some disk.count := by
    rw [Disk.unlink, if_pos hremovable]
    exact Function.update_self ..
  have hne : some disk.count ≠ some fdDir := by
    intro heq
    injection heq with heq
    lia
  rw [removed_eq h hwritable hremovable] at hname
  split at hname
  · cases hsrc : disk.openRead src with
    | none =>
        simp only [hsrc, hcreated] at hname
        exact hne hname
    | some fdSrc =>
        simp only [hsrc, convert_names, hcreated] at hname
        exact hne hname
  · rw [hunlinked] at hname
    cases hname

theorem removed_done_iff (h : disk.names dir = some fdDir)
    (hremovable : disk.removable dir = true)
    (hwritable : (disk.files fdDir).Writable) :
    (openAndConvert temp disk src dir).1 = Ending.done <->
      Converts disk src dir := by
  rw [removed_eq h hwritable hremovable]
  by_cases hcreatable : disk.creatable dir = true
  · rw [if_pos hcreatable]
    cases hsrc : disk.openRead src with
    | none =>
        refine iff_of_false (by intro hdone; cases hdone) ?_
        rintro ⟨⟨fdSrc, hopen, _⟩, _⟩
        rw [hsrc] at hopen
        cases hopen
    | some fdSrc =>
        have hlt := openRead_lt hsrc
        have hcount : (disk.unlink dir).count = disk.count := by
          rw [Disk.unlink]
          split
          · rfl
          · rfl
        have hfile : ((disk.unlink dir).create dir).files fdSrc =
            disk.files fdSrc := by
          rw [Disk.create_files (by rw [hcount]; exact hlt), Disk.unlink_files]
        constructor
        · intro hdone
          by_cases hkind : (disk.files fdSrc).kind = Kind.regular
          · rcases (disk.files fdSrc).intact_or_damaged with hintact | ⟨k, hk⟩
            · exact ⟨⟨fdSrc, hsrc, hkind, hintact⟩, fun _ => hcreatable⟩
            · rw [← hfile] at hkind hk
              rcases @convert_damaged temp _ fdSrc disk.count k hkind hk with
                ⟨out, hconvert, _⟩
              change (convert temp ((disk.unlink dir).create dir) fdSrc
                disk.count).1 = Ending.done at hdone
              rw [hconvert] at hdone
              cases hdone
          · rw [← hfile] at hkind
            simp only [convert, ne_eq, hkind, not_false_eq_true, if_true]
              at hdone
            cases hdone
        · rintro ⟨⟨fdSrc', hopen, hkind, hintact⟩, _⟩
          rw [hsrc] at hopen
          cases hopen
          rw [← hfile] at hkind hintact
          exact convert_intact hkind hintact
  · rw [if_neg hcreatable]
    refine iff_of_false (by intro hdone; cases hdone) ?_
    exact fun hconverts => hcreatable (hconverts.destination hremovable)

theorem staying_kept_iff (h : disk.names dir = some fdDir)
    (hstays : disk.removable dir = false)
    (hwritable : (disk.files fdDir).Writable) :
    ((openAndConvert temp disk src dir).1 ≠ Ending.done ->
        Kept disk (openAndConvert temp disk src dir).2 dir) <->
      Overwrites disk src dir := by
  have hsame : forall disk' : Disk, disk'.names = disk.names ->
      (Kept disk disk' dir <-> disk'.files fdDir = disk.files fdDir) := by
    intro disk' hnames
    constructor
    · exact fun hkept => (hkept fdDir h).right
    · intro hfile n hn
      rw [h] at hn
      cases hn
      exact ⟨by rw [hnames, h], hfile⟩
  rw [staying_eq h hwritable hstays]
  cases hsrc : disk.openRead src with
  | none =>
      refine iff_of_true (fun _ => (hsame disk rfl).mpr rfl) ⟨hstays, ?_⟩
      intro fdSrc fdDir' k hopen
      rw [hsrc] at hopen
      cases hopen
  | some fdSrc =>
      change ((convert temp disk fdSrc fdDir).1 ≠ Ending.done ->
        Kept disk (convert temp disk fdSrc fdDir).2 dir) <-> _
      rw [hsame _ convert_names, convert_kept_iff]
      constructor
      · intro hbegins
        refine ⟨hstays, ?_⟩
        intro fdSrc' fdDir' k hopen hname hkind hk hregular
        rw [hsrc] at hopen
        rw [h] at hname
        cases hopen
        cases hname
        exact hbegins hkind k hk hregular
      · intro hover hkind k hk hregular
        exact hover.same fdSrc fdDir k hsrc h hkind hk hregular

theorem Converts.overwrites (h : Converts disk src dir)
    (hstays : disk.removable dir = false) : Overwrites disk src dir := by
  refine ⟨hstays, ?_⟩
  intro fdSrc fdDir k hopen _ _ hk _
  rcases h.source with ⟨fdSrc', hopen', _, hintact⟩
  rw [hopen] at hopen'
  cases hopen'
  exact absurd hk hintact.not_damaged

theorem openAndConvert_kept_iff :
    ((openAndConvert temp disk src dir).1 ≠ Ending.done ->
        Kept disk (openAndConvert temp disk src dir).2 dir) <->
      Spares disk src dir := by
  cases hname : disk.names dir with
  | none =>
      refine iff_of_true (fun _ n hn => ?_) (fun fdDir hn => ?_)
      · rw [hname] at hn
        cases hn
      · rw [hname] at hn
        cases hn
  | some fdDir =>
      by_cases hwritable : (disk.files fdDir).Writable
      · have hspares : Spares disk src dir <->
            Converts disk src dir ∨ Overwrites disk src dir := by
          constructor
          · exact fun h => h fdDir hname hwritable
          · exact fun h _ _ _ => h
        rw [hspares]
        cases hremovable : disk.removable dir with
        | true =>
            have hgone := @removed_not_kept temp _ src _ _ hname hremovable
              hwritable
            have hdone := @removed_done_iff temp _ src _ _ hname hremovable
              hwritable
            rw [← hdone]
            constructor
            · intro h
              by_contra hno
              exact hgone (h (fun heq => hno (Or.inl heq)))
            · rintro (heq | hover) hne
              · exact absurd heq hne
              · rw [hover.stays] at hremovable
                cases hremovable
        | false =>
            rw [staying_kept_iff hname hremovable hwritable]
            constructor
            · exact Or.inr
            · rintro (hconverts | hover)
              · exact hconverts.overwrites hremovable
              · exact hover
      · rw [locked_eq hname hwritable]
        refine iff_of_true (fun _ n hn => ⟨hn, rfl⟩) (fun fdDir' hn hw => ?_)
        rw [hname] at hn
        cases hn
        exact absurd hw hwritable

end Opening

/-- The paths at which a file is to be kept: the destination, or any path when
the arguments name none. -/
def IsDestination (args : List Bytes) (path : Bytes) : Prop :=
  forall src dir, paths args = some (src, dir) -> path = dir

/-- An error exit leaves the file at the destination as it was exactly in these
runs: the destination is missing or cannot be opened for reading and writing,
or the program does not end by an error exit, or the destination cannot be
removed and what is written into it is there already. -/
theorem destination_kept_iff (temp : UInt8) (disk : Disk) (args : List Bytes) :
    ((main temp disk args).1 ≠ Ending.done ->
        forall path, IsDestination args path ->
          Kept disk (main temp disk args).2 path) <->
      forall src dir, paths args = some (src, dir) -> Spares disk src dir := by
  cases hpaths : paths args with
  | none =>
      have hmain : main temp disk args = (Ending.incorrectCount, disk) := by
        simp only [main, hpaths]
      rw [hmain]
      refine iff_of_true (fun _ path _ n hn => ⟨hn, rfl⟩) ?_
      intro src dir h
      cases h
  | some files =>
      rcases files with ⟨src, dir⟩
      have hmain : main temp disk args = openAndConvert temp disk src dir := by
        simp only [main, hpaths]
      rw [hmain]
      constructor
      · intro h src' dir' heq
        cases heq
        refine openAndConvert_kept_iff.mp (fun hne => h hne dir ?_)
        intro src' dir' heq
        rw [hpaths] at heq
        cases heq
        rfl
      · intro h hne path hpath
        rw [hpath src dir hpaths]
        exact openAndConvert_kept_iff.mpr (h src dir rfl) hne

def onlyOutput : Disk where
  names := fun path => if path = OUTPUT then some 0 else none
  files := fun _ => { File.new with content := text ['k', 'e', 'p', 't'] }
  count := 1
  removable := fun _ => true
  creatable := fun _ => true
  known := by
    intro path n h
    by_cases hpath : path = OUTPUT
    · rw [if_pos hpath] at h
      cases h
      exact Nat.one_pos
    · rw [if_neg hpath] at h
      cases h

/-- The source does not exist, and the file at the destination is gone. -/
theorem missing_source_destroys :
    (main 0 onlyOutput [text ['x']]).1 = Ending.errorOpening ∧
      ((main 0 onlyOutput [text ['x']]).2.names OUTPUT = some 1 ∧
        ((main 0 onlyOutput [text ['x']]).2.files 1).content = []) ∧
      IsDestination [text ['x']] OUTPUT ∧
      ¬ Kept onlyOutput (main 0 onlyOutput [text ['x']]).2 OUTPUT := by
  have hname : (main 0 onlyOutput [text ['x']]).2.names OUTPUT = some 1 := by
    decide
  refine ⟨by decide, ⟨hname, by decide⟩, ?_, ?_⟩
  · intro src dir h
    cases h
    rfl
  · intro hkept
    have hsame := (hkept 0 (by decide)).left
    rw [hname] at hsame
    cases hsame

end BizzBuzz
end UnixPrograms
