import UnixPrograms.Foundation.Formatting

/-!
# The log

`logg` of `log.c`.  The array `buf_log` is filled by four appends, each behind
the string that is there, and a newline takes the place of the terminator.
-/

namespace UnixPrograms
namespace Socket
namespace Log

open Foundation

def LOGBUFSZ : Nat := 256

def ERR : Int := 0
def INFO : Int := 1

inductive Memory where
  | bufLog
  | strtime
deriving DecidableEq

/-- The string of `ctime`, which has 26 bytes at most. -/
structure TimeString where
  bytes : Bytes
  noNul : NoNul bytes
  nonempty : bytes ≠ []
  short : bytes.length ≤ 26

structure Answers where
  ctime : TimeString
  getpid : Int32
  /-- What a failing `vsnprintf` has stored. -/
  left : Bytes
  write : Int

def Answers.size (answers : Answers) : Memory -> Nat
  | Memory.bufLog => LOGBUFSZ
  | Memory.strtime => answers.ctime.bytes.length + 1

structure State where
  bufLog : Bytes
  accesses : List (Access Memory)
  /-- The messages of `perror`. -/
  errors : List Bytes
  /-- The bytes of each call of `write`. -/
  handed : List Bytes

namespace State

def start (bufLog : Bytes) : State where
  bufLog := bufLog
  accesses := []
  errors := []
  handed := []

def touch (s : State) (accesses : List (Access Memory)) : State :=
  { s with accesses := s.accesses ++ accesses }

def useLog (s : State) : State :=
  s.touch [Access.string Memory.bufLog s.bufLog]

def perror (s : State) (message : Bytes) : State :=
  { s with errors := s.errors ++ [message] }

end State

/-- `snprintf` or `vsnprintf` to `buf_log + strlen(buf_log)`, with all bytes
from there but the `spare` last ones. -/
def printAtEnd (left message : Bytes) (spare : Nat) (s : State) : Int × State :=
  let s := s.useLog.useLog
  let offset := strlen s.bufLog
  let room := toSizeT (LOGBUFSZ - offset - spare)
  let (count, rest) := vsnprintf (s.bufLog.drop offset) left message room
  let s := s.touch (bytesAt Memory.bufLog offset (vsnprintfCount message room))
  (count, { s with bufLog := s.bufLog.take offset ++ rest })

def checkCount (message : Bytes) (printed : Int × State) : Int × State :=
  if printed.1 < 0 then (-1, printed.2.perror message) else (0, printed.2)

def insertLevel (answers : Answers) (level : Int) (s : State) : Int × State :=
  if level = ERR then
    checkCount (text "snprintf in write_level".toList)
      (printAtEnd answers.left (text "[ERR]".toList) 0 s)
  else if level = INFO then
    checkCount (text "snprintf in write_level".toList)
      (printAtEnd answers.left (text "[INFO]".toList) 0 s)
  else
    (-1, s.perror (text "unknown level".toList))

def field (content : Bytes) : Bytes :=
  91 :: content ++ [93]

def insertTime (answers : Answers) (s : State) : Int × State :=
  let strtime := answers.ctime.bytes ++ [0]
  let last := toSizeT (strlen strtime - 1)
  let s := s.touch
    [Access.string Memory.strtime strtime, Access.byte Memory.strtime last]
  let strtime := strtime.set last 0
  let s := s.touch [Access.string Memory.strtime strtime]
  checkCount (text "snprintf in insert_time".toList)
    (printAtEnd answers.left (field (cstr strtime)) 0 s)

def insertPid (answers : Answers) (s : State) : Int × State :=
  checkCount (text "snprintf in insert_pid".toList)
    (printAtEnd answers.left (field (signedDecimal answers.getpid.toInt)) 0 s)

/-- The assignment `buf_log[strlen(buf_log)] = '\n'`. -/
def endLine (s : State) : State :=
  let offset := strlen s.bufLog
  let s := s.useLog.touch [Access.byte Memory.bufLog offset]
  { s with bufLog := s.bufLog.set offset 10 }

/-- `write(logfile, buf_log, strlen(buf_log))`. -/
def writeLog (s : State) : State :=
  let count := strlen s.bufLog
  let s := s.useLog.touch (bytesAt Memory.bufLog 0 count)
  { s with handed := s.handed ++ [s.bufLog.take count] }

/-- The test of `vsnprintf` in `logg`, and what follows. -/
def handOver (answers : Answers) (printed : Int × State) : Int × State :=
  let (count, s) := printed
  if count < 0 then
    (-1, s.perror (text "vsnprintf in lor_error".toList))
  else
    let s := writeLog (endLine s)
    if answers.write < 0 then
      (-1, s.perror (text "writing in logfile".toList))
    else
      (0, s)

/-- `message` is the text that the format expands to. -/
def logg (answers : Answers) (level : Int) (message : Bytes) (s : State) :
    Int × State :=
  let s := s.touch (bytesAt Memory.bufLog 0 LOGBUFSZ)
  let s := { s with bufLog := zeros LOGBUFSZ }
  let s := (insertLevel answers level s).2
  let s := (insertTime answers s).2
  let s := (insertPid answers s).2
  handOver answers (printAtEnd answers.left message 1 s)

/-!
## The line
-/

/-- The array holds a line in front of zeros, all accesses have been inside, and
nothing has been reported or handed to `write`. -/
structure Line (answers : Answers) (s : State) (line : Bytes) : Prop where
  bufLog : s.bufLog = padded LOGBUFSZ line
  noNul : NoNul line
  short : line.length < LOGBUFSZ
  inside : AllInside answers.size s.accesses
  silent : s.errors = []
  unwritten : s.handed = []

section Line

variable {answers : Answers} {s : State} {line : Bytes}

theorem Line.touch (h : Line answers s line) {accesses : List (Access Memory)}
    (hinside : AllInside answers.size accesses) :
    Line answers (s.touch accesses) line where
  bufLog := h.bufLog
  noNul := h.noNul
  short := h.short
  inside := allInside_append.mpr ⟨h.inside, hinside⟩
  silent := h.silent
  unwritten := h.unwritten

theorem Line.useLog (h : Line answers s line) : Line answers s.useLog line := by
  apply h.touch
  rw [allInside_singleton]
  show 0 ∈ s.bufLog
  rw [h.bufLog]
  exact mem_padded h.short

theorem Line.strlen_eq (h : Line answers s line) :
    strlen s.bufLog = line.length := by
  rw [h.bufLog, strlen_padded h.noNul]

theorem room_eq {offset spare : Nat} (h : offset + spare ≤ LOGBUFSZ) :
    toSizeT (LOGBUFSZ - offset - spare) = LOGBUFSZ - offset - spare := by
  unfold toSizeT LOGBUFSZ at *
  lia

theorem vsnprintfCount_le (message : Bytes) (n : Nat) :
    vsnprintfCount message n ≤ n := by
  unfold vsnprintfCount
  split
  · exact Nat.min_le_left _ _
  · exact le_refl n

theorem stored_inside (answers : Answers) (message : Bytes) {offset spare : Nat}
    (hfits : offset + spare ≤ LOGBUFSZ) :
    AllInside answers.size
      (bytesAt Memory.bufLog offset
        (vsnprintfCount message (LOGBUFSZ - offset - spare))) := by
  have hcount := vsnprintfCount_le message (LOGBUFSZ - offset - spare)
  apply bytesAt_inside
  show offset + _ ≤ LOGBUFSZ
  lia

theorem Line.print (h : Line answers s line) {message : Bytes} {spare : Nat}
    (left : Bytes) (hnul : NoNul message)
    (hfits : line.length + spare < LOGBUFSZ) (hint : message.length ≤ INT_MAX) :
    (printAtEnd left message spare s).1 = message.length ∧
      Line answers (printAtEnd left message spare s).2
        (line ++ message.take (LOGBUFSZ - line.length - spare - 1)) := by
  have hroom := room_eq (Nat.le_of_lt hfits)
  have hbuf : s.useLog.useLog.bufLog = padded LOGBUFSZ line := h.bufLog
  have hne : ¬ LOGBUFSZ - line.length - spare = 0 := by lia
  have htouched := h.useLog.useLog.touch
    (stored_inside answers message (Nat.le_of_lt hfits))
  unfold printAtEnd vsnprintf
  simp only [h.useLog.useLog.strlen_eq, hroom, if_pos hint, if_neg hne]
  refine ⟨trivial, ?_⟩
  constructor
  case bufLog =>
    show s.useLog.useLog.bufLog.take line.length ++
      snprintf (s.useLog.useLog.bufLog.drop line.length) message _ = _
    rw [hbuf]
    exact padded_snprintf (by lia) (by lia)
  case noNul =>
    apply h.noNul.append
    intro b hb
    exact hnul b (List.mem_of_mem_take hb)
  case short =>
    have htake := List.length_take_le (LOGBUFSZ - line.length - spare - 1) message
    rw [List.length_append]
    lia
  case inside => exact htouched.inside
  case silent => exact htouched.silent
  case unwritten => exact htouched.unwritten

theorem Line.print_fails (h : Line answers s line) {message : Bytes}
    {spare : Nat} (left : Bytes) (hfits : line.length + spare ≤ LOGBUFSZ)
    (hint : INT_MAX < message.length) :
    (printAtEnd left message spare s).1 = -1 ∧
      AllInside answers.size (printAtEnd left message spare s).2.accesses ∧
      (printAtEnd left message spare s).2.errors = [] ∧
      (printAtEnd left message spare s).2.handed = [] := by
  have hroom := room_eq hfits
  have htouched := h.useLog.useLog.touch (stored_inside answers message hfits)
  unfold printAtEnd vsnprintf
  simp only [h.useLog.useLog.strlen_eq, hroom, if_neg (Nat.not_le.mpr hint)]
  exact ⟨trivial, htouched.inside, htouched.silent, htouched.unwritten⟩

theorem Line.insert (h : Line answers s line) {message : Bytes}
    (left error : Bytes) (hnul : NoNul message)
    (hfits : line.length + message.length < LOGBUFSZ) :
    Line answers (checkCount error (printAtEnd left message 0 s)).2
      (line ++ message) := by
  have hint : message.length ≤ INT_MAX := by
    unfold LOGBUFSZ INT_MAX at *
    lia
  have htake : message.take (LOGBUFSZ - line.length - 0 - 1) = message :=
    List.take_of_length_le (by lia)
  have hroom : line.length + 0 < LOGBUFSZ := h.short
  rcases h.print left hnul hroom hint with ⟨hcount, hline⟩
  have hnonneg : ¬ (printAtEnd left message 0 s).1 < 0 := by
    rw [hcount]
    lia
  rw [htake] at hline
  rw [checkCount, if_neg hnonneg]
  exact hline

theorem Line.endLine (h : Line answers s line) (hfits : line.length + 1 < LOGBUFSZ) :
    Line answers (endLine s) (line ++ [10]) := by
  have hbyte : AllInside answers.size
      [Access.byte Memory.bufLog (strlen s.bufLog)] := by
    rw [allInside_singleton, h.strlen_eq]
    exact h.short
  have htouched := h.useLog.touch hbyte
  constructor
  case bufLog =>
    show s.bufLog.set (strlen s.bufLog) 10 = _
    rw [h.strlen_eq, h.bufLog]
    exact padded_set 10 h.short
  case noNul =>
    apply h.noNul.append
    decide
  case short =>
    rw [List.length_append]
    exact hfits
  case inside => exact htouched.inside
  case silent => exact htouched.silent
  case unwritten => exact htouched.unwritten

theorem Line.writeLog (h : Line answers s line) :
    AllInside answers.size (writeLog s).accesses ∧
      (writeLog s).errors = [] ∧ (writeLog s).handed = [line] := by
  have hbytes : AllInside answers.size
      (bytesAt Memory.bufLog 0 (strlen s.bufLog)) := by
    apply bytesAt_inside
    rw [Nat.zero_add, h.strlen_eq]
    exact Nat.le_of_lt h.short
  refine ⟨(h.useLog.touch hbytes).inside, h.silent, ?_⟩
  · show s.handed ++ [s.bufLog.take (strlen s.bufLog)] = [line]
    rw [h.unwritten, take_strlen, h.bufLog, cstr_padded h.noNul]
    rfl

end Line

/-!
## The record
-/

def levelField (level : Int) : Bytes :=
  if level = ERR then text "[ERR]".toList else text "[INFO]".toList

/-- The level, the time without its newline and the pid. -/
def header (answers : Answers) (level : Int) : Bytes :=
  levelField level ++ field answers.ctime.bytes.dropLast ++
    field (signedDecimal answers.getpid.toInt)

/-- The fields and the text, cut at `LOGBUFSZ - 2` bytes, and a newline. -/
def record (answers : Answers) (level : Int) (message : Bytes) : Bytes :=
  (header answers level ++ message).take (LOGBUFSZ - 2) ++ [10]

theorem field_length (content : Bytes) :
    (field content).length = content.length + 2 := by
  rw [field, List.length_append]
  rfl

theorem noNul_field {content : Bytes} (h : NoNul content) :
    NoNul (field content) := by
  apply NoNul.append
  · exact NoNul.cons (by decide) h
  · decide

theorem header_length (answers : Answers) (level : Int) :
    (header answers level).length ≤ 46 := by
  have hlevel : (levelField level).length ≤ 6 := by
    unfold levelField
    split
    · decide
    · decide
  have htime := answers.ctime.short
  have hpid := signedDecimal_length answers.getpid
  rw [header, List.length_append, List.length_append, field_length, field_length,
    List.length_dropLast]
  lia

section Record

variable {answers : Answers} {s : State} {line : Bytes}

theorem Line.insertLevel (h : Line answers s line) {level : Int}
    (hlevel : level = ERR ∨ level = INFO)
    (hfits : line.length + (levelField level).length < LOGBUFSZ) :
    Line answers (insertLevel answers level s).2 (line ++ levelField level) := by
  rcases hlevel with hlevel | hlevel
  · rw [hlevel] at hfits ⊢
    rw [Log.insertLevel, if_pos rfl]
    exact h.insert _ _ (by decide) hfits
  · rw [hlevel] at hfits ⊢
    rw [Log.insertLevel, if_neg (by decide), if_pos rfl]
    exact h.insert _ _ (by decide) hfits

theorem cut_time (time : TimeString) :
    (time.bytes ++ [0]).set (time.bytes.length - 1) 0 =
      time.bytes.dropLast ++ 0 :: [0] := by
  rcases List.eq_nil_or_concat time.bytes with hnil | ⟨front, b, hconcat⟩
  · exact absurd hnil time.nonempty
  · rw [hconcat, List.concat_eq_append, List.length_append, List.dropLast_concat,
      List.append_assoc, List.set_append_right _ _ (by simp)]
    simp

theorem Line.insertTime (h : Line answers s line)
    (hfits : line.length + (field answers.ctime.bytes.dropLast).length <
      LOGBUFSZ) :
    Line answers (insertTime answers s).2
      (line ++ field answers.ctime.bytes.dropLast) := by
  have hlength : strlen (answers.ctime.bytes ++ [0]) =
      answers.ctime.bytes.length :=
    congrArg List.length (cstr_append_zero answers.ctime.noNul [])
  have hpos := List.length_pos_iff.mpr answers.ctime.nonempty
  have hshort := answers.ctime.short
  have hlast : toSizeT (answers.ctime.bytes.length - 1) =
      answers.ctime.bytes.length - 1 := by
    unfold toSizeT
    lia
  have hnul : NoNul answers.ctime.bytes.dropLast := by
    intro b hb
    exact answers.ctime.noNul b (List.dropLast_subset _ hb)
  have hcut : cstr (answers.ctime.bytes.dropLast ++ 0 :: [0]) =
      answers.ctime.bytes.dropLast :=
    cstr_append_zero hnul [0]
  have hfirst : AllInside answers.size
      [Access.string Memory.strtime (answers.ctime.bytes ++ [0]),
        Access.byte Memory.strtime (answers.ctime.bytes.length - 1)] := by
    rw [allInside_cons, allInside_singleton]
    constructor
    · exact List.mem_append_right _ List.mem_cons_self
    · show answers.ctime.bytes.length - 1 < answers.ctime.bytes.length + 1
      lia
  have hsecond : AllInside answers.size
      [Access.string Memory.strtime
        (answers.ctime.bytes.dropLast ++ 0 :: [0])] := by
    rw [allInside_singleton]
    exact List.mem_append_right _ List.mem_cons_self
  simp only [Log.insertTime, hlength, hlast, cut_time, hcut]
  exact ((h.touch hfirst).touch hsecond).insert _ _ (noNul_field hnul) hfits

theorem Line.insertPid (h : Line answers s line)
    (hfits : line.length +
      (field (signedDecimal answers.getpid.toInt)).length < LOGBUFSZ) :
    Line answers (insertPid answers s).2
      (line ++ field (signedDecimal answers.getpid.toInt)) :=
  h.insert _ _ (noNul_field (noNul_signedDecimal _)) hfits

end Record

def opened (answers : Answers) (level : Int) (bufLog : Bytes) : State :=
  let s := (State.start bufLog).touch (bytesAt Memory.bufLog 0 LOGBUFSZ)
  let s := { s with bufLog := zeros LOGBUFSZ }
  (insertPid answers (insertTime answers (insertLevel answers level s).2).2).2

theorem line_opened (answers : Answers) {level : Int}
    (hlevel : level = ERR ∨ level = INFO) (bufLog : Bytes) :
    Line answers (opened answers level bufLog) (header answers level) := by
  have hempty : Line answers
      { (State.start bufLog).touch (bytesAt Memory.bufLog 0 LOGBUFSZ) with
        bufLog := zeros LOGBUFSZ } [] := by
    constructor
    case bufLog => exact (padded_nil LOGBUFSZ).symm
    case noNul => decide
    case short => decide
    case inside =>
      show AllInside answers.size ([] ++ bytesAt Memory.bufLog 0 LOGBUFSZ)
      exact bytesAt_inside (le_refl LOGBUFSZ)
    case silent => rfl
    case unwritten => rfl
  have hlength := header_length answers level
  have hroom : LOGBUFSZ = 256 := rfl
  rw [header, List.length_append, List.length_append] at hlength
  have hlevelLine := hempty.insertLevel hlevel (by rw [List.length_nil]; lia)
  have htimeLine := hlevelLine.insertTime (by rw [List.nil_append]; lia)
  have hpidLine := htimeLine.insertPid
    (by rw [List.nil_append, List.length_append]; lia)
  exact hpidLine

theorem logg_eq (answers : Answers) (level : Int) (message bufLog : Bytes) :
    logg answers level message (State.start bufLog) =
      handOver answers
        (printAtEnd answers.left message 1 (opened answers level bufLog)) :=
  rfl

theorem handOver_failed {answers : Answers} {printed : Int × State}
    (h : printed.1 < 0) :
    handOver answers printed =
      (-1, printed.2.perror (text "vsnprintf in lor_error".toList)) := by
  rw [handOver, if_pos h]

theorem handOver_printed {answers : Answers} {printed : Int × State}
    (h : ¬ printed.1 < 0) :
    handOver answers printed =
      if answers.write < 0 then
        (-1, (writeLog (endLine printed.2)).perror
          (text "writing in logfile".toList))
      else (0, writeLog (endLine printed.2)) := by
  rw [handOver, if_neg h]

def written (answers : Answers) (level : Int) (message : Bytes) : List Bytes :=
  if message.length ≤ INT_MAX then [record answers level message] else []

def result (answers : Answers) (message : Bytes) : Int × List Bytes :=
  if INT_MAX < message.length then (-1, [text "vsnprintf in lor_error".toList])
  else if answers.write < 0 then (-1, [text "writing in logfile".toList])
  else (0, [])

structure Logged (answers : Answers) (level : Int) (message : Bytes)
    (outcome : Int × State) : Prop where
  inside : AllInside answers.size outcome.2.accesses
  handed : outcome.2.handed = written answers level message
  result : (outcome.1, outcome.2.errors) = result answers message

theorem logg_overlong (answers : Answers) {level : Int}
    (hlevel : level = ERR ∨ level = INFO) {message : Bytes}
    (hint : INT_MAX < message.length) (bufLog : Bytes) :
    Logged answers level message
      (logg answers level message (State.start bufLog)) := by
  have hline := line_opened answers hlevel bufLog
  have hlength := header_length answers level
  have hfits : (header answers level).length + 1 ≤ LOGBUFSZ := by
    unfold LOGBUFSZ
    lia
  rcases hline.print_fails answers.left hfits hint with
    ⟨hcount, hinside, hsilent, hhanded⟩
  have hneg : (printAtEnd answers.left message 1
      (opened answers level bufLog)).1 < 0 := by
    rw [hcount]
    decide
  rw [logg_eq, handOver_failed hneg]
  constructor
  case inside => exact hinside
  case handed => exact hhanded.trans (if_neg (Nat.not_le.mpr hint)).symm
  case result =>
    rw [result, if_pos hint, State.perror, hsilent]
    rfl

theorem logg_written (answers : Answers) {level : Int}
    (hlevel : level = ERR ∨ level = INFO) {message : Bytes}
    (hnul : NoNul message) (hint : message.length ≤ INT_MAX) (bufLog : Bytes) :
    Logged answers level message
      (logg answers level message (State.start bufLog)) := by
  have hline := line_opened answers hlevel bufLog
  have hlength := header_length answers level
  have hsize : LOGBUFSZ = 256 := rfl
  have hfits : (header answers level).length + 1 < LOGBUFSZ := by lia
  have hcut : header answers level ++
      message.take (LOGBUFSZ - (header answers level).length - 1 - 1) =
        (header answers level ++ message).take (LOGBUFSZ - 2) := by
    have hindex : LOGBUFSZ - (header answers level).length - 1 - 1 =
        LOGBUFSZ - 2 - (header answers level).length := by
      lia
    have hheader : (header answers level).take (LOGBUFSZ - 2) =
        header answers level :=
      List.take_of_length_le (by lia)
    rw [List.take_append, hheader, hindex]
  have hshort :
      ((header answers level ++ message).take (LOGBUFSZ - 2)).length + 1 <
        LOGBUFSZ := by
    have htake := List.length_take_le (LOGBUFSZ - 2)
      (header answers level ++ message)
    lia
  rcases hline.print answers.left hnul hfits hint with ⟨hcount, hprinted⟩
  rw [hcut] at hprinted
  have hnonneg : ¬ (printAtEnd answers.left message 1
      (opened answers level bufLog)).1 < 0 := by
    rw [hcount]
    lia
  rcases (hprinted.endLine hshort).writeLog with ⟨hinside, hsilent, hhanded⟩
  have hrecord : written answers level message =
      [record answers level message] := if_pos hint
  rw [logg_eq, handOver_printed hnonneg]
  split
  case isTrue hwrite =>
    constructor
    case inside => exact hinside
    case handed => exact hhanded.trans hrecord.symm
    case result =>
      rw [result, if_neg (Nat.not_lt.mpr hint), if_pos hwrite, State.perror,
        hsilent]
      rfl
  case isFalse hwrite =>
    constructor
    case inside => exact hinside
    case handed => exact hhanded.trans hrecord.symm
    case result =>
      rw [result, if_neg (Nat.not_lt.mpr hint), if_neg hwrite, hsilent]

/-- All accesses are inside, `write` gets one record unless the length of the
text is no `int`, and a failure is reported and returned. -/
theorem logg_record (answers : Answers) (level : Int)
    (hlevel : level = ERR ∨ level = INFO) (message : Bytes)
    (hmessage : NoNul message) (bufLog : Bytes) :
    Logged answers level message
      (logg answers level message (State.start bufLog)) := by
  by_cases hint : message.length ≤ INT_MAX
  · exact logg_written answers hlevel hmessage hint bufLog
  · exact logg_overlong answers hlevel (Nat.not_le.mp hint) bufLog

def epoch : Answers where
  ctime :=
    { bytes := text "Thu Jan  1 00:00:00 1970\n".toList
      noNul := by decide
      nonempty := by decide
      short := by decide }
  getpid := 1
  left := []
  write := 0

theorem logg_record_text :
    (logg epoch ERR (text "no such file".toList) (State.start [])).2.handed =
      [text "[ERR][Thu Jan  1 00:00:00 1970][1]no such file\n".toList] :=
  (logg_record epoch ERR (Or.inl rfl) (text "no such file".toList) (by decide)
    []).handed.trans (by decide +kernel)

theorem overlong_text_unwritten :
    NoNul (List.replicate (INT_MAX + 1) 97) ∧
      (logg epoch ERR (List.replicate (INT_MAX + 1) 97)
        (State.start [])).2.handed = [] := by
  have hlong : INT_MAX < (List.replicate (INT_MAX + 1) (97 : UInt8)).length := by
    rw [List.length_replicate]
    exact Nat.lt_succ_self INT_MAX
  constructor
  · intro b hb
    rw [List.eq_of_mem_replicate hb]
    decide
  · exact (logg_overlong epoch (Or.inl rfl) hlong []).handed.trans
      (if_neg (Nat.not_le.mpr hlong))

end Log
end Socket
end UnixPrograms
