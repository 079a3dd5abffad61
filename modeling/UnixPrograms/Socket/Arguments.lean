import UnixPrograms.Socket.UdpOutput
import UnixPrograms.Socket.UdpRequest

/-!
# The argument of a command

From the line that is typed to the argument that `usual_handler` uses.  `fgets`
keeps the newline, and nothing removes it afterwards, so the argument ends in
it unless the array of `get_str` is full before.
-/

namespace UnixPrograms
namespace Socket

open Foundation

/-!
## The handler
-/

/-- What `usual_handler` asks the system for. -/
inductive Performed where
  | prints (text : Bytes)
  | runsLs
  | changesDirectory (path : Bytes)
  | startsShell
deriving DecidableEq

def usualHandler (buffer : Bytes) (command : Command) : Performed × Int :=
  match command with
  | Command.print =>
      (Performed.prints (cstr (buffer.drop (PRINT.length + 1)) ++ text ['\n']), 1)
  | Command.ls => (Performed.runsLs, 1)
  | Command.cd =>
      (Performed.changesDirectory (cstr (buffer.drop (CD.length + 1))), 1)
  | Command.shell => (Performed.startsShell, 1)
  | Command.quit => (Performed.prints quitText, 0)
  | _ =>
      (Performed.prints
        (text ['U', 'N', 'K', 'N', 'O', 'W', 'N', ' ', 'C', 'O', 'M', 'M', 'A', 'N',
            'D', ':', ' ', '('] ++
          cstr buffer ++ text [')', '\n']), 1)

def Performed.work (env : Surroundings) : Performed -> Work
  | Performed.prints text => Work.prints text
  | Performed.runsLs => Work.child env.lsOutput
  | Performed.changesDirectory path =>
      match env.chdirError with
      | some message => Work.complains message
      | none =>
          Work.prints
            (text ['N', 'e', 'w', ' ', 'd', 'i', 'r', 'e', 'c', 't', 'o', 'r', 'y',
                ':', ' ', '('] ++
              path ++ text [')', '\n'])
  | Performed.startsShell =>
      if env.shellStarts = true then
        Work.prints
          (text ['S', 'h', 'e', 'l', 'l', ' ', 's', 't', 'a', 'r', 't', 'e', 'd',
            '\n'])
      else
        Work.prints
          (text ['E', 'r', 'r', 'o', 'r', ' ', 'w', 'i', 't', 'h', ' ', 's', 't',
            'a', 'r', 't', 'i', 'n', 'g', ' ', 's', 'h', 'e', 'l', 'l', '\n'])

/-- The output of a command is the one of what `usual_handler` performs. -/
theorem usualWork_eq (data : Bytes) (command : Command) (env : Surroundings) :
    usualWork data command env = (usualHandler data command).1.work env := by
  cases command with
  | unknown => rfl
  | print => rfl
  | exitCom => rfl
  | cd => rfl
  | ls => rfl
  | findall => rfl
  | shell => rfl
  | quit => rfl

/-!
## The way of a line
-/

def CarriedIntact (typed : Typed) (data : Bytes) : Prop :=
  exists old, cstr data = cstr (separateBuffer typed.request old).2

/-- What the handler performs for a typed line, whatever is in the buffers and
behind the line in the input. -/
def Performs (line : Bytes) (performed : Performed) : Prop :=
  forall clientId stale rest, IsClientId clientId ->
    exists typed, getStr clientId stale (line ++ 10 :: rest) = some typed ∧
      forall data, CarriedIntact typed data ->
        usualHandler data (getCommand data) = (performed, 1)

/-- The longest text that `fgets` takes at once. -/
def TEXTSZ : Nat := BUFSZ - IDSZ - 1

def newlineOf (line : Bytes) : Bytes :=
  if line.length = TEXTSZ then [] else [10]

theorem fgets_line {line : Bytes} (h : 10 ∉ line) (hlength : line.length ≤ TEXTSZ)
    (rest : Bytes) :
    exists left, fgets (BUFSZ - IDSZ) (line ++ 10 :: rest) =
      some (line ++ newlineOf line, left) := by
  have hwhole : (line ++ 10 :: rest).takeWhile (fun b => b ≠ 10) = line := by
    rw [List.takeWhile_append_of_pos
      (fun b hb => by
        have hne : b ≠ 10 := fun heq => h (heq ▸ hb)
        simpa using hne)]
    exact List.append_nil line
  have hread : (line ++ 10 :: rest).take (min TEXTSZ (line.length + 1)) =
      line ++ newlineOf line := by
    rw [newlineOf]
    split
    case isTrue hfull =>
      rw [Nat.min_eq_left (by lia), ← hfull, List.take_left, List.append_nil]
    case isFalse hshort =>
      rw [Nat.min_eq_right (by lia), List.take_length_add_append]
      rfl
  refine ⟨(line ++ 10 :: rest).drop (min TEXTSZ (line.length + 1)), ?_⟩
  rw [fgets, if_neg (List.append_ne_nil_of_right_ne_nil _ (by simp)), hwhole,
    ← hread]
  rfl

theorem getStr_text {clientId stale input : Bytes} {typed : Typed}
    (hid : IsClientId clientId)
    (h : getStr clientId stale input = some typed) (hpiece : NoNul typed.piece) :
    cstr (typed.request.drop IDSZ) = typed.piece := by
  rw [getStr] at h
  cases hread : fgets (BUFSZ - IDSZ) input with
  | none =>
      rw [hread] at h
      cases h
  | some pair =>
      rcases pair with ⟨read, left⟩
      rw [hread] at h
      injection h with h
      rw [← h] at hpiece ⊢
      change NoNul read at hpiece
      have hshort := (fgets_split hread).right.left
      have hfits : (cstr clientId ++ read).length ≤ BUFSZ - 1 := by
        rw [List.length_append, hid.length]
        unfold BUFSZ IDSZ at *
        lia
      have hcount : BUFSZ - IDSZ - read.length =
          TEXTSZ - read.length + 1 := by
        unfold TEXTSZ BUFSZ IDSZ at *
        lia
      have hbuffer : cstr (read ++ zeros (BUFSZ - IDSZ - read.length)) =
          read := by
        rw [hcount]
        exact cstr_append_zero hpiece _
      change cstr ((snprintf stale (cstr clientId ++
        cstr (read ++ zeros (BUFSZ - IDSZ - read.length))) BUFSZ).drop IDSZ) =
          read
      rw [hbuffer, snprintf, List.take_of_length_le hfits, List.append_assoc,
        List.drop_left' hid.length, cstr_append_zero hpiece]

theorem carriedIntact_serverData {clientId stale input : Bytes} {typed : Typed}
    (hid : IsClientId clientId) (hinput : Maskable input)
    (h : getStr clientId stale input = some typed) (data : Bytes) :
    CarriedIntact typed (serverData typed.request data) := by
  rcases getStr_spec hid hinput h with ⟨harrives, hsplit⟩
  have hpiece : NoNul typed.piece := by
    intro b hb
    rw [hsplit] at hinput
    exact (hinput b (List.mem_append_left _ hb)).left
  refine ⟨[], ?_⟩
  rw [harrives.arrives, cstr_separateBuffer, getStr_text hid h hpiece]

theorem getStr_line {clientId : Bytes} (hid : IsClientId clientId)
    {line : Bytes} (hline : NoNul line) (h : 10 ∉ line)
    (hlength : line.length ≤ TEXTSZ) (stale rest : Bytes) :
    exists typed, getStr clientId stale (line ++ 10 :: rest) = some typed ∧
      (exists data, CarriedIntact typed data) ∧
      forall data, CarriedIntact typed data ->
        cstr data = line ++ newlineOf line := by
  rcases fgets_line h hlength rest with ⟨left, hread⟩
  have hpiece : NoNul (line ++ newlineOf line) := by
    apply hline.append
    rw [newlineOf]
    split
    · decide
    · decide
  have htyped : exists typed,
      getStr clientId stale (line ++ 10 :: rest) = some typed ∧
        typed.piece = line ++ newlineOf line := by
    rw [getStr, hread]
    exact ⟨_, rfl, rfl⟩
  rcases htyped with ⟨typed, hget, heq⟩
  rw [← heq] at hpiece ⊢
  refine ⟨typed, hget, ⟨_, [], rfl⟩, ?_⟩
  rintro data ⟨old, hdata⟩
  rw [hdata, cstr_separateBuffer, getStr_text hid hget hpiece]

/-!
## The two commands
-/

section Commands

variable {data argument : Bytes}

theorem usualHandler_cd (h : cstr data = CD ++ 32 :: argument) :
    usualHandler data (getCommand data) =
      (Performed.changesDirectory argument, 1) := by
  have hcommand : getCommand data = Command.cd := by
    simp only [getCommand, startsWith, h]
    rfl
  have hlength : CD.length + 1 ≤ strlen data := by
    rw [strlen, h, List.length_append, List.length_cons]
    lia
  rw [hcommand, usualHandler, cstr_drop hlength, h]
  rfl

theorem usualHandler_print (h : cstr data = PRINT ++ 32 :: argument) :
    usualHandler data (getCommand data) =
      (Performed.prints (argument ++ [10]), 1) := by
  have hcommand : getCommand data = Command.print := by
    simp only [getCommand, startsWith, h]
    rfl
  have hlength : PRINT.length + 1 ≤ strlen data := by
    rw [strlen, h, List.length_append, List.length_cons]
    lia
  rw [hcommand, usualHandler, cstr_drop hlength, h]
  rfl

def zeroId : Bytes := List.replicate IDSZ 48

theorem isClientId_zeroId : IsClientId zeroId where
  digits := by
    intro b hb
    have hzero : cstr zeroId = zeroId := by
      decide
    rw [hzero] at hb
    rw [List.eq_of_mem_replicate hb]
    rfl
  length := by decide

theorem performs_iff {word : Bytes} {performed : Bytes -> Performed}
    (hinjective : Function.Injective performed)
    (hhandler : forall data argument, cstr data = word ++ 32 :: argument ->
      usualHandler data (getCommand data) = (performed argument, 1))
    (hword : Maskable word ∧ 10 ∉ word) (hmask : Maskable argument)
    (hline : 10 ∉ argument)
    (hlength : (word ++ 32 :: argument).length ≤ TEXTSZ) :
    Performs (word ++ 32 :: argument) (performed argument) <->
      (word ++ 32 :: argument).length = TEXTSZ := by
  have hnoNul : NoNul (word ++ 32 :: argument) :=
    hword.left.noNul.append (NoNul.cons (by decide) hmask.noNul)
  have hno : 10 ∉ word ++ 32 :: argument := by
    intro hmem
    rcases List.mem_append.mp hmem with hmem | hmem
    · exact hword.right hmem
    · rcases List.mem_cons.mp hmem with heq | hmem
      · cases heq
      · exact hline hmem
  have hresult : forall data,
      cstr data = word ++ 32 :: argument ++ newlineOf (word ++ 32 :: argument) ->
      usualHandler data (getCommand data) =
        (performed (argument ++ newlineOf (word ++ 32 :: argument)), 1) := by
    intro data hdata
    refine hhandler data _ ?_
    rw [hdata, List.append_assoc]
    rfl
  constructor
  · intro h
    rcases getStr_line isClientId_zeroId hnoNul hno hlength [] [] with
      ⟨typed, hget, ⟨data, hcarried⟩, hstring⟩
    rcases h zeroId [] [] isClientId_zeroId with ⟨typed', hget', hall⟩
    rw [hget] at hget'
    injection hget' with hsame
    rw [← hsame] at hall
    have hboth := (hresult data (hstring data hcarried)).symm.trans
      (hall data hcarried)
    injection hboth with hperformed _
    have hlast := List.append_right_eq_self.mp (hinjective hperformed)
    by_contra hshort
    rw [newlineOf, if_neg hshort] at hlast
    cases hlast
  · intro hfull clientId stale rest hid
    rcases getStr_line hid hnoNul hno hlength stale rest with
      ⟨typed, hget, _, hstring⟩
    refine ⟨typed, hget, fun data hcarried => ?_⟩
    rw [hresult data (hstring data hcarried), newlineOf, if_pos hfull,
      List.append_nil]

theorem performs_cd_iff (hmask : Maskable argument) (hline : 10 ∉ argument)
    (hlength : argument.length ≤ 242) :
    Performs (CD ++ 32 :: argument) (Performed.changesDirectory argument) <->
      argument.length = 242 := by
  have hwhole : (CD ++ 32 :: argument).length = argument.length + 3 := by
    rw [List.length_append, List.length_cons, Nat.add_comm]
    rfl
  have htext : TEXTSZ = 245 := rfl
  rw [performs_iff (fun a b h => by injection h)
    (fun data argument => usualHandler_cd) ⟨by decide, by decide⟩ hmask hline
    (by lia)]
  lia

theorem performs_print_iff (hmask : Maskable argument) (hline : 10 ∉ argument)
    (hlength : argument.length ≤ 239) :
    Performs (PRINT ++ 32 :: argument) (Performed.prints (argument ++ [10])) <->
      argument.length = 239 := by
  have hwhole : (PRINT ++ 32 :: argument).length = argument.length + 6 := by
    rw [List.length_append, List.length_cons, Nat.add_comm]
    rfl
  have htext : TEXTSZ = 245 := rfl
  have hinjective : Function.Injective
      (fun argument => Performed.prints (argument ++ [10])) := by
    intro a b h
    injection h with h
    exact List.append_cancel_right h
  rw [performs_iff hinjective (fun data argument => usualHandler_print)
    ⟨by decide, by decide⟩ hmask hline (by lia)]
  lia

/-- The argument of a typed command arrives exactly when the line is as long
as the array of `get_str` allows, so that the newline stays in the input. -/
theorem arguments_exact_iff (hmask : Maskable argument)
    (hline : 10 ∉ argument) :
    (argument.length ≤ 242 ->
      (Performs (CD ++ 32 :: argument)
          (Performed.changesDirectory argument) <->
        argument.length = 242)) ∧
      (argument.length ≤ 239 ->
        (Performs (PRINT ++ 32 :: argument)
            (Performed.prints (argument ++ [10])) <->
          argument.length = 239)) :=
  ⟨performs_cd_iff hmask hline, performs_print_iff hmask hline⟩

theorem arguments_exact_iff_longest :
    Performs (CD ++ 32 :: List.replicate 242 97)
      (Performed.changesDirectory (List.replicate 242 97)) := by
  have hmask : Maskable (List.replicate 242 97) := by
    intro b hb
    rw [List.eq_of_mem_replicate hb]
    decide
  have hline : 10 ∉ List.replicate 242 (97 : UInt8) := by
    intro hmem
    cases List.eq_of_mem_replicate hmem
  have hlength : (List.replicate 242 (97 : UInt8)).length = 242 :=
    List.length_replicate
  exact ((arguments_exact_iff hmask hline).left (Nat.le_of_eq hlength)).mpr
    hlength

/-- The command `cd x` is for a directory whose name ends in a newline. -/
theorem newline_in_argument :
    usualHandler (text ['c', 'd', ' ', 'x', '\n', '\x00']) Command.cd =
        (Performed.changesDirectory (text ['x', '\n']), 1) ∧
      ¬ Performs (text ['c', 'd', ' ', 'x'])
        (Performed.changesDirectory (text ['x'])) ∧
      ¬ Performs (text ['p', 'r', 'i', 'n', 't', ' ', 'x'])
        (Performed.prints (text ['x', '\n'])) := by
  refine ⟨by decide, ?_, ?_⟩
  · intro h
    have hlength := (@performs_cd_iff (text ['x']) (by decide) (by decide)
      (by decide)).mp h
    revert hlength
    decide
  · intro h
    have hlength := (@performs_print_iff (text ['x']) (by decide) (by decide)
      (by decide)).mp h
    revert hlength
    decide

end Commands

end Socket
end UnixPrograms
