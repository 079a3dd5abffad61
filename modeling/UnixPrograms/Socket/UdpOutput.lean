import UnixPrograms.Foundation.Transition
import UnixPrograms.Socket.Lib

/-!
# The slave's output pipe

`handler` writes what a command prints into `buf_pipe`, or waits for a child
that does, and the only reader of the pipe is `send_data`, after `handler` has
returned.  The pipe is empty when `handler` is called, because `send_data`
reads until `poll` finds nothing.  The buffer of `stdout` need not be: no
command flushes it, and what the commands before have left there is written
with the first text that fills it.
-/

namespace UnixPrograms
namespace Socket

open Foundation

/-- What `printf` passes on: after `text` has been printed, the first
`due text` bytes of it have been written. -/
structure Stdio where
  due : Bytes -> Nat
  due_le : forall text, due text ≤ text.length
  due_mono : forall {part text : Bytes}, part.Sublist text -> due part ≤ due text

def unbuffered : Stdio where
  due := List.length
  due_le := fun _ => le_refl _
  due_mono := fun h => h.length_le

/-- What a call of `handler` does to the output. -/
inductive Work where
  /-- Wait for a child that writes this output. -/
  | child (output : Bytes)
  /-- `printf` of a text. -/
  | prints (text : Bytes)
  /-- `perror` of a text. -/
  | complains (text : Bytes)
  /-- Copy what bash answers through the terminal. -/
  | shell (output : Bytes)
deriving DecidableEq

structure Surroundings where
  lsOutput : Bytes
  chdirError : Option Bytes
  shellStarts : Bool
  shellWritable : Bool
  bashAnswer : Bytes

def quitText : Bytes :=
  text ['Q', 'u', 'i', 't', ' ', 'f', 'r', 'o', 'm', ' ', 's', 'l', 'a', 'v', 'e',
    ' ', 'p', 'r', 'o', 'c', 'e', 's', 's', '\n']

def bashWork (command : Command) (env : Surroundings) : Work :=
  if env.shellWritable = false then Work.prints []
  else if command = Command.quit then Work.prints quitText
  else Work.shell env.bashAnswer

def usualWork (data : Bytes) (command : Command) (env : Surroundings) : Work :=
  match command with
  | Command.print => Work.prints (cstr (data.drop (PRINT.length + 1)) ++ text ['\n'])
  | Command.ls => Work.child env.lsOutput
  | Command.cd =>
      match env.chdirError with
      | some message => Work.complains message
      | none =>
          Work.prints
            (text ['N', 'e', 'w', ' ', 'd', 'i', 'r', 'e', 'c', 't', 'o', 'r', 'y',
                ':', ' ', '('] ++
              cstr (data.drop (CD.length + 1)) ++ text [')', '\n'])
  | Command.shell =>
      if env.shellStarts = true then
        Work.prints
          (text ['S', 'h', 'e', 'l', 'l', ' ', 's', 't', 'a', 'r', 't', 'e', 'd',
            '\n'])
      else
        Work.prints
          (text ['E', 'r', 'r', 'o', 'r', ' ', 'w', 'i', 't', 'h', ' ', 's', 't',
            'a', 'r', 't', 'i', 'n', 'g', ' ', 's', 'h', 'e', 'l', 'l', '\n'])
  | Command.quit => Work.prints quitText
  | _ =>
      Work.prints
        (text ['U', 'N', 'K', 'N', 'O', 'W', 'N', ' ', 'C', 'O', 'M', 'M', 'A', 'N',
            'D', ':', ' ', '('] ++
          cstr data ++ text [')', '\n'])

def handlerWork (shellfd : Int) (data : Bytes) (env : Surroundings) : Work :=
  let command := getCommand data
  if 0 < shellfd then bashWork command env else usualWork data command env

/-!
## The call of `handler`
-/

inductive WorkPoint where
  /-- In `waitpid`, with this output still to be written by the child. -/
  | waiting (rest : Bytes)
  /-- In the loop of `bash_handler`, with this answer still to come. -/
  | polling (rest : Bytes)
  | returning
deriving DecidableEq

/-- The point, what has been printed, how many bytes the slave's current write
has still to put into the pipe, and how many bytes are in the pipe. -/
structure Handling where
  point : WorkPoint
  printed : Bytes
  outstanding : Nat
  used : Nat
deriving DecidableEq

def Handling.print (stdio : Stdio) (s : Handling) (text : Bytes) : Handling :=
  { s with
    printed := s.printed ++ text
    outstanding := stdio.due (s.printed ++ text) - stdio.due s.printed }

/-- Earlier commands have printed `left`, of which `stdio.due left` bytes have
been written. -/
def Handling.start (stdio : Stdio) (left : Bytes) (work : Work) : Handling :=
  let idle : Handling :=
    { point := WorkPoint.returning, printed := left, outstanding := 0, used := 0 }
  match work with
  | Work.child output => { idle with point := WorkPoint.waiting output }
  | Work.prints text => idle.print stdio text
  | Work.complains text => { idle with outstanding := text.length }
  | Work.shell output => { idle with point := WorkPoint.polling output }

inductive HandlingEvent where
  | childWrites (size : Nat)
  | childExits
  | slaveWrites (size : Nat)
  | shellAnswers (size : Nat)
  | pollEnds
deriving DecidableEq

/-- A write moves as many bytes as there is room for. -/
def handling (capacity : Nat) (stdio : Stdio) (s : Handling) :
    HandlingEvent -> Option Handling
  | HandlingEvent.childWrites size =>
      match s.point with
      | WorkPoint.waiting rest =>
          if 0 < size ∧ size ≤ rest.length ∧ s.used + size ≤ capacity then
            some
              { s with
                point := WorkPoint.waiting (rest.drop size)
                used := s.used + size }
          else
            none
      | _ => none
  | HandlingEvent.childExits =>
      match s.point with
      | WorkPoint.waiting [] => some { s with point := WorkPoint.returning }
      | _ => none
  | HandlingEvent.slaveWrites size =>
      if 0 < size ∧ size ≤ s.outstanding ∧ s.used + size ≤ capacity then
        some
          { s with
            outstanding := s.outstanding - size
            used := s.used + size }
      else
        none
  | HandlingEvent.shellAnswers size =>
      match s.point with
      | WorkPoint.polling rest =>
          if s.outstanding = 0 ∧ 0 < size ∧ size ≤ BUFSZ ∧
              size ≤ rest.length then
            some
              ({ s with point := WorkPoint.polling (rest.drop size) }.print stdio
                (cstr (rest.take size)))
          else
            none
      | _ => none
  | HandlingEvent.pollEnds =>
      match s.point with
      | WorkPoint.polling _ =>
          if s.outstanding = 0 then
            some { s with point := WorkPoint.returning }
          else
            none
      | _ => none

/-- The pipe is full, and the slave waits for a child that cannot write, or
cannot write itself. -/
def Stuck (capacity : Nat) (s : Handling) : Prop :=
  s.used = capacity ∧
    ((exists rest, s.point = WorkPoint.waiting rest ∧ rest ≠ []) ∨
      0 < s.outstanding)

def Handling.Returned (s : Handling) : Prop :=
  s.point = WorkPoint.returning ∧ s.outstanding = 0

/-- The bytes that a text without its zeros makes `printf` write. -/
def nonzero (output : Bytes) : Bytes :=
  output.filter (fun b => b ≠ 0)

def Work.size (stdio : Stdio) (left : Bytes) : Work -> Nat
  | Work.child output => output.length
  | Work.prints text => stdio.due (left ++ text) - stdio.due left
  | Work.complains text => text.length
  | Work.shell output => stdio.due (left ++ nonzero output) - stdio.due left

/-!
## A pipe with room for all

What can still come to be written never exceeds the room that is left, so that
each write ends.
-/

def future (stdio : Stdio) (printed : Bytes) : WorkPoint -> Nat
  | WorkPoint.waiting rest => rest.length
  | WorkPoint.polling rest =>
      stdio.due (printed ++ nonzero rest) - stdio.due printed
  | WorkPoint.returning => 0

def HasRoom (capacity : Nat) (stdio : Stdio) (s : Handling) : Prop :=
  s.used + s.outstanding + future stdio s.printed s.point ≤ capacity

theorem Stdio.due_append_le (stdio : Stdio) (text more : Bytes) :
    stdio.due text ≤ stdio.due (text ++ more) :=
  stdio.due_mono (List.sublist_append_left text more)

theorem cstr_sublist_nonzero (chunk : Bytes) :
    (cstr chunk).Sublist (nonzero chunk) := by
  have hself : nonzero (cstr chunk) = cstr chunk := by
    rw [nonzero, List.filter_eq_self]
    intro b hb
    simpa using noNul_cstr chunk b hb
  rw [← hself]
  exact ((List.takeWhile_prefix _).sublist).filter _

theorem due_chunk_le (stdio : Stdio) (printed chunk rest : Bytes) :
    (stdio.due (printed ++ cstr chunk) - stdio.due printed) +
        (stdio.due (printed ++ cstr chunk ++ nonzero rest) -
          stdio.due (printed ++ cstr chunk)) ≤
      stdio.due (printed ++ nonzero (chunk ++ rest)) - stdio.due printed := by
  have hfirst := stdio.due_append_le printed (cstr chunk)
  have hsecond := stdio.due_append_le (printed ++ cstr chunk) (nonzero rest)
  have hwhole : stdio.due (printed ++ cstr chunk ++ nonzero rest) ≤
      stdio.due (printed ++ nonzero (chunk ++ rest)) := by
    apply stdio.due_mono
    rw [List.append_assoc, nonzero, nonzero, List.filter_append]
    exact ((cstr_sublist_nonzero chunk).append_right _).append_left printed
  lia

theorem hasRoom_start {capacity : Nat} {stdio : Stdio} {left : Bytes} {work : Work}
    (h : work.size stdio left ≤ capacity) :
    HasRoom capacity stdio (Handling.start stdio left work) := by
  cases work with
  | child output =>
      show 0 + 0 + output.length ≤ capacity
      simpa [Work.size] using h
  | prints text =>
      show 0 + (stdio.due (left ++ text) - stdio.due left) + 0 ≤ capacity
      simpa [Work.size] using h
  | complains text =>
      show 0 + text.length + 0 ≤ capacity
      simpa [Work.size] using h
  | shell output =>
      show 0 + 0 + (stdio.due (left ++ nonzero output) - stdio.due left) ≤ capacity
      simpa [Work.size] using h

theorem HasRoom.step {capacity : Nat} {stdio : Stdio} {s s' : Handling}
    {e : HandlingEvent} (h : HasRoom capacity stdio s)
    (hstep : handling capacity stdio s e = some s') :
    HasRoom capacity stdio s' := by
  unfold HasRoom at h ⊢
  cases e with
  | childWrites size =>
      simp only [handling] at hstep
      split at hstep
      · rename_i rest hpoint
        split at hstep
        · rename_i hcond
          injection hstep with hstep
          rw [← hstep]
          rw [hpoint] at h
          show s.used + size + s.outstanding + (rest.drop size).length ≤ capacity
          rw [List.length_drop]
          simp only [future] at h
          lia
        · cases hstep
      · cases hstep
  | childExits =>
      simp only [handling] at hstep
      split at hstep
      · injection hstep with hstep
        rw [← hstep]
        show s.used + s.outstanding + 0 ≤ capacity
        lia
      · cases hstep
  | slaveWrites size =>
      simp only [handling] at hstep
      split at hstep
      · rename_i hcond
        injection hstep with hstep
        rw [← hstep]
        show s.used + size + (s.outstanding - size) +
          future stdio s.printed s.point ≤ capacity
        lia
      · cases hstep
  | shellAnswers size =>
      simp only [handling] at hstep
      split at hstep
      · rename_i rest hpoint
        split at hstep
        · rename_i hcond
          injection hstep with hstep
          rw [← hstep]
          rw [hpoint, hcond.left] at h
          have hchunk := due_chunk_le stdio s.printed (rest.take size)
            (rest.drop size)
          rw [List.take_append_drop] at hchunk
          simp only [future] at h
          show s.used + (stdio.due (s.printed ++ cstr (rest.take size)) -
              stdio.due s.printed) +
            (stdio.due (s.printed ++ cstr (rest.take size) ++
                nonzero (rest.drop size)) -
              stdio.due (s.printed ++ cstr (rest.take size))) ≤ capacity
          lia
        · cases hstep
      · cases hstep
  | pollEnds =>
      simp only [handling] at hstep
      split at hstep
      · split at hstep
        · injection hstep with hstep
          rw [← hstep]
          show s.used + s.outstanding + 0 ≤ capacity
          lia
        · cases hstep
      · cases hstep

theorem HasRoom.not_stuck {capacity : Nat} {stdio : Stdio} {s : Handling}
    (h : HasRoom capacity stdio s) : ¬ Stuck capacity s := by
  intro hstuck
  unfold HasRoom at h
  rcases hstuck with ⟨hused, ⟨rest, hpoint, hne⟩ | houtstanding⟩
  · rw [hpoint] at h
    have hpos : 0 < rest.length := List.length_pos_iff.mpr hne
    simp only [future] at h
    lia
  · lia

theorem returns_of_idle {capacity : Nat} {stdio : Stdio} {s : Handling}
    (h : HasRoom capacity stdio s) (hidle : s.outstanding = 0) :
    CanReach (handling capacity stdio) s Handling.Returned := by
  unfold HasRoom at h
  cases hpoint : s.point with
  | waiting rest =>
      rw [hpoint] at h
      cases rest with
      | nil =>
          apply CanReach.of_step HandlingEvent.childExits
          · simp only [handling, hpoint]
            rfl
          · exact CanReach.here ⟨rfl, hidle⟩
      | cons b rest =>
          have hcond : 0 < (b :: rest).length ∧
              (b :: rest).length ≤ (b :: rest).length ∧
              s.used + (b :: rest).length ≤ capacity := by
            simp only [future] at h
            exact ⟨Nat.succ_pos _, le_refl _, by lia⟩
          apply CanReach.of_step (HandlingEvent.childWrites (b :: rest).length)
          · simp only [handling, hpoint, if_pos hcond]
            rfl
          · apply CanReach.of_step HandlingEvent.childExits
            · simp only [handling, List.drop_length]
              rfl
            · exact CanReach.here ⟨rfl, hidle⟩
  | polling rest =>
      apply CanReach.of_step HandlingEvent.pollEnds
      · simp only [handling, hpoint, if_pos hidle]
        rfl
      · exact CanReach.here ⟨rfl, hidle⟩
  | returning => exact CanReach.here ⟨hpoint, hidle⟩

theorem write_ends {capacity : Nat} {stdio : Stdio} {s : Handling}
    (hpos : 0 < s.outstanding) (hroom : s.used + s.outstanding ≤ capacity) :
    handling capacity stdio s (HandlingEvent.slaveWrites s.outstanding) =
      some { s with outstanding := 0, used := s.used + s.outstanding } := by
  simp only [handling, if_pos (And.intro hpos (And.intro le_rfl hroom)),
    Nat.sub_self]

theorem HasRoom.returns {capacity : Nat} {stdio : Stdio} {s : Handling}
    (h : HasRoom capacity stdio s) :
    CanReach (handling capacity stdio) s Handling.Returned := by
  cases Nat.eq_zero_or_pos s.outstanding with
  | inl hidle => exact returns_of_idle h hidle
  | inr hpos =>
      have hfits : s.used + s.outstanding ≤ capacity := by
        unfold HasRoom at h
        lia
      have hstep := @write_ends capacity stdio s hpos hfits
      apply CanReach.of_step _ hstep
      exact returns_of_idle (h.step hstep) rfl

/-!
## A pipe that is too small

The slave, or the child it waits for, fills the pipe and blocks.  Nobody reads
before `handler` returns.
-/

theorem stuck_of_write {capacity : Nat} {stdio : Stdio} {s : Handling}
    (hused : s.used ≤ capacity) (h : capacity < s.used + s.outstanding) :
    CanReach (handling capacity stdio) s (Stuck capacity) := by
  cases Nat.eq_or_lt_of_le hused with
  | inl heq => exact CanReach.here ⟨heq, Or.inr (by lia)⟩
  | inr hlt =>
      have hcond : 0 < capacity - s.used ∧ capacity - s.used ≤ s.outstanding ∧
          s.used + (capacity - s.used) ≤ capacity := by
        lia
      apply CanReach.of_step (HandlingEvent.slaveWrites (capacity - s.used))
      · simp only [handling, if_pos hcond]
        rfl
      · apply CanReach.here
        constructor
        · show s.used + (capacity - s.used) = capacity
          lia
        · apply Or.inr
          show 0 < s.outstanding - (capacity - s.used)
          lia

theorem stuck_of_child {capacity : Nat} {stdio : Stdio} {s : Handling}
    {rest : Bytes} (hpoint : s.point = WorkPoint.waiting rest)
    (hused : s.used ≤ capacity) (h : capacity < s.used + rest.length) :
    CanReach (handling capacity stdio) s (Stuck capacity) := by
  cases Nat.eq_or_lt_of_le hused with
  | inl heq =>
      apply CanReach.here
      constructor
      · exact heq
      · apply Or.inl
        refine ⟨rest, hpoint, List.length_pos_iff.mp ?_⟩
        lia
  | inr hlt =>
      have hcond : 0 < capacity - s.used ∧ capacity - s.used ≤ rest.length ∧
          s.used + (capacity - s.used) ≤ capacity := by
        lia
      apply CanReach.of_step (HandlingEvent.childWrites (capacity - s.used))
      · simp only [handling, hpoint, if_pos hcond]
        rfl
      · apply CanReach.here
        constructor
        · show s.used + (capacity - s.used) = capacity
          lia
        · apply Or.inl
          refine ⟨rest.drop (capacity - s.used), rfl, ?_⟩
          intro hnil
          have hlength := List.drop_eq_nil_iff.mp hnil
          lia

theorem stuck_of_shell {capacity before : Nat} {stdio : Stdio} {rest : Bytes}
    {s : Handling} (hpoint : s.point = WorkPoint.polling rest)
    (hidle : s.outstanding = 0) (hused : before + s.used = stdio.due s.printed)
    (hle : s.used ≤ capacity)
    (h : before + capacity < stdio.due (s.printed ++ nonzero rest)) :
    CanReach (handling capacity stdio) s (Stuck capacity) := by
  induction rest generalizing s with
  | nil =>
      rw [nonzero, List.filter_nil, List.append_nil, ← hused] at h
      lia
  | cons b rest ih =>
      have hcond : s.outstanding = 0 ∧ 0 < 1 ∧ 1 ≤ BUFSZ ∧
          1 ≤ (b :: rest).length :=
        ⟨hidle, Nat.one_pos, by decide, Nat.succ_pos _⟩
      have hstep : handling capacity stdio s (HandlingEvent.shellAnswers 1) =
          some ({ s with point := WorkPoint.polling rest }.print stdio
            (cstr [b])) := by
        simp only [handling, hpoint, if_pos hcond]
        rfl
      apply CanReach.of_step _ hstep
      have hgrow := stdio.due_append_le s.printed (cstr [b])
      have hprinted : s.printed ++ nonzero (b :: rest) =
          s.printed ++ cstr [b] ++ nonzero rest := by
        rw [List.append_assoc]
        by_cases hb : b = 0
        · rw [hb]
          rfl
        · simp [nonzero, cstr, hb]
      rw [hprinted] at h
      cases Nat.lt_or_ge (before + capacity) (stdio.due (s.printed ++ cstr [b])) with
      | inl hfull =>
          apply stuck_of_write
          · exact hle
          · show capacity < s.used +
              (stdio.due (s.printed ++ cstr [b]) - stdio.due s.printed)
            lia
      | inr hroom =>
          cases Nat.eq_or_lt_of_le hgrow with
          | inl hsame =>
              apply ih
              · rfl
              · show stdio.due (s.printed ++ cstr [b]) - stdio.due s.printed = 0
                lia
              · exact hused.trans hsame
              · exact hle
              · exact h
          | inr hmore =>
              -- the byte is written before the next one is read
              apply CanReach.of_step _ (write_ends ?_ ?_)
              · apply ih
                · rfl
                · rfl
                · show before + (s.used + (stdio.due (s.printed ++ cstr [b]) -
                    stdio.due s.printed)) = stdio.due (s.printed ++ cstr [b])
                  lia
                · show s.used + (stdio.due (s.printed ++ cstr [b]) -
                    stdio.due s.printed) ≤ capacity
                  lia
                · exact h
              · show 0 < stdio.due (s.printed ++ cstr [b]) - stdio.due s.printed
                lia
              · show s.used + (stdio.due (s.printed ++ cstr [b]) -
                  stdio.due s.printed) ≤ capacity
                lia

theorem stuck_of_size {capacity : Nat} {stdio : Stdio} {left : Bytes} {work : Work}
    (h : capacity < work.size stdio left) :
    CanReach (handling capacity stdio) (Handling.start stdio left work)
      (Stuck capacity) := by
  cases work with
  | child output =>
      apply @stuck_of_child capacity stdio _ output
      · rfl
      · exact Nat.zero_le _
      · show capacity < 0 + output.length
        rw [Nat.zero_add]
        exact h
  | prints text =>
      apply stuck_of_write
      · exact Nat.zero_le _
      · show capacity < 0 + (stdio.due (left ++ text) - stdio.due left)
        rw [Nat.zero_add]
        exact h
  | complains text =>
      apply stuck_of_write
      · exact Nat.zero_le _
      · show capacity < 0 + text.length
        rw [Nat.zero_add]
        exact h
  | shell output =>
      have hsize : capacity < stdio.due (left ++ nonzero output) - stdio.due left := h
      apply @stuck_of_shell capacity (stdio.due left) stdio output
      · rfl
      · rfl
      · rfl
      · exact Nat.zero_le _
      · show stdio.due left + capacity < stdio.due (left ++ nonzero output)
        lia

def listing (output : Bytes) : Surroundings where
  lsOutput := output
  chdirError := none
  shellStarts := true
  shellWritable := true
  bashAnswer := []

end Socket
end UnixPrograms
