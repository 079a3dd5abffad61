import UnixPrograms.Foundation.Decimal
import UnixPrograms.Socket.TcpDialogue
import UnixPrograms.Socket.TcpEnding

/-!
# Terminators in relayed chunks

Arrays of `BUFSZ` bytes are filled by `read` and `recv` and then taken for
strings.  For each call of a string function the array is recorded from the
byte on at which the call begins; it has to find a NUL there.  `read` is asked
for `BUFSZ` bytes, `recv` for one byte less.
-/

namespace UnixPrograms
namespace Socket
namespace Relay

open Foundation

/-- What a call delivers that is asked for `size` bytes. -/
structure Chunk (size : Nat) where
  bytes : Bytes
  short : bytes.length ≤ size

/-- An array, and what string functions have been called on. -/
structure Buffer where
  data : Bytes
  uses : List Bytes

namespace Buffer

def useFrom (a : Buffer) (offset : Nat) : Buffer :=
  { a with uses := a.uses ++ [a.data.drop offset] }

def clear (a : Buffer) : Buffer :=
  { a with data := zeros BUFSZ }

def fill (a : Buffer) (bytes : Bytes) : Buffer :=
  { a with data := bytes ++ a.data.drop bytes.length }

/-- `encode` and `decode` take the length of the string first. -/
def encode (a : Buffer) : Buffer :=
  let a := a.useFrom 0
  { a with data := Socket.encode a.data }

end Buffer

/-- The loop of `send_data`, once for each `read`; `none` is -1. -/
def sendData (a : Buffer) : List (Option (Chunk BUFSZ)) -> Buffer
  | [] => a
  | none :: reads => sendData a.clear reads
  | some chunk :: reads => sendData (a.clear.fill chunk.bytes).encode reads

/-- The loop of `bash_handler`, which prints the array also behind a `read`
that has failed. -/
def shellOutput (a : Buffer) : List (Option (Chunk BUFSZ)) -> Buffer
  | [] => a
  | none :: reads => shellOutput (a.clear.useFrom 0) reads
  | some chunk :: reads =>
      shellOutput ((a.clear.fill chunk.bytes).useFrom 0) reads

structure Scene where
  childDied : Bool
  terminal : Option Nat
  shellStarts : Bool
  writable : Bool
  shellReads : List (Option (Chunk BUFSZ))
  outputReads : List (Option (Chunk BUFSZ))

def Scene.turn (scene : Scene) : Tcp.Turn where
  recv := none
  childDied := scene.childDied
  terminal := scene.terminal
  shellStarts := scene.shellStarts
  writable := scene.writable

def Scene.HasShell (scene : Scene) (shellfd : Int) : Prop :=
  0 < scene.turn.shellfd shellfd

instance (scene : Scene) (shellfd : Int) : Decidable (scene.HasShell shellfd) :=
  inferInstanceAs (Decidable (_ < _))

def bashHandler (a : Buffer) (command : Command) (scene : Scene) : Buffer :=
  if command = Command.quit then a
  else
    -- the log, and `strlen` for the `write`
    let a := (a.useFrom 0).useFrom 0
    if scene.writable = true then shellOutput a scene.shellReads else a

def usualHandler (a : Buffer) (command : Command) : Buffer :=
  match command with
  | Command.print => a.useFrom (PRINT.length + 1)
  | Command.cd => a.useFrom (CD.length + 1)
  | Command.ls => a
  | Command.shell => a
  | Command.quit => a
  | _ => a.useFrom 0

def handler (shellfd : Int) (a : Buffer) (scene : Scene) : (Int × Int) × Buffer :=
  let a := a.useFrom 0
  let command := getCommand a.data
  (Tcp.handler shellfd command scene.turn,
    if scene.HasShell shellfd then bashHandler a command scene
    else usualHandler a command)

structure SlaveState where
  shellfd : Int
  flag : Int
  uses : List Bytes

def SlaveState.start : SlaveState where
  shellfd := -1
  flag := 1
  uses := []

def serve (shellfd : Int) (a : Buffer) (scene : Scene) : SlaveState :=
  let (results, a) := handler shellfd a scene
  { shellfd := results.2
    flag := results.1
    uses := (sendData a scene.outputReads).uses }

structure UdpTurn where
  read : Option (Chunk BUFSZ)
  scene : Scene

/-- The loop of `slave` in `UDP.c`. -/
def udpSlave (s : SlaveState) (t : UdpTurn) : Option SlaveState :=
  if s.flag = 0 then none
  else
    match t.read with
    | none => some s
    | some chunk =>
        let a : Buffer := { data := zeros BUFSZ, uses := s.uses }
        some (serve s.shellfd (a.fill chunk.bytes) t.scene)

/-- Either `receive_buf`: the test for too many bytes never holds. -/
def receiveBuf (a : Buffer) (recv : Option (Chunk (BUFSZ - 1))) : Int × Buffer :=
  let a := a.clear
  match recv with
  | none => (-1, a)
  | some chunk =>
      let a := (a.fill chunk.bytes).encode
      let a := a.useFrom 0
      (strlen a.data, a)

def separate (a : Buffer) (data : Bytes) : Buffer :=
  let a := (a.useFrom 0).useFrom IDSZ
  { data := (separateBuffer a.data data).2
    uses := a.uses }

def answerFindall (a : Buffer) : Buffer :=
  Buffer.encode
    { a with data := snprintf a.data (text "server".toList) BUFSZ }

structure TcpTurn where
  recv : Option (Chunk (BUFSZ - 1))
  scene : Scene

/-- The loop of `slave` in `TCP.c`. -/
def tcpSlave (s : SlaveState) (t : TcpTurn) : Option SlaveState :=
  if s.flag = 0 then none
  else
    let (ret, a) := receiveBuf { data := zeros BUFSZ, uses := s.uses } t.recv
    if ret ≤ 0 then some { s with uses := a.uses }
    else
      -- the log, and `get_command`
      let a := ((separate a (zeros BUFSZ)).useFrom 0).useFrom 0
      if getCommand a.data = Command.findall then
        some { s with uses := (answerFindall a).uses }
      else some (serve s.shellfd a t.scene)

structure MasterTurn where
  recv : Option (Chunk (BUFSZ - 1))
  /-- The client is there, or it finds a place. -/
  admitted : Bool

/-- The loop of `master` in `UDP.c`, on the array `data`. -/
def udpMaster (a : Buffer) (t : MasterTurn) : Option Buffer :=
  let buffer := (receiveBuf { data := zeros BUFSZ, uses := a.uses } t.recv).2
  let a := separate buffer a.data
  if t.admitted = false then some a
  else
    let a := a.useFrom 0
    if getCommand a.data = Command.findall then some (answerFindall a)
    else some ((a.useFrom 0).useFrom 0)

/-- The calls of `receive_buf` in the client, each with a `printf` behind
it. -/
def client (a : Buffer) : List (Option (Chunk (BUFSZ - 1))) -> Buffer
  | [] => a
  | recv :: recvs => client ((receiveBuf a recv).2.useFrom 0) recvs

def AllEnd (uses : List Bytes) : Prop :=
  forall use, use ∈ uses -> 0 ∈ use

instance (uses : List Bytes) : Decidable (AllEnd uses) :=
  inferInstanceAs (Decidable (forall use, use ∈ uses -> 0 ∈ use))

/-!
## Which chunks are harmless
-/

/-- The chunk leaves a byte of the array free, or there is a NUL in it behind
the first `offset` bytes. -/
def Chunk.EndsFrom (chunk : Chunk BUFSZ) (offset : Nat) : Prop :=
  chunk.bytes.length < BUFSZ ∨ 0 ∈ chunk.bytes.drop offset

def Ending (reads : List (Option (Chunk BUFSZ))) : Prop :=
  forall chunk, some chunk ∈ reads -> chunk.EndsFrom 0

/-- Where `usual_handler` begins with a string. -/
def argumentOf : Command -> Nat
  | Command.print => PRINT.length + 1
  | Command.cd => CD.length + 1
  | _ => 0

structure Scene.Harmless (scene : Scene) (shellfd : Int) (command : Command) :
    Prop where
  shell : scene.HasShell shellfd -> command ≠ Command.quit ->
    scene.writable = true -> Ending scene.shellReads
  output : Ending scene.outputReads

def commandIn (bytes : Bytes) : Command :=
  getCommand (bytes ++ (zeros BUFSZ).drop bytes.length)

def UdpHarmless (s : SlaveState) (t : UdpTurn) : Prop :=
  forall chunk, t.read = some chunk ->
    chunk.EndsFrom 0 ∧
      (¬ t.scene.HasShell s.shellfd ->
        chunk.EndsFrom (argumentOf (commandIn chunk.bytes))) ∧
      t.scene.Harmless s.shellfd (commandIn chunk.bytes)

def textOf (recv : Option (Chunk (BUFSZ - 1))) : Bytes :=
  (separateBuffer
    (receiveBuf { data := zeros BUFSZ, uses := [] } recv).2.data
    (zeros BUFSZ)).2

def TcpHarmless (s : SlaveState) (t : TcpTurn) : Prop :=
  0 < (receiveBuf { data := zeros BUFSZ, uses := [] } t.recv).1 ->
    getCommand (textOf t.recv) ≠ Command.findall ->
    t.scene.Harmless s.shellfd (getCommand (textOf t.recv))

/-!
## Buffers that end in a zero

A buffer whose last byte is zero stays so through `encode`, `decode` and the
copies, which never write behind a terminator.
-/

structure Sealed (data : Bytes) : Prop where
  length : data.length = BUFSZ
  last : data.getLast? = some 0

theorem Sealed.mem_drop {data : Bytes} (h : Sealed data) {offset : Nat}
    (hoffset : offset < BUFSZ) : 0 ∈ data.drop offset := by
  have hlast : (data.drop offset).getLast? = some 0 := by
    rw [List.getLast?_drop, if_neg (by rw [h.length]; lia)]
    exact h.last
  exact List.mem_of_getLast? hlast

theorem getLast?_zeros {n : Nat} (h : 0 < n) : (zeros n).getLast? = some 0 := by
  unfold zeros
  rw [List.getLast?_replicate, if_neg (Nat.ne_of_gt h)]

theorem sealed_zeros : Sealed (zeros BUFSZ) where
  length := List.length_replicate
  last := getLast?_zeros (by decide)

theorem Sealed.patch {data front : Bytes} (h : Sealed data)
    (hshort : front.length < BUFSZ) :
    Sealed (front ++ data.drop front.length) := by
  have hrest : data.drop front.length ≠ [] := by
    rw [← List.length_pos_iff, List.length_drop, h.length]
    lia
  constructor
  case length =>
    rw [List.length_append, List.length_drop, h.length]
    lia
  case last =>
    rw [List.getLast?_append_of_ne_nil _ hrest, List.getLast?_drop,
      if_neg (by rw [h.length]; lia)]
    exact h.last

theorem Sealed.strlen_lt {data : Bytes} (h : Sealed data) :
    strlen data < BUFSZ := by
  have hle : strlen data ≤ data.length :=
    (List.takeWhile_prefix _).length_le
  rw [← h.length]
  refine Nat.lt_of_le_of_ne hle (fun heq => ?_)
  have hsame : cstr data = data := (List.takeWhile_prefix _).eq_of_length heq
  have hmem : (0 : UInt8) ∈ cstr data := by
    rw [hsame]
    exact List.mem_of_getLast? h.last
  exact noNul_cstr data 0 hmem rfl

theorem Sealed.encode {data : Bytes} (h : Sealed data) :
    Sealed (encode data) := by
  have hlength : (masked (cstr data)).length = strlen data :=
    masked_length _
  unfold Socket.encode
  rw [← hlength]
  exact h.patch (by rw [hlength]; exact h.strlen_lt)

theorem Sealed.terminate {data : Bytes} (h : Sealed data) {string : Bytes}
    (hshort : string.length < BUFSZ) :
    Sealed (string ++ 0 :: data.drop (string.length + 1)) := by
  have hfront : string ++ 0 :: data.drop (string.length + 1) =
      (string ++ [0]) ++ data.drop (string ++ [0]).length := by
    rw [List.length_append, List.append_assoc]
    rfl
  by_cases hfull : string.length + 1 < BUFSZ
  · rw [hfront]
    apply h.patch
    rw [List.length_append]
    exact hfull
  · have hnil : data.drop (string.length + 1) = [] := by
      rw [List.drop_eq_nil_iff, h.length]
      lia
    rw [hnil]
    constructor
    case length =>
      rw [List.length_append]
      change string.length + 1 = BUFSZ
      lia
    case last => exact List.getLast?_concat

/-!
## What each function calls string functions on
-/

theorem allEnd_append {first second : List Bytes} :
    AllEnd (first ++ second) <-> AllEnd first ∧ AllEnd second := by
  unfold AllEnd
  rw [List.forall_mem_append]

section Functions

variable {a : Buffer}

theorem allEnd_useFrom {offset : Nat} :
    AllEnd (a.useFrom offset).uses <->
      AllEnd a.uses ∧ 0 ∈ a.data.drop offset := by
  have hone : AllEnd [a.data.drop offset] <-> 0 ∈ a.data.drop offset :=
    List.forall_mem_singleton
  rw [Buffer.useFrom, allEnd_append, hone]

theorem allEnd_useFrom_zero :
    AllEnd (a.useFrom 0).uses <-> AllEnd a.uses ∧ 0 ∈ a.data :=
  allEnd_useFrom

theorem Sealed.useFrom (h : Sealed a.data) {offset : Nat}
    (hoffset : offset < BUFSZ) :
    AllEnd (a.useFrom offset).uses <-> AllEnd a.uses :=
  allEnd_useFrom.trans (and_iff_left (h.mem_drop hoffset))

theorem Sealed.useFrom_twice (h : Sealed a.data) :
    AllEnd ((a.useFrom 0).useFrom 0).uses <-> AllEnd a.uses :=
  (@Sealed.useFrom (a.useFrom 0) h 0 (by decide)).trans (h.useFrom (by decide))

theorem mem_drop_fill (chunk : Chunk BUFSZ) {offset : Nat}
    (hoffset : offset < BUFSZ) :
    0 ∈ (chunk.bytes ++ (zeros BUFSZ).drop chunk.bytes.length).drop offset <->
      chunk.EndsFrom offset := by
  by_cases hfull : chunk.bytes.length < BUFSZ
  · exact iff_of_true ((sealed_zeros.patch hfull).mem_drop hoffset)
      (Or.inl hfull)
  · have hnil : (zeros BUFSZ).drop chunk.bytes.length = [] := by
      rw [List.drop_eq_nil_iff, sealed_zeros.length]
      exact Nat.le_of_not_lt hfull
    rw [hnil, List.append_nil]
    exact (or_iff_right hfull).symm

theorem mem_fill (chunk : Chunk BUFSZ) :
    0 ∈ chunk.bytes ++ (zeros BUFSZ).drop chunk.bytes.length <->
      chunk.EndsFrom 0 :=
  @mem_drop_fill chunk 0 (by decide)

theorem ending_nil : Ending [] := by
  intro chunk hmem
  cases hmem

theorem ending_none {reads : List (Option (Chunk BUFSZ))} :
    Ending (none :: reads) <-> Ending reads := by
  constructor
  · intro h chunk hmem
    exact h chunk (List.mem_cons_of_mem _ hmem)
  · intro h chunk hmem
    rcases List.mem_cons.mp hmem with heq | hmem
    · cases heq
    · exact h chunk hmem

theorem ending_some {chunk : Chunk BUFSZ}
    {reads : List (Option (Chunk BUFSZ))} :
    Ending (some chunk :: reads) <-> chunk.EndsFrom 0 ∧ Ending reads := by
  constructor
  · intro h
    exact ⟨h chunk List.mem_cons_self,
      fun other hmem => h other (List.mem_cons_of_mem _ hmem)⟩
  · intro h other hmem
    rcases List.mem_cons.mp hmem with heq | hmem
    · injection heq with heq
      rw [heq]
      exact h.left
    · exact h.right other hmem

theorem allEnd_sendData {reads : List (Option (Chunk BUFSZ))} :
    AllEnd (sendData a reads).uses <-> AllEnd a.uses ∧ Ending reads := by
  induction reads generalizing a with
  | nil =>
      exact (and_iff_left ending_nil).symm
  | cons read reads ih =>
      cases read with
      | none =>
          rw [sendData, ih, ending_none]
          exact Iff.rfl
      | some chunk =>
          have hone : AllEnd (a.clear.fill chunk.bytes).encode.uses <->
              AllEnd a.uses ∧ chunk.EndsFrom 0 :=
            allEnd_useFrom_zero.trans (and_congr_right' (mem_fill chunk))
          rw [sendData, ih, hone, ending_some, and_assoc]

theorem allEnd_shellOutput {reads : List (Option (Chunk BUFSZ))} :
    AllEnd (shellOutput a reads).uses <-> AllEnd a.uses ∧ Ending reads := by
  induction reads generalizing a with
  | nil =>
      exact (and_iff_left ending_nil).symm
  | cons read reads ih =>
      cases read with
      | none =>
          have hcleared : AllEnd (a.clear.useFrom 0).uses <-> AllEnd a.uses :=
            @Sealed.useFrom a.clear sealed_zeros 0 (by decide)
          rw [shellOutput, ih, hcleared, ending_none]
      | some chunk =>
          have hone : AllEnd ((a.clear.fill chunk.bytes).useFrom 0).uses <->
              AllEnd a.uses ∧ chunk.EndsFrom 0 :=
            allEnd_useFrom_zero.trans (and_congr_right' (mem_fill chunk))
          rw [shellOutput, ih, hone, ending_some, and_assoc]

theorem allEnd_bashHandler {command : Command} {scene : Scene} :
    AllEnd (bashHandler a command scene).uses <->
      AllEnd a.uses ∧
        (command ≠ Command.quit ->
          0 ∈ a.data ∧ (scene.writable = true -> Ending scene.shellReads)) := by
  have htwice : AllEnd ((a.useFrom 0).useFrom 0).uses <->
      AllEnd a.uses ∧ 0 ∈ a.data := by
    rw [allEnd_useFrom_zero, allEnd_useFrom_zero]
    exact and_iff_left_of_imp And.right
  unfold bashHandler
  by_cases hquit : command = Command.quit
  · rw [if_pos hquit]
    exact (and_iff_left (fun hne => absurd hquit hne)).symm
  · rw [if_neg hquit]
    have hmore : AllEnd (if scene.writable = true then
          shellOutput ((a.useFrom 0).useFrom 0) scene.shellReads
        else (a.useFrom 0).useFrom 0).uses <->
        (AllEnd a.uses ∧ 0 ∈ a.data) ∧
          (scene.writable = true -> Ending scene.shellReads) := by
      by_cases hwritable : scene.writable = true
      · rw [if_pos hwritable, allEnd_shellOutput, htwice]
        exact and_congr_right' ⟨fun h _ => h, fun h => h hwritable⟩
      · rw [if_neg hwritable, htwice]
        exact (and_iff_left (fun hcontra => absurd hcontra hwritable)).symm
    rw [hmore, and_assoc]
    exact and_congr_right' ⟨fun h _ => h, fun h => h hquit⟩

theorem allEnd_usualHandler {command : Command} (hdata : 0 ∈ a.data) :
    AllEnd (usualHandler a command).uses <->
      AllEnd a.uses ∧ 0 ∈ a.data.drop (argumentOf command) := by
  cases command with
  | print | cd | unknown | exitCom | findall => exact allEnd_useFrom
  | ls | shell | quit => exact (and_iff_left hdata).symm

theorem allEnd_of_usualHandler {command : Command}
    (h : AllEnd (usualHandler a command).uses) : AllEnd a.uses := by
  cases command with
  | print | cd | unknown | exitCom | findall => exact (allEnd_useFrom.mp h).left
  | ls | shell | quit => exact h

theorem allEnd_handler {shellfd : Int} {scene : Scene} :
    AllEnd (handler shellfd a scene).2.uses <->
      AllEnd a.uses ∧ 0 ∈ a.data ∧
        (¬ scene.HasShell shellfd ->
          0 ∈ a.data.drop (argumentOf (getCommand a.data))) ∧
        (scene.HasShell shellfd -> getCommand a.data ≠ Command.quit ->
          scene.writable = true -> Ending scene.shellReads) := by
  by_cases hshell : scene.HasShell shellfd
  · have hhandler : (handler shellfd a scene).2 =
        bashHandler (a.useFrom 0) (getCommand a.data) scene := if_pos hshell
    rw [hhandler, allEnd_bashHandler, allEnd_useFrom_zero]
    constructor
    · rintro ⟨⟨hall, hdata⟩, hreads⟩
      exact ⟨hall, hdata, fun hcontra => absurd hshell hcontra,
        fun _ hquit => (hreads hquit).right⟩
    · rintro ⟨hall, hdata, _, hreads⟩
      exact ⟨⟨hall, hdata⟩, fun hquit => ⟨hdata, hreads hshell hquit⟩⟩
  · have hhandler : (handler shellfd a scene).2 =
        usualHandler (a.useFrom 0) (getCommand a.data) := if_neg hshell
    rw [hhandler]
    constructor
    · intro h
      rcases allEnd_useFrom_zero.mp (allEnd_of_usualHandler h) with
        ⟨hall, hdata⟩
      exact ⟨hall, hdata,
        fun _ => ((@allEnd_usualHandler (a.useFrom 0) _ hdata).mp h).right,
        fun hcontra => absurd hcontra hshell⟩
    · rintro ⟨hall, hdata, hargument, _⟩
      exact (@allEnd_usualHandler (a.useFrom 0) _ hdata).mpr
        ⟨allEnd_useFrom_zero.mpr ⟨hall, hdata⟩, hargument hshell⟩

theorem allEnd_serve {shellfd : Int} {scene : Scene} :
    AllEnd (serve shellfd a scene).uses <->
      AllEnd a.uses ∧ 0 ∈ a.data ∧
        (¬ scene.HasShell shellfd ->
          0 ∈ a.data.drop (argumentOf (getCommand a.data))) ∧
        scene.Harmless shellfd (getCommand a.data) := by
  have hserve : AllEnd (serve shellfd a scene).uses <->
      AllEnd (handler shellfd a scene).2.uses ∧ Ending scene.outputReads :=
    allEnd_sendData
  rw [hserve, allEnd_handler]
  constructor
  · rintro ⟨⟨hall, hdata, hargument, hshell⟩, houtput⟩
    exact ⟨hall, hdata, hargument, hshell, houtput⟩
  · rintro ⟨hall, hdata, hargument, hharmless⟩
    exact ⟨⟨hall, hdata, hargument, hharmless.shell⟩, hharmless.output⟩

/-!
## Buffers filled by `recv`
-/

theorem receiveBuf_congr (a' : Buffer) (recv : Option (Chunk (BUFSZ - 1))) :
    (receiveBuf a recv).1 = (receiveBuf a' recv).1 ∧
      (receiveBuf a recv).2.data = (receiveBuf a' recv).2.data := by
  cases recv <;> exact ⟨rfl, rfl⟩

theorem receiveBuf_sealed (recv : Option (Chunk (BUFSZ - 1))) :
    Sealed (receiveBuf a recv).2.data ∧
      (AllEnd (receiveBuf a recv).2.uses <-> AllEnd a.uses) := by
  cases recv with
  | none => exact ⟨sealed_zeros, Iff.rfl⟩
  | some chunk =>
      have hfill : Sealed (a.clear.fill chunk.bytes).data :=
        sealed_zeros.patch (Nat.lt_of_le_of_lt chunk.short (by decide))
      refine ⟨hfill.encode, ?_⟩
      have hdecode : AllEnd (a.clear.fill chunk.bytes).encode.uses <->
          AllEnd a.uses :=
        hfill.useFrom (by decide)
      exact (@Sealed.useFrom (a.clear.fill chunk.bytes).encode hfill.encode 0
        (by decide)).trans hdecode

theorem separate_sealed {data : Bytes} (ha : Sealed a.data)
    (hdata : Sealed data) :
    Sealed (separate a data).data ∧
      (AllEnd (separate a data).uses <-> AllEnd a.uses) := by
  constructor
  · apply hdata.terminate
    have hshort : strlen (a.data.drop IDSZ) ≤ (a.data.drop IDSZ).length :=
      (List.takeWhile_prefix _).length_le
    rw [List.length_drop, ha.length] at hshort
    exact Nat.lt_of_le_of_lt hshort (by decide)
  · have hfirst : AllEnd (a.useFrom 0).uses <-> AllEnd a.uses :=
      ha.useFrom (by decide)
    exact (@Sealed.useFrom (a.useFrom 0) ha IDSZ (by decide)).trans hfirst

theorem answerFindall_sealed (ha : Sealed a.data) :
    Sealed (answerFindall a).data ∧
      (AllEnd (answerFindall a).uses <-> AllEnd a.uses) := by
  have hanswer : Sealed (snprintf a.data (text "server".toList) BUFSZ) :=
    ha.terminate (by decide)
  exact ⟨hanswer.encode, @Sealed.useFrom
    { a with data := snprintf a.data (text "server".toList) BUFSZ } hanswer 0
    (by decide)⟩

end Functions

/-!
## Whole runs

The slave's buffers are read from outside in a few places only.  A chunk is
harmless if it leaves room for a zero or brings one where the string functions
look for it.
-/

theorem udpSlave_step {s s' : SlaveState} {t : UdpTurn}
    (hstep : udpSlave s t = some s') :
    AllEnd s'.uses <-> AllEnd s.uses ∧ UdpHarmless s t := by
  unfold udpSlave at hstep
  split at hstep
  case isTrue _ => cases hstep
  case isFalse _ =>
    split at hstep
    case h_1 hread =>
      injection hstep with hstep
      rw [← hstep]
      refine (and_iff_left (fun chunk hsome => ?_)).symm
      rw [hread] at hsome
      cases hsome
    case h_2 chunk hread =>
      injection hstep with hstep
      rw [← hstep, allEnd_serve]
      have hargument : argumentOf (commandIn chunk.bytes) < BUFSZ := by
        cases commandIn chunk.bytes <;> decide
      have hdata := mem_fill chunk
      have hbehind := mem_drop_fill chunk hargument
      refine and_congr_right' ?_
      constructor
      · rintro ⟨hfirst, hsecond, hharmless⟩ chunk' hsome
        rw [hread] at hsome
        injection hsome with hsome
        rw [← hsome]
        exact ⟨hdata.mp hfirst, fun hshell => hbehind.mp (hsecond hshell),
          hharmless⟩
      · intro h
        rcases h chunk hread with ⟨hfirst, hsecond, hharmless⟩
        exact ⟨hdata.mpr hfirst, fun hshell => hbehind.mpr (hsecond hshell),
          hharmless⟩

theorem request_sealed (uses : List Bytes)
    (recv : Option (Chunk (BUFSZ - 1))) {a : Buffer}
    (ha : a = ((separate
      (receiveBuf { data := zeros BUFSZ, uses := uses } recv).2
      (zeros BUFSZ)).useFrom 0).useFrom 0) :
    Sealed a.data ∧ a.data = textOf recv ∧ (AllEnd a.uses <-> AllEnd uses) := by
  rcases @receiveBuf_sealed { data := zeros BUFSZ, uses := uses } recv with
    ⟨hbuffer, hreceived⟩
  rcases separate_sealed hbuffer sealed_zeros with ⟨hdata, hseparate⟩
  have hsame := (@receiveBuf_congr { data := zeros BUFSZ, uses := uses }
    { data := zeros BUFSZ, uses := [] } recv).right
  rw [ha]
  constructor
  · exact hdata
  constructor
  · show (separateBuffer
      (receiveBuf { data := zeros BUFSZ, uses := uses } recv).2.data
      (zeros BUFSZ)).2 = textOf recv
    rw [hsame]
    rfl
  · exact (hdata.useFrom_twice).trans (hseparate.trans hreceived)

theorem argumentOf_lt (command : Command) : argumentOf command < BUFSZ := by
  cases command <;> decide

theorem tcpSlave_step {s s' : SlaveState} {t : TcpTurn}
    (hstep : tcpSlave s t = some s') :
    AllEnd s'.uses <-> AllEnd s.uses ∧ TcpHarmless s t := by
  unfold tcpSlave at hstep
  split at hstep
  case isTrue _ => cases hstep
  case isFalse _ =>
    simp only at hstep
    rw [(receiveBuf_congr { data := zeros BUFSZ, uses := [] } t.recv).left]
      at hstep
    split at hstep
    case isTrue hfailed =>
      injection hstep with hstep
      rw [← hstep]
      exact (receiveBuf_sealed t.recv).right.trans
        (and_iff_left (fun hcontra => absurd hfailed (not_le.mpr hcontra))).symm
    case isFalse hpositive =>
      generalize ha : ((separate
        (receiveBuf { data := zeros BUFSZ, uses := s.uses } t.recv).2
        (zeros BUFSZ)).useFrom 0).useFrom 0 = a at hstep
      rcases request_sealed s.uses t.recv ha.symm with ⟨hdata, htext, huses⟩
      split at hstep
      case isTrue hfindall =>
        injection hstep with hstep
        rw [← hstep]
        refine ((answerFindall_sealed hdata).right.trans huses).trans
          (and_iff_left (fun _ hcontra => absurd ?_ hcontra)).symm
        rw [← htext]
        exact hfindall
      case isFalse hother =>
        injection hstep with hstep
        rw [← hstep, allEnd_serve, huses]
        unfold TcpHarmless
        rw [← htext]
        refine and_congr_right' ⟨fun h _ _ => h.right.right, fun h => ?_⟩
        exact ⟨hdata.mem_drop (by decide : 0 < BUFSZ),
          fun _ => hdata.mem_drop (argumentOf_lt _),
          h (not_le.mp hpositive) hother⟩

theorem udpMaster_step {a a' : Buffer} {t : MasterTurn} (hdata : Sealed a.data)
    (hall : AllEnd a.uses) (hstep : udpMaster a t = some a') :
    Sealed a'.data ∧ AllEnd a'.uses := by
  rcases @receiveBuf_sealed { data := zeros BUFSZ, uses := a.uses } t.recv with
    ⟨hbuffer, hreceived⟩
  rcases separate_sealed hbuffer hdata with ⟨hdata', hseparate⟩
  have hall' := hseparate.mpr (hreceived.mpr hall)
  unfold udpMaster at hstep
  simp only at hstep
  split at hstep
  case isTrue _ =>
    injection hstep with hstep
    rw [← hstep]
    exact ⟨hdata', hall'⟩
  case isFalse _ =>
    have hcommand := (hdata'.useFrom (by decide : 0 < BUFSZ)).mpr hall'
    split at hstep
    case isTrue _ =>
      injection hstep with hstep
      rw [← hstep]
      rcases @answerFindall_sealed ((separate _ a.data).useFrom 0) hdata' with
        ⟨hanswer, huses⟩
      exact ⟨hanswer, huses.mpr hcommand⟩
    case isFalse _ =>
      injection hstep with hstep
      rw [← hstep]
      exact ⟨hdata', (@Sealed.useFrom_twice ((separate _ a.data).useFrom 0)
        hdata').mpr hcommand⟩

theorem client_end {a : Buffer} (hall : AllEnd a.uses)
    (recvs : List (Option (Chunk (BUFSZ - 1)))) :
    AllEnd (client a recvs).uses := by
  induction recvs generalizing a with
  | nil => exact hall
  | cons recv recvs ih =>
      rcases @receiveBuf_sealed a recv with ⟨hbuffer, hreceived⟩
      apply ih
      exact (hbuffer.useFrom (by decide)).mpr (hreceived.mpr hall)

theorem allEnd_run_iff {turn : Type}
    {step : SlaveState -> turn -> Option SlaveState}
    {harmless : SlaveState -> turn -> Prop}
    (hstep : forall {s s' : SlaveState} {t : turn}, step s t = some s' ->
      (AllEnd s'.uses <-> AllEnd s.uses ∧ harmless s t))
    {turns : List turn} {s : SlaveState}
    (hrun : run step SlaveState.start turns = some s) :
    AllEnd s.uses <-> AllSteps step harmless SlaveState.start turns := by
  have hstart : AllEnd SlaveState.start.uses := fun use hmem => by cases hmem
  rcases run_splits (fun s => AllEnd s.uses) (fun s => ¬ AllEnd s.uses)
    (fun s t s' hall _ hharmless h => (hstep h).mpr ⟨hall, hharmless⟩)
    (fun s t s' _ _ hharmful h hall => hharmful ((hstep h).mp hall).right)
    (fun s t s' hbad h hall => hbad ((hstep h).mp hall).left)
    hstart (allSteps_of_forall (fun _ _ => trivial) turns SlaveState.start)
    hrun with ⟨hguard, hall⟩ | ⟨hguard, hbad⟩
  · exact iff_of_true hall hguard
  · exact iff_of_false hbad hguard

/-- In the slaves all strings end within their buffers exactly when all chunks
that are read are harmless; what `receive_buf` has filled always ends. -/
theorem strings_end_iff {udpTurns : List UdpTurn} {tcpTurns : List TcpTurn}
    {udp tcp : SlaveState}
    (hudp : run udpSlave SlaveState.start udpTurns = some udp)
    (htcp : run tcpSlave SlaveState.start tcpTurns = some tcp) :
    (AllEnd udp.uses <-> AllSteps udpSlave UdpHarmless SlaveState.start udpTurns) ∧
      (AllEnd tcp.uses <->
        AllSteps tcpSlave TcpHarmless SlaveState.start tcpTurns) ∧
      (forall turns a,
        run udpMaster { data := zeros BUFSZ, uses := [] } turns = some a ->
          AllEnd a.uses) ∧
      forall recvs, AllEnd (client { data := zeros BUFSZ, uses := [] } recvs).uses := by
  have hnothing : AllEnd [] := fun use hmem => by cases hmem
  refine ⟨allEnd_run_iff udpSlave_step hudp, allEnd_run_iff tcpSlave_step htcp,
    ?_, client_end hnothing⟩
  intro turns a hrun
  exact (run_invariant (fun a : Buffer => Sealed a.data ∧ AllEnd a.uses)
    (fun a t a' h _ hstep => udpMaster_step h.left h.right hstep)
    ⟨sealed_zeros, hnothing⟩
    (allSteps_of_forall (fun _ _ => trivial) turns _) hrun).right

def listing (output : Chunk BUFSZ) : Scene where
  childDied := false
  terminal := none
  shellStarts := false
  writable := false
  shellReads := []
  outputReads := [some output]

def listingTurn (output : Chunk BUFSZ) : UdpTurn where
  read := some
    { bytes := text "ls\n".toList
      short := by decide }
  scene := listing output

def fullChunk : Chunk BUFSZ where
  bytes := List.replicate BUFSZ 97
  short := List.length_replicate.le

def shortChunk : Chunk BUFSZ where
  bytes := text "src\n".toList
  short := by decide

/-- Output that fills the buffer of `send_data` leaves no room for a NUL. -/
theorem full_chunk_unterminated :
    exists s, run udpSlave SlaveState.start [listingTurn fullChunk] = some s ∧
      ¬ AllEnd s.uses := by
  refine ⟨_, rfl, ?_⟩
  decide +kernel

theorem strings_end_iff_listing :
    exists udp tcp,
      run udpSlave SlaveState.start [listingTurn shortChunk] = some udp ∧
        run tcpSlave SlaveState.start
          [{ recv := none
             scene := listing shortChunk }] = some tcp ∧
        AllEnd udp.uses ∧ AllEnd tcp.uses := by
  refine ⟨_, _, rfl, rfl, ?_, ?_⟩
  · apply (@strings_end_iff [listingTurn shortChunk] [] _ SlaveState.start
      rfl rfl).left.mpr
    refine ⟨fun chunk hread => ?_, fun _ _ => trivial⟩
    injection hread with hread
    rw [← hread]
    refine ⟨Or.inl (by decide), fun _ => Or.inl (by decide), ?_⟩
    constructor
    case shell =>
      intro hshell
      exact absurd hshell (by decide)
    case output =>
      exact ending_some.mpr ⟨Or.inl (by decide), fun _ hmem => by cases hmem⟩
  · apply (@strings_end_iff [] [{ recv := none
                                  scene := listing shortChunk }] SlaveState.start _
      rfl rfl).right.left.mpr
    refine ⟨fun hpositive => ?_, fun _ _ => trivial⟩
    exact absurd hpositive (by decide)

end Relay
end Socket
end UnixPrograms
