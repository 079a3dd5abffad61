import UnixPrograms.Socket.UdpTable
import UnixPrograms.Foundation.Directory

/-!
# Routing through the client table

The rows below `clients_count` are a directory of mailboxes: every registered
id has one row, the row holds the two ends of one pipe, and the slave that
reads this pipe was forked when the id last connected.  The move of the last
row into a freed one changes the position of a client and nothing else.
-/

namespace UnixPrograms
namespace Socket

open Foundation

/-!
## The table and the directory

The rows of the table stand for the entries of a directory of mailboxes, in which
a mailbox is a pipe.  Freeing a row moves the last row to its place, which the
directory does not see.
-/

structure Holding (m : Master) (i pipe : Nat) : Prop where
  reader : m.host.file (m.clients i).pipesFromMaster.1 =
    some (File.reader pipe)
  writer : m.host.file (m.clients i).pipesFromMaster.2 =
    some (File.writer pipe)

theorem Holding.unique {m : Master} {i pipe pipe' : Nat}
    (h : Holding m i pipe) (h' : Holding m i pipe') : pipe = pipe' := by
  have hboth := h.reader.symm.trans h'.reader
  injection hboth with hboth
  injection hboth

/-- The table below `clients_count`: its ids differ, and each row holds an
open pipe of its own that the slave forked last for its id reads. -/
structure TableSound (m : Master) : Prop where
  count : m.clientsCount ≤ MAX_CLIENTS_COUNT
  distinct : forall i j, i < m.clientsCount -> j < m.clientsCount ->
    (m.clients i).clientId = (m.clients j).clientId -> i = j
  rows : forall i, i < m.clientsCount -> exists pipe slave,
    Holding m i pipe ∧
      m.host.latestSlave (m.clients i).clientId = some slave ∧
      slave.pipe = some pipe ∧ (m.clients i).pid = slave.pid
  apart : forall i j pipe, i < m.clientsCount -> j < m.clientsCount ->
    Holding m i pipe -> Holding m j pipe -> i = j

def Registered (m : Master) (client : Int) (pipe : Nat) : Prop :=
  exists i, i < m.clientsCount ∧ (m.clients i).clientId = client ∧
    Holding m i pipe

/-- The directory that a table describes. -/
structure Refines (m : Master) (d : Directory Int Bytes) : Prop where
  box : forall client pipe,
    d.box client = some pipe <-> Registered m client pipe
  received : forall pipe, d.received pipe = m.host.writes pipe
  size : d.size = m.clientsCount
  next : d.next = m.host.pipes.length

section Steps

variable {m m' : Master} {d : Directory Int Bytes} {client : Int}
  {position pipe : Nat}

theorem holding_congr (hclients : m'.clients = m.clients)
    (hfile : forall fd, m'.host.file fd = m.host.file fd) (i pipe : Nat) :
    Holding m' i pipe <-> Holding m i pipe := by
  constructor
  · intro h
    constructor
    · rw [← hfile, ← hclients]
      exact h.reader
    · rw [← hfile, ← hclients]
      exact h.writer
  · intro h
    constructor
    · rw [hfile, hclients]
      exact h.reader
    · rw [hfile, hclients]
      exact h.writer

theorem TableSound.congr (h : TableSound m)
    (hclients : m'.clients = m.clients)
    (hcount : m'.clientsCount = m.clientsCount)
    (hfile : forall fd, m'.host.file fd = m.host.file fd)
    (hslaves : m'.host.slaves = m.host.slaves) : TableSound m' := by
  have hholding := holding_congr hclients hfile
  refine ⟨by rw [hcount]; exact h.count, ?_, ?_, ?_⟩
  · intro i j hi hj hid
    rw [hcount] at hi hj
    rw [hclients] at hid
    exact h.distinct i j hi hj hid
  · intro i hi
    rw [hcount] at hi
    rcases h.rows i hi with ⟨pipe, slave, hpipe, hlatest, hslave, hpid⟩
    refine ⟨pipe, slave, (hholding i pipe).mpr hpipe, ?_, hslave, ?_⟩
    · unfold Host.latestSlave
      rw [hslaves, hclients]
      exact hlatest
    · rw [hclients]
      exact hpid
  · intro i j pipe hi hj hpi hpj
    rw [hcount] at hi hj
    exact h.apart i j pipe hi hj ((hholding i pipe).mp hpi)
      ((hholding j pipe).mp hpj)

theorem registered_congr (hclients : m'.clients = m.clients)
    (hcount : m'.clientsCount = m.clientsCount)
    (hfile : forall fd, m'.host.file fd = m.host.file fd) :
    Registered m' client pipe <-> Registered m client pipe := by
  unfold Registered
  rw [hcount, hclients]
  simp only [holding_congr hclients hfile]

theorem Refines.congr (hd : Refines m d) (hclients : m'.clients = m.clients)
    (hcount : m'.clientsCount = m.clientsCount)
    (hfile : forall fd, m'.host.file fd = m.host.file fd)
    (hpipes : m'.host.pipes = m.host.pipes) : Refines m' d := by
  refine ⟨?_, ?_, ?_, ?_⟩
  · intro c p
    rw [registered_congr hclients hcount hfile]
    exact hd.box c p
  · intro p
    rw [hd.received p, Host.writes, Host.writes, hpipes]
  · rw [hcount]
    exact hd.size
  · rw [hpipes]
    exact hd.next

theorem writes_append (host : Host) (pipes : List (List Bytes))
    (hpipes : pipes = host.pipes ++ [[]]) (pipe : Nat) :
    (pipes[pipe]?).getD [] = host.writes pipe := by
  subst hpipes
  unfold Host.writes
  by_cases hlt : pipe < host.pipes.length
  · rw [List.getElem?_append_left hlt]
  · rw [List.getElem?_append_right (by lia),
      List.getElem?_eq_none (Nat.not_lt.mp hlt)]
    by_cases heq : pipe = host.pipes.length
    · simp [heq]
    · rw [List.getElem?_eq_none (by simp; lia)]

theorem Admitted.holding_of_ne (h : Admitted m m' client) {i : Nat}
    (hi : i ≠ m.clientsCount) (hholding : Holding m i pipe) :
    Holding m' i pipe := by
  constructor
  · rw [h.others i hi]
    exact h.files _ _ hholding.reader
  · rw [h.others i hi]
    exact h.files _ _ hholding.writer

theorem Admitted.holding_new (h : Admitted m m' client) :
    Holding m' m.clientsCount m.host.pipes.length :=
  ⟨h.reader, h.writer⟩

theorem Admitted.latest_of_ne (h : Admitted m m' client) {other : Int}
    (hne : other ≠ client) :
    m'.host.latestSlave other = m.host.latestSlave other := by
  rcases h.slave with ⟨pid, _, hslaves⟩
  unfold Host.latestSlave
  rw [hslaves, List.filter_append]
  simp [Ne.symm hne]

theorem Admitted.latest_new (h : Admitted m m' client) :
    exists slave, m'.host.latestSlave client = some slave ∧
      slave.pipe = some m.host.pipes.length ∧
      (m'.clients m.clientsCount).pid = slave.pid := by
  rcases h.slave with ⟨pid, hpid, hslaves⟩
  refine ⟨{ pid := pid, client := client,
            pipe := some m.host.pipes.length }, ?_, rfl, hpid⟩
  unfold Host.latestSlave
  rw [hslaves, List.filter_append]
  simp

theorem Refines.box_of_row (hd : Refines m d) {i : Nat}
    (hi : i < m.clientsCount) (hholding : Holding m i pipe) :
    d.box (m.clients i).clientId = some pipe :=
  (hd.box _ _).mpr ⟨i, hi, rfl, hholding⟩

theorem Admitted.old_of_holding (h : Admitted m m' client)
    (ht : TableSound m) {i : Nat} (hi : i < m.clientsCount)
    (hholding : Holding m' i pipe) : Holding m i pipe := by
  rcases ht.rows i hi with ⟨pipe', _, hold, _⟩
  have hnew := h.holding_of_ne (by lia) hold
  rw [hholding.unique hnew]
  exact hold

theorem tableSound_admitted (ht : TableSound m) (hd : Refines m d)
    (hs : d.Sound) (hnone : d.box client = none)
    (hroom : m.clientsCount < MAX_CLIENTS_COUNT)
    (h : Admitted m m' client) : TableSound m' := by
  have hfresh : forall i pipe, i < m.clientsCount -> Holding m i pipe ->
      pipe < m.host.pipes.length := by
    intro i pipe hi hholding
    rw [← hd.next]
    exact hs.known _ _ (hd.box_of_row hi hholding)
  have hid : forall i, i < m.clientsCount ->
      (m.clients i).clientId ≠ client := by
    intro i hi heq
    rcases ht.rows i hi with ⟨pipe, _, hholding, _⟩
    have hbox := hd.box_of_row hi hholding
    rw [heq, hnone] at hbox
    cases hbox
  have hcases : forall i, i < m'.clientsCount ->
      i < m.clientsCount ∨ i = m.clientsCount := by
    intro i hi
    rw [h.count] at hi
    lia
  refine ⟨by rw [h.count]; lia, ?_, ?_, ?_⟩
  · intro i j hi hj heq
    rcases hcases i hi with hi | hi <;> rcases hcases j hj with hj | hj
    · rw [h.others i (by lia), h.others j (by lia)] at heq
      exact ht.distinct i j hi hj heq
    · rw [hj, h.id, h.others i (by lia)] at heq
      exact absurd heq (hid i hi)
    · rw [hi, h.id, h.others j (by lia)] at heq
      exact absurd heq.symm (hid j hj)
    · rw [hi, hj]
  · intro i hi
    rcases hcases i hi with hi | hi
    · rcases ht.rows i hi with ⟨pipe, slave, hholding, hlatest, hslave, hpid⟩
      refine ⟨pipe, slave, h.holding_of_ne (by lia) hholding, ?_, hslave, ?_⟩
      · rw [h.others i (by lia), h.latest_of_ne (hid i hi)]
        exact hlatest
      · rw [h.others i (by lia)]
        exact hpid
    · subst hi
      rcases h.latest_new with ⟨slave, hlatest, hslave, hpid⟩
      refine ⟨m.host.pipes.length, slave, h.holding_new, ?_, hslave, hpid⟩
      rw [h.id]
      exact hlatest
  · intro i j pipe hi hj hpi hpj
    rcases hcases i hi with hi | hi <;> rcases hcases j hj with hj | hj
    · exact ht.apart i j pipe hi hj (h.old_of_holding ht hi hpi)
        (h.old_of_holding ht hj hpj)
    · subst hj
      have hlt := hfresh i pipe hi (h.old_of_holding ht hi hpi)
      have heq := hpj.unique h.holding_new
      lia
    · subst hi
      have hlt := hfresh j pipe hj (h.old_of_holding ht hj hpj)
      have heq := hpi.unique h.holding_new
      lia
    · rw [hi, hj]

theorem refines_admitted (ht : TableSound m) (hd : Refines m d)
    (hnone : d.box client = none) (h : Admitted m m' client) :
    Refines m' (d.enter client) := by
  refine ⟨?_, ?_, ?_, ?_⟩
  · intro c pipe
    constructor
    · intro hbox
      by_cases hc : c = client
      · subst hc
        rw [Directory.enter_box_self, hd.next] at hbox
        injection hbox with hbox
        subst hbox
        exact ⟨m.clientsCount, by rw [h.count]; lia, h.id, h.holding_new⟩
      · rw [Directory.enter_box_of_ne d hc] at hbox
        rcases (hd.box c pipe).mp hbox with ⟨i, hi, hid, hholding⟩
        refine ⟨i, by rw [h.count]; lia, ?_, h.holding_of_ne (by lia) hholding⟩
        rw [h.others i (by lia)]
        exact hid
    · intro hreg
      rcases hreg with ⟨i, hi, hid, hholding⟩
      rw [h.count] at hi
      by_cases hlast : i = m.clientsCount
      · subst hlast
        rw [h.id] at hid
        rw [← hid, Directory.enter_box_self, hd.next,
          hholding.unique h.holding_new]
      · have hlt : i < m.clientsCount := by
          lia
        rw [h.others i hlast] at hid
        have hbox := hd.box_of_row hlt (h.old_of_holding ht hlt hholding)
        rw [hid] at hbox
        have hc : c ≠ client := by
          intro heq
          rw [heq, hnone] at hbox
          cases hbox
        rw [Directory.enter_box_of_ne d hc]
        exact hbox
  · intro pipe
    rw [Directory.enter_received, hd.received pipe]
    exact (writes_append m.host _ h.pipes pipe).symm
  · change d.size + 1 = m'.clientsCount
    rw [h.count, hd.size]
  · rw [Directory.enter_next, h.pipes, hd.next]
    simp

theorem moved_ne {i : Nat} (hi : i < m.clientsCount - 1) :
    moved m position i ≠ position := by
  unfold moved
  by_cases heq : i = position
  · rw [if_pos heq]
    lia
  · rw [if_neg heq]
    exact heq

theorem moved_lt {i : Nat} (hi : i < m.clientsCount - 1) :
    moved m position i < m.clientsCount := by
  unfold moved
  by_cases heq : i = position
  · rw [if_pos heq]
    lia
  · rw [if_neg heq]
    lia

theorem exists_moved {j : Nat} (hj : j < m.clientsCount) (hne : j ≠ position)
    (hposition : position < m.clientsCount) :
    exists i, i < m.clientsCount - 1 ∧ moved m position i = j := by
  by_cases hlast : j = m.clientsCount - 1
  · refine ⟨position, by lia, ?_⟩
    rw [moved, if_pos rfl, hlast]
  · refine ⟨j, by lia, ?_⟩
    rw [moved, if_neg hne]

theorem Disconnected.holding (h : Disconnected m m' position)
    (ht : TableSound m) (hposition : position < m.clientsCount) {i : Nat}
    (hi : i < m.clientsCount - 1) (pipe : Nat) :
    Holding m' i pipe <-> Holding m (moved m position i) pipe := by
  have hlt : moved m position i < m.clientsCount := moved_lt hi
  have hne : moved m position i ≠ position := moved_ne hi
  rcases ht.rows position hposition with ⟨gone, _, hgone, _⟩
  constructor
  · intro hholding
    constructor
    · rw [← h.rows i hi]
      exact h.closed _ _ hholding.reader
    · rw [← h.rows i hi]
      exact h.closed _ _ hholding.writer
  · intro hholding
    have hpipe : pipe ≠ gone := by
      intro heq
      rw [heq] at hholding
      exact hne (ht.apart _ _ gone hlt hposition hholding hgone)
    -- No end of another row can be a descriptor of the freed row.
    have hkept : forall fd, (m.host.file fd = some (File.reader pipe) ∨
        m.host.file fd = some (File.writer pipe)) ->
          m'.host.file fd = m.host.file fd := by
      intro fd hfd
      refine h.kept fd ?_ ?_
      · intro heq
        rw [heq, hgone.reader] at hfd
        rcases hfd with hfd | hfd <;> injection hfd with hfd
        · injection hfd with hfd
          exact hpipe hfd.symm
        · cases hfd
      · intro heq
        rw [heq, hgone.writer] at hfd
        rcases hfd with hfd | hfd <;> injection hfd with hfd
        · cases hfd
        · injection hfd with hfd
          exact hpipe hfd.symm
    constructor
    · rw [h.rows i hi, hkept _ (Or.inl hholding.reader)]
      exact hholding.reader
    · rw [h.rows i hi, hkept _ (Or.inr hholding.writer)]
      exact hholding.writer

theorem tableSound_disconnected (ht : TableSound m)
    (hposition : position < m.clientsCount)
    (h : Disconnected m m' position) : TableSound m' := by
  have hcount := ht.count
  refine ⟨by rw [h.count]; lia, ?_, ?_, ?_⟩
  · intro i j hi hj heq
    rw [h.count] at hi hj
    rw [h.rows i hi, h.rows j hj] at heq
    have hsame := ht.distinct _ _ (moved_lt hi) (moved_lt hj) heq
    unfold moved at hsame
    by_cases hpi : i = position <;> by_cases hpj : j = position
    · rw [hpi, hpj]
    · rw [if_pos hpi, if_neg hpj] at hsame
      lia
    · rw [if_neg hpi, if_pos hpj] at hsame
      lia
    · rw [if_neg hpi, if_neg hpj] at hsame
      exact hsame
  · intro i hi
    rw [h.count] at hi
    rcases ht.rows _ (moved_lt hi) with
      ⟨pipe, slave, hholding, hlatest, hslave, hpid⟩
    refine ⟨pipe, slave, (h.holding ht hposition hi pipe).mpr hholding, ?_,
      hslave, ?_⟩
    · unfold Host.latestSlave
      rw [h.slaves, h.rows i hi]
      exact hlatest
    · rw [h.rows i hi]
      exact hpid
  · intro i j pipe hi hj hpi hpj
    rw [h.count] at hi hj
    have hsame := ht.apart _ _ pipe (moved_lt hi) (moved_lt hj)
      ((h.holding ht hposition hi pipe).mp hpi)
      ((h.holding ht hposition hj pipe).mp hpj)
    unfold moved at hsame
    by_cases hqi : i = position <;> by_cases hqj : j = position
    · rw [hqi, hqj]
    · rw [if_pos hqi, if_neg hqj] at hsame
      lia
    · rw [if_neg hqi, if_pos hqj] at hsame
      lia
    · rw [if_neg hqi, if_neg hqj] at hsame
      exact hsame

theorem registered_disconnected (ht : TableSound m)
    (hposition : position < m.clientsCount)
    (h : Disconnected m m' position) (client : Int) (pipe : Nat) :
    Registered m' client pipe <->
      client ≠ (m.clients position).clientId ∧ Registered m client pipe := by
  constructor
  · intro hreg
    rcases hreg with ⟨i, hi, hid, hholding⟩
    rw [h.count] at hi
    rw [h.rows i hi] at hid
    refine ⟨?_, moved m position i, moved_lt hi, hid,
      (h.holding ht hposition hi pipe).mp hholding⟩
    intro heq
    rw [heq] at hid
    exact moved_ne hi (ht.distinct _ _ (moved_lt hi) hposition hid)
  · intro hboth
    rcases hboth with ⟨hne, j, hj, hid, hholding⟩
    have hother : j ≠ position := by
      intro heq
      rw [heq] at hid
      exact hne hid.symm
    rcases exists_moved hj hother hposition with ⟨i, hi, hmoved⟩
    refine ⟨i, by rw [h.count]; exact hi, ?_,
      (h.holding ht hposition hi pipe).mpr (by rw [hmoved]; exact hholding)⟩
    rw [h.rows i hi, hmoved]
    exact hid

end Steps

/-!
## One iteration
-/

def Event.clientId (e : Event) : Int :=
  atoi (strncpy (zeros IDSZ) (receiveBuf e.datagram) IDSZ)

def Event.text (e : Event) : Bytes :=
  cstr ((receiveBuf e.datagram).drop IDSZ)

/-- What a request asks of the directory. -/
def requestMail (text : Bytes) : Mail Bytes :=
  match getCommand text with
  | Command.findall => Mail.look
  | Command.quit => Mail.last text
  | _ => Mail.put text

def Event.message (e : Event) : Int × Mail Bytes :=
  (e.clientId, requestMail e.text)

section Serve

variable {m : Master} {d : Directory Int Bytes} {position pipe : Nat}
  {request : Bytes}

def written (m : Master) (pipe : Nat) : Master :=
  { m with
    host :=
      { m.host with
        pipes := m.host.pipes.modify pipe
          (fun writes => writes ++ [cstr m.data]) } }

theorem serve_of_findall (writeOk : Bool) (m : Master) (position : Nat)
    (h : getCommand m.data = Command.findall) :
    serve writeOk m position =
      { m with
        data := (sendBuf m.host
          (strcpy m.data (text ['s', 'e', 'r', 'v', 'e', 'r']))).1
        host := (sendBuf m.host
          (strcpy m.data (text ['s', 'e', 'r', 'v', 'e', 'r']))).2 } := by
  unfold serve
  rw [h]

theorem serve_of_holding (h : getCommand m.data ≠ Command.findall)
    (hholding : Holding m position pipe) :
    serve true m position =
      if getCommand m.data = Command.quit then
        clientDisconnect (written m pipe) position
      else written m pipe := by
  have hwrite : m.host.write (m.clients position).pipesFromMaster.2
      (cstr m.data) = some (written m pipe).host := by
    unfold Host.write
    rw [hholding.writer]
    rfl
  unfold serve
  cases hcommand : getCommand m.data with
  | findall => exact absurd hcommand h
  | _ =>
      simp only [if_true, hwrite]
      rfl

theorem writes_written (m : Master) {pipe : Nat} (other : Nat)
    (hpipe : pipe < m.host.pipes.length) :
    (written m pipe).host.writes other =
      if other = pipe then m.host.writes pipe ++ [cstr m.data]
      else m.host.writes other := by
  unfold written Host.writes
  simp only
  rw [List.getElem?_modify]
  by_cases heq : other = pipe
  · subst heq
    simp [List.getElem?_eq_getElem hpipe]
  · have hne : ¬ pipe = other := Ne.symm heq
    simp [heq, hne]

theorem tableSound_written (ht : TableSound m) (pipe : Nat) :
    TableSound (written m pipe) :=
  ht.congr rfl rfl (fun _ => rfl) rfl

theorem refines_written (hd : Refines m d) (hs : d.Sound) {client : Int}
    (hbox : d.box client = some pipe) :
    Refines (written m pipe)
      (d.deliver client pipe (Mail.put (cstr m.data))) := by
  have hpipe : pipe < m.host.pipes.length := by
    rw [← hd.next]
    exact hs.known _ _ hbox
  refine ⟨?_, ?_, hd.size, ?_⟩
  · intro c p
    have hsame : Registered (written m pipe) c p <-> Registered m c p :=
      registered_congr rfl rfl (fun _ => rfl)
    rw [hsame]
    exact hd.box c p
  · intro p
    rw [writes_written m p hpipe]
    by_cases heq : p = pipe
    · subst heq
      simp [Directory.deliver, hd.received]
    · rw [if_neg heq, Directory.deliver_received_of_ne heq]
      exact hd.received p
  · rw [Directory.deliver_next, hd.next]
    simp [written]

theorem refines_serve (ht : TableSound m) (hd : Refines m d) (hs : d.Sound)
    (hdata : cstr m.data = request) (hposition : position < m.clientsCount)
    (hholding : Holding m position pipe) :
    TableSound (serve true m position) ∧
      Refines (serve true m position)
        (d.deliver (m.clients position).clientId pipe
          (requestMail request)) := by
  have hbox := hd.box_of_row hposition hholding
  have hrequest : getCommand request = getCommand m.data := by
    apply getCommand_congr
    rw [← hdata, cstr_cstr]
  unfold requestMail
  rw [hrequest]
  by_cases hfindall : getCommand m.data = Command.findall
  · rw [serve_of_findall true m position hfindall, hfindall]
    exact ⟨ht.congr rfl rfl (fun _ => rfl) rfl,
      hd.congr rfl rfl (fun _ => rfl) rfl⟩
  · rw [serve_of_holding hfindall hholding]
    have hsound := tableSound_written ht pipe
    have hwritten := refines_written hd hs hbox
    rw [hdata] at hwritten
    by_cases hquit : getCommand m.data = Command.quit
    · rw [if_pos hquit, hquit]
      have hgone := disconnected (written m pipe) position
      refine ⟨tableSound_disconnected hsound hposition hgone, ?_, ?_, ?_, ?_⟩
      · intro c p
        rw [registered_disconnected hsound hposition hgone c p]
        have hold := hwritten.box c p
        change d.box c = some p <-> _ at hold
        by_cases hc : c = (m.clients position).clientId
        · subst hc
          simp [Directory.deliver, written]
        · rw [← hold]
          simp [Directory.deliver, written, hc]
      · intro p
        have hold := hwritten.received p
        unfold Host.writes
        rw [hgone.pipes]
        exact hold
      · rw [hgone.count]
        change d.size - 1 = m.clientsCount - 1
        rw [hd.size]
      · rw [hgone.pipes]
        exact hwritten.next
    · rw [if_neg hquit]
      refine ⟨hsound, ?_⟩
      cases hcommand : getCommand m.data with
      | findall => exact absurd hcommand hfindall
      | quit => exact absurd hcommand hquit
      | _ => exact hwritten

theorem findClient_some {m : Master} {client : Int} {i : Nat}
    (h : findClient m client = some i) :
    i < m.clientsCount ∧ (m.clients i).clientId = client := by
  unfold findClient at h
  have hmem := List.mem_of_find?_eq_some h
  have hid := List.find?_some h
  exact ⟨List.mem_range.mp hmem, by simpa using hid⟩

theorem findClient_none {m : Master} {client : Int}
    (h : findClient m client = none) {i : Nat} (hi : i < m.clientsCount) :
    (m.clients i).clientId ≠ client := by
  unfold findClient at h
  have hno := List.find?_eq_none.mp h i (List.mem_range.mpr hi)
  simpa using hno

def received (m : Master) (e : Event) : Master :=
  { m with data := (separateBuffer (receiveBuf e.datagram) m.data).2 }

theorem cstr_received (m : Master) (e : Event) :
    cstr (received m e).data = e.text :=
  cstr_separateBuffer _ _

theorem tableSound_received (ht : TableSound m) (e : Event) :
    TableSound (received m e) :=
  ht.congr rfl rfl (fun _ => rfl) rfl

theorem refines_received (hd : Refines m d) (e : Event) :
    Refines (received m e) d :=
  hd.congr rfl rfl (fun _ => rfl) rfl

theorem iteration_eq (m : Master) (e : Event) :
    iteration m e =
      match findClient (received m e) e.clientId with
      | some position => serve e.writeOk (received m e) position
      | none =>
          match addClient e.pipeOk (received m e) e.clientId with
          | (none, m) => m
          | (some _, m) =>
              serve e.writeOk (connect e.forkOk m e.clientId).2
                (connect e.forkOk m e.clientId).1 := rfl

theorem iteration_found {e : Event} (he : e.Succeeds)
    (hfind : findClient (received m e) e.clientId = some position) :
    iteration m e = serve true (received m e) position := by
  rw [iteration_eq, hfind, he.right.right.right]

theorem iteration_full {e : Event}
    (hfind : findClient (received m e) e.clientId = none)
    (hfull : MAX_CLIENTS_COUNT ≤ m.clientsCount) :
    iteration m e = received m e := by
  have hfull' : MAX_CLIENTS_COUNT ≤ (received m e).clientsCount := hfull
  rw [iteration_eq, hfind]
  simp only [addClient_full e.pipeOk e.clientId hfull']

def enroll (m : Master) (client : Int) : Master :=
  (connect true (addClient true m client).2 client).2

theorem iteration_new {e : Event} (he : e.Succeeds)
    (hfind : findClient (received m e) e.clientId = none)
    (hroom : m.clientsCount < MAX_CLIENTS_COUNT) :
    iteration m e =
      serve true (enroll (received m e) e.clientId) m.clientsCount := by
  rcases he with ⟨_, hpipeOk, hforkOk, hwriteOk⟩
  have hroom' : (received m e).clientsCount < MAX_CLIENTS_COUNT := hroom
  rw [iteration_eq, hfind, hpipeOk, hforkOk, hwriteOk]
  unfold enroll
  rw [addClient_room e.clientId hroom']
  rfl

/-- One datagram does to the table what its message does to the directory. -/
theorem refines_iteration {e : Event} (he : e.Succeeds) (ht : TableSound m)
    (hd : Refines m d) (hs : d.Sound) :
    TableSound (iteration m e) ∧
      Refines (iteration m e) (d.step MAX_CLIENTS_COUNT e.message) := by
  have hdata := cstr_received m e
  have ht0 := tableSound_received ht e
  have hd0 := refines_received hd e
  unfold Event.message
  cases hfind : findClient (received m e) e.clientId with
  | some position =>
      rcases findClient_some hfind with ⟨hposition, hid⟩
      rcases ht0.rows position hposition with ⟨pipe, _, hholding, _⟩
      have hbox := hd0.box_of_row hposition hholding
      have hserve := refines_serve ht0 hd0 hs hdata hposition hholding
      rw [hid] at hbox hserve
      rw [iteration_found he hfind, Directory.step_of_some _ hbox]
      exact hserve
  | none =>
      have hnone : d.box e.clientId = none := by
        cases hbox : d.box e.clientId with
        | none => rfl
        | some pipe =>
            rcases (hd0.box _ _).mp hbox with ⟨i, hi, hid, _⟩
            exact absurd hid (findClient_none hfind hi)
      by_cases hfull : MAX_CLIENTS_COUNT ≤ m.clientsCount
      · rw [iteration_full hfind hfull,
          Directory.step_of_full hnone (by rw [hd.size]; exact hfull)]
        exact ⟨ht0, hd0⟩
      · have hroom : (received m e).clientsCount < MAX_CLIENTS_COUNT :=
          Nat.not_le.mp hfull
        have hadmitted : Admitted (received m e)
            (enroll (received m e) e.clientId) e.clientId :=
          admitted e.clientId hroom
        have hserve := refines_serve
          (tableSound_admitted ht0 hd0 hs hnone hroom hadmitted)
          (refines_admitted ht0 hd0 hnone hadmitted) (hs.enter e.clientId)
          (hadmitted.data.symm ▸ hdata)
          (by rw [hadmitted.count]; exact Nat.lt_succ_self _)
          hadmitted.holding_new
        rw [hadmitted.id, ← hd0.next] at hserve
        rw [iteration_new he hfind hroom,
          Directory.step_of_room hnone (by rw [hd.size]; exact hfull)]
        exact hserve

theorem serve_slaves (hholding : Holding m position pipe) :
    (serve true m position).host.slaves = m.host.slaves := by
  by_cases hfindall : getCommand m.data = Command.findall
  · rw [serve_of_findall true m position hfindall]
    rfl
  · rw [serve_of_holding hfindall hholding]
    by_cases hquit : getCommand m.data = Command.quit
    · rw [if_pos hquit]
      exact (disconnected (written m pipe) position).slaves
    · rw [if_neg hquit]
      rfl

theorem deliver_requestMail (d : Directory Int Bytes) (client : Int)
    (pipe other : Nat) (request : Bytes) :
    (d.deliver client pipe (requestMail request)).received other =
      if other = pipe ∧ getCommand request ≠ Command.findall then
        d.received other ++ [request]
      else d.received other := by
  unfold requestMail
  by_cases heq : other = pipe
  · subst heq
    cases hcommand : getCommand request <;> simp [Directory.deliver]
  · rw [Directory.deliver_received_of_ne heq, if_neg (fun h => heq h.left)]

end Serve

/-!
## Every sequence of datagrams
-/

def Reaches (m m' : Master) (e : Event) (pipe : Nat) : Prop :=
  forall other, m'.host.writes other =
    if other = pipe ∧ getCommand e.text ≠ Command.findall then
      m.host.writes other ++ [e.text]
    else m.host.writes other

/-- Where the next datagram goes, by what the table says of its id. -/
structure Routed (m m' : Master) (e : Event) : Prop where
  /-- A registered client is served by the slave it has. -/
  known : forall i pipe, i < m.clientsCount ->
    (m.clients i).clientId = e.clientId -> Holding m i pipe ->
    m'.host.slaves = m.host.slaves ∧ Reaches m m' e pipe
  /-- With a full table a new client is turned away. -/
  turnedAway : (forall i, i < m.clientsCount ->
      (m.clients i).clientId ≠ e.clientId) ->
    MAX_CLIENTS_COUNT ≤ m.clientsCount ->
    m'.clients = m.clients ∧ m'.clientsCount = m.clientsCount ∧
      m'.host = m.host
  /-- Otherwise it gets a slave that reads a pipe created for it. -/
  connected : (forall i, i < m.clientsCount ->
      (m.clients i).clientId ≠ e.clientId) ->
    m.clientsCount < MAX_CLIENTS_COUNT ->
    exists slave : Slave, slave.client = e.clientId ∧
      slave.pipe = some m.host.pipes.length ∧
      m'.host.slaves = m.host.slaves ++ [slave] ∧
      Reaches m m' e m.host.pipes.length

section Runs

variable {m : Master} {d : Directory Int Bytes}

theorem reaches_of_refines {m' : Master} {e : Event} {client : Int}
    {pipe : Nat} (hreceived : forall p, d.received p = m.host.writes p)
    (hd' : Refines m' (d.deliver client pipe (requestMail e.text))) :
    Reaches m m' e pipe := by
  intro other
  rw [← hd'.received other, deliver_requestMail, hreceived other]

theorem routed_iteration {e : Event} (he : e.Succeeds) (ht : TableSound m)
    (hd : Refines m d) (hs : d.Sound) : Routed m (iteration m e) e := by
  have hrefines := (refines_iteration he ht hd hs).right
  unfold Event.message at hrefines
  refine ⟨?_, ?_, ?_⟩
  · intro i pipe hi hid hholding
    have hbox := hd.box_of_row hi hholding
    rw [hid] at hbox
    rw [Directory.step_of_some _ hbox] at hrefines
    refine ⟨?_, reaches_of_refines hd.received hrefines⟩
    cases hfind : findClient (received m e) e.clientId with
    | some position =>
        rcases findClient_some hfind with ⟨hposition, _⟩
        rcases (tableSound_received ht e).rows position hposition with
          ⟨_, _, hrow, _⟩
        rw [iteration_found he hfind, serve_slaves hrow]
        rfl
    | none => exact absurd hid (findClient_none hfind hi)
  · intro hnew hfull
    cases hfind : findClient (received m e) e.clientId with
    | some position =>
        rcases findClient_some hfind with ⟨hposition, hid⟩
        exact absurd hid (hnew position hposition)
    | none =>
        rw [iteration_full hfind hfull]
        exact ⟨rfl, rfl, rfl⟩
  · intro hnew hroom
    cases hfind : findClient (received m e) e.clientId with
    | some position =>
        rcases findClient_some hfind with ⟨hposition, hid⟩
        exact absurd hid (hnew position hposition)
    | none =>
        have hadmitted : Admitted (received m e)
            (enroll (received m e) e.clientId) e.clientId :=
          admitted e.clientId hroom
        rcases hadmitted.slave with ⟨pid, _, hslaves⟩
        have hnone : d.box e.clientId = none := by
          cases hbox : d.box e.clientId with
          | none => rfl
          | some pipe =>
              rcases (hd.box _ _).mp hbox with ⟨i, hi, hid, _⟩
              exact absurd hid (hnew i hi)
        rw [Directory.step_of_room hnone
          (by rw [hd.size]; exact Nat.not_le.mpr hroom), hd.next] at hrefines
        have hrow : Holding (enroll (received m e) e.clientId) m.clientsCount
            m.host.pipes.length := hadmitted.holding_new
        refine ⟨{ pid := pid, client := e.clientId,
                  pipe := some m.host.pipes.length }, rfl, rfl, ?_,
          reaches_of_refines (by exact hd.received) hrefines⟩
        rw [iteration_new he hfind hroom, serve_slaves hrow]
        exact hslaves

def emptyDirectory : Directory Int Bytes where
  box := fun _ => none
  received := fun _ => []
  size := 0
  next := 0

theorem emptyDirectory_sound : emptyDirectory.Sound where
  own := by
    intro k k' p h
    cases h
  known := by
    intro k p h
    cases h
  empty := fun _ _ => rfl

theorem tableSound_start (openFds firstPid : Nat) :
    TableSound (Master.start openFds firstPid) where
  count := Nat.zero_le _
  distinct := by
    intro i j hi
    cases hi
  rows := by
    intro i hi
    cases hi
  apart := by
    intro i j pipe hi
    cases hi

theorem refines_start (openFds firstPid : Nat) :
    Refines (Master.start openFds firstPid) emptyDirectory where
  box := by
    intro client pipe
    constructor
    · intro h
      cases h
    · intro h
      rcases h with ⟨i, hi, _⟩
      cases hi
  received := by
    intro pipe
    simp [Host.writes, Master.start, emptyDirectory]
  size := rfl
  next := rfl

/-- The table follows the directory through any sequence of datagrams. -/
theorem refines_serveAll {events : List Event}
    (hevents : forall e, e ∈ events -> e.Succeeds) (ht : TableSound m)
    (hd : Refines m d) (hs : d.Sound) :
    TableSound (m.serveAll events) ∧
      Refines (m.serveAll events)
        (d.runAll MAX_CLIENTS_COUNT (events.map Event.message)) ∧
      (d.runAll MAX_CLIENTS_COUNT (events.map Event.message)).Sound := by
  induction events generalizing m d with
  | nil => exact ⟨ht, hd, hs⟩
  | cons e rest ih =>
      rcases refines_iteration (hevents e List.mem_cons_self) ht hd hs with
        ⟨ht', hd'⟩
      exact ih (fun e' he' => hevents e' (List.mem_cons_of_mem e he')) ht' hd'
        (hs.step MAX_CLIENTS_COUNT e.message)

/-- After any datagrams the table is sound, the next request goes where it
belongs, and what a registered client's pipe receives later are the requests
of this client up to its next quit, whatever the others send. -/
theorem udp_master_routes (openFds firstPid : Nat) (events : List Event)
    (hevents : forall e, e ∈ events -> e.Succeeds) :
    TableSound ((Master.start openFds firstPid).serveAll events) ∧
      (forall e, e.Succeeds ->
        Routed ((Master.start openFds firstPid).serveAll events)
          (iteration ((Master.start openFds firstPid).serveAll events) e)
          e) ∧
      forall i pipe later,
        i < ((Master.start openFds firstPid).serveAll events).clientsCount ->
        Holding ((Master.start openFds firstPid).serveAll events) i pipe ->
        (forall e, e ∈ later -> e.Succeeds) ->
        (((Master.start openFds firstPid).serveAll events).serveAll
            later).host.writes pipe =
          ((Master.start openFds firstPid).serveAll events).host.writes pipe ++
            Directory.untilLast
              (Directory.mailOf
                (((Master.start openFds firstPid).serveAll events).clients
                  i).clientId
                (later.map Event.message)) := by
  rcases refines_serveAll hevents (tableSound_start openFds firstPid)
    (refines_start openFds firstPid) emptyDirectory_sound with ⟨ht, hd, hs⟩
  refine ⟨ht, fun e he => routed_iteration he ht hd hs, ?_⟩
  intro i pipe later hi hholding hlater
  rcases refines_serveAll hlater ht hd hs with ⟨_, hd', _⟩
  rw [← hd'.received, ← hd.received]
  exact Directory.received_of_box hs MAX_CLIENTS_COUNT
    (hd.box_of_row hi hholding) _

def request (id chars : List Char) : Event where
  datagram := some (encode (text id ++ text chars ++ [0]))
  pipeOk := true
  forkOk := true
  writeOk := true

theorem udp_master_routes_two :
    TableSound
      ((Master.start 5 100).serveAll
        [request ['0', '0', '0', '0', '0', '0', '0', '0', '0', '7'] ['l', 's'],
          request ['0', '0', '0', '0', '0', '0', '0', '0', '0', '8']
            ['c', 'd', ' ', '/'],
          request ['0', '0', '0', '0', '0', '0', '0', '0', '0', '7']
            ['q', 'u', 'i', 't']]) := by
  refine (udp_master_routes 5 100 _ ?_).left
  intro e he
  simp only [List.mem_cons, List.not_mem_nil, or_false] at he
  rcases he with h | h | h <;> subst h <;> exact ⟨rfl, rfl, rfl, rfl⟩

end Runs

end Socket
end UnixPrograms
