import UnixPrograms.Backuper.Events

/-!
# Which events are dispatched

The loop steps through the array in blocks of `EVENT_HEADER` bytes, so that it
visits the blocks of the names as well.  It dispatches the events of the
records exactly when no name has a block that looks like an event.
-/

namespace UnixPrograms
namespace Backuper

open Foundation

/-!
## One record
-/

theorem branchOf_zero (mask : UInt32) : branchOf mask 0 = none := by
  simp [branchOf]

theorem drop_record_header (record : Record) (rest : Bytes) :
    (record.bytes ++ rest).drop EVENT_HEADER = record.name ++ rest := by
  have hsplit : record.bytes ++ rest =
      (fieldBytes record.wd ++ fieldBytes record.mask ++
        fieldBytes record.cookie ++ fieldBytes record.len) ++
        (record.name ++ rest) := by
    simp [Record.bytes]
  rw [hsplit]
  exact List.drop_left' (by simp [EVENT_HEADER])

theorem loadEvent_record (record : Record) (rest : Bytes) :
    loadEvent (record.bytes ++ rest) =
      { wd := record.wd, mask := record.mask, cookie := record.cookie,
        len := record.len, name := cstr (record.name ++ rest) } := by
  rw [loadEvent, drop_record_header]
  simp only [Record.bytes, List.append_assoc]
  congr 1
  · exact loadField_fieldBytes record.wd _
  · rw [loadField_fieldBytes_skip record.wd _ 0, loadField_fieldBytes]
  · rw [loadField_fieldBytes_skip record.wd _ 4,
      loadField_fieldBytes_skip record.mask _ 0, loadField_fieldBytes]
  · rw [loadField_fieldBytes_skip record.wd _ 8,
      loadField_fieldBytes_skip record.mask _ 4,
      loadField_fieldBytes_skip record.cookie _ 0, loadField_fieldBytes]

theorem checkEvent_record (record : Record) (rest : Bytes) :
    checkEvent (record.bytes ++ rest) 0 = record.dispatch := by
  simp only [checkEvent, Record.dispatch, Nat.mul_zero, List.drop_zero,
    loadEvent_record]
  by_cases hname : record.name = []
  · have hlen : record.len = 0 := by
      rw [Record.len, hname]
      rfl
    rw [hlen, branchOf_zero]
    rfl
  · rw [cstr_append_of_mem (record.terminated hname)]

/-!
## Blocks
-/

/-- The events of some blocks, none of which leaves the loop. -/
def scan : Nat -> Bytes -> List Dispatch
  | 0, _ => []
  | count + 1, memory =>
      (checkEvent memory 0).toList ++ scan count (memory.drop EVENT_HEADER)

theorem eventLoop_eq_scan {leaves : Dispatch -> Bool}
    (hstay : forall dispatch, leaves dispatch = false) (events : Bytes)
    (count i : Nat) :
    eventLoop leaves events count i =
      scan count (events.drop (EVENT_HEADER * i)) := by
  induction count generalizing i with
  | zero => rfl
  | succ count ih =>
      have hcheck : checkEvent (events.drop (EVENT_HEADER * i)) 0 =
          checkEvent events i := by
        rw [checkEvent, checkEvent, Nat.mul_zero, List.drop_zero]
      rw [eventLoop, scan, List.drop_drop, hcheck, ← Nat.mul_succ]
      cases checkEvent events i with
      | none => exact ih (i + 1)
      | some dispatch =>
          simp only [hstay, Bool.false_eq_true, if_false]
          rw [ih (i + 1)]
          rfl

theorem scan_append (first second : Nat) (memory : Bytes) :
    scan (first + second) memory =
      scan first memory ++ scan second (memory.drop (EVENT_HEADER * first)) := by
  induction first generalizing memory with
  | zero => rw [Nat.zero_add, Nat.mul_zero, List.drop_zero, scan, List.nil_append]
  | succ first ih =>
      rw [Nat.succ_add, scan, scan, ih, List.append_assoc, List.drop_drop,
        Nat.mul_succ, Nat.add_comm EVENT_HEADER]

theorem checkEvent_eq_none {memory : Bytes} :
    checkEvent memory 0 = none <->
      branchOf (loadField memory 4) (loadField memory 12) = none := by
  simp only [checkEvent, Nat.mul_zero, List.drop_zero, loadEvent,
    Option.map_eq_none_iff]

theorem quietName_iff {name : Bytes} (h : EVENT_HEADER ≤ name.length) :
    QuietName name <->
      branchOf (loadField name 4) (loadField name 12) = none ∧
        QuietName (name.drop EVENT_HEADER) := by
  have hcount : name.length / EVENT_HEADER =
      (name.drop EVENT_HEADER).length / EVENT_HEADER + 1 := by
    rw [List.length_drop]
    exact Nat.div_eq_sub_div (by decide) h
  constructor
  · intro hquiet
    constructor
    · exact hquiet 0 (by rw [hcount]; exact Nat.succ_pos _)
    · intro j hj
      rw [loadField_drop, loadField_drop, ← Nat.add_assoc, ← Nat.add_assoc,
        Nat.add_comm EVENT_HEADER, ← Nat.mul_succ]
      exact hquiet (j + 1) (by rw [hcount]; exact Nat.succ_lt_succ hj)
  · intro hquiet j hj
    cases j with
    | zero => exact hquiet.left
    | succ j =>
        rw [hcount] at hj
        have hblock := hquiet.right j (Nat.lt_of_succ_lt_succ hj)
        rw [loadField_drop, loadField_drop, ← Nat.add_assoc, ← Nat.add_assoc,
          Nat.add_comm EVENT_HEADER, ← Nat.mul_succ] at hblock
        exact hblock

theorem scan_name {name : Bytes} {count : Nat} (rest : Bytes)
    (hlength : name.length = EVENT_HEADER * count) :
    scan count (name ++ rest) = [] <-> QuietName name := by
  induction count generalizing name with
  | zero =>
      rw [Nat.mul_zero] at hlength
      refine iff_of_true rfl ?_
      intro j hj
      rw [hlength, Nat.zero_div] at hj
      exact absurd hj (Nat.not_lt_zero j)
  | succ count ih =>
      have hle : EVENT_HEADER ≤ name.length := by
        rw [hlength, Nat.mul_succ]
        exact Nat.le_add_left _ _
      have hdrop : (name.drop EVENT_HEADER).length = EVENT_HEADER * count := by
        rw [List.length_drop, hlength, Nat.mul_succ, Nat.add_sub_cancel]
      have h4 : 4 + 4 ≤ name.length := le_trans (by decide) hle
      have h12 : 12 + 4 ≤ name.length := hle
      rw [scan, List.append_eq_nil_iff, Option.toList_eq_nil_iff,
        checkEvent_eq_none, loadField_append rest h4, loadField_append rest h12,
        List.drop_append_of_le_length hle, ih hdrop, quietName_iff hle]

/-!
## All records
-/

def recordBytes (records : List Record) : Bytes :=
  records.flatMap Record.bytes

theorem recordBytes_cons (record : Record) (records : List Record) :
    recordBytes (record :: records) = record.bytes ++ recordBytes records := rfl

theorem Record.bytes_length (record : Record) :
    record.bytes.length =
      EVENT_HEADER * (1 + record.name.length / EVENT_HEADER) := by
  have hname := Nat.div_add_mod record.name.length EVENT_HEADER
  rw [record.aligned, Nat.add_zero] at hname
  rw [Nat.mul_add, hname, Nat.mul_one]
  simp [Record.bytes, EVENT_HEADER]
  lia

theorem scan_record (record : Record) (rest : Bytes) :
    scan (1 + record.name.length / EVENT_HEADER) (record.bytes ++ rest) =
      record.dispatch.toList ++
        scan (record.name.length / EVENT_HEADER) (record.name ++ rest) := by
  rw [Nat.add_comm, scan, checkEvent_record, drop_record_header]

theorem scan_cons {record : Record} {records : List Record} {stale : Bytes}
    {count : Nat}
    (hcount : (recordBytes (record :: records)).length = EVENT_HEADER * count) :
    exists rest,
      (recordBytes records).length = EVENT_HEADER * rest ∧
        scan count (recordBytes (record :: records) ++ stale) =
          record.dispatch.toList ++
            (scan (record.name.length / EVENT_HEADER)
                (record.name ++ (recordBytes records ++ stale)) ++
              scan rest (recordBytes records ++ stale)) := by
  have hsize := record.bytes_length
  rw [recordBytes_cons, List.length_append, hsize] at hcount
  have hle : 1 + record.name.length / EVENT_HEADER ≤ count := by
    apply Nat.le_of_mul_le_mul_left _ (by decide : 0 < EVENT_HEADER)
    rw [← hcount]
    exact Nat.le_add_right _ _
  rcases Nat.exists_eq_add_of_le hle with ⟨rest, hrest⟩
  rw [hrest, Nat.mul_add EVENT_HEADER (1 + _) rest] at hcount
  refine ⟨rest, Nat.add_left_cancel hcount, ?_⟩
  rw [hrest, scan_append, recordBytes_cons, List.append_assoc, scan_record,
    ← hsize, List.drop_left, List.append_assoc]

theorem filterMap_dispatch_cons (record : Record) (records : List Record) :
    (record :: records).filterMap Record.dispatch =
      record.dispatch.toList ++ records.filterMap Record.dispatch := by
  rw [List.filterMap_cons]
  cases record.dispatch with
  | none => rfl
  | some dispatch => rfl

theorem length_le_scan {records : List Record} (stale : Bytes) {count : Nat}
    (hcount : (recordBytes records).length = EVENT_HEADER * count) :
    (records.filterMap Record.dispatch).length ≤
      (scan count (recordBytes records ++ stale)).length := by
  induction records generalizing count with
  | nil => exact Nat.zero_le _
  | cons record records ih =>
      rcases scan_cons hcount with ⟨rest, hrest, hscan⟩
      have hle := ih hrest
      rw [hscan, filterMap_dispatch_cons, List.length_append,
        List.length_append, List.length_append]
      lia

theorem scan_records {records : List Record} {stale : Bytes} {count : Nat}
    (hcount : (recordBytes records).length = EVENT_HEADER * count) :
    scan count (recordBytes records ++ stale) =
        records.filterMap Record.dispatch <->
      forall record, record ∈ records -> QuietName record.name := by
  induction records generalizing count with
  | nil =>
      have hzero : count = 0 := by
        rcases Nat.mul_eq_zero.mp hcount.symm with h | h
        · cases h
        · exact h
      rw [hzero]
      exact iff_of_true rfl (by simp)
  | cons record records ih =>
      rcases scan_cons hcount with ⟨rest, hrest, hscan⟩
      have hname : record.name.length =
          EVENT_HEADER * (record.name.length / EVENT_HEADER) := by
        have hdiv := Nat.div_add_mod record.name.length EVENT_HEADER
        rw [record.aligned, Nat.add_zero] at hdiv
        exact hdiv.symm
      rw [hscan, filterMap_dispatch_cons, List.append_cancel_left_eq,
        List.forall_mem_cons, ← ih hrest,
        ← scan_name (recordBytes records ++ stale) hname]
      constructor
      · intro h
        have hle := length_le_scan stale hrest
        have hlength := congrArg List.length h
        rw [List.length_append] at hlength
        have hnil : scan (record.name.length / EVENT_HEADER)
            (record.name ++ (recordBytes records ++ stale)) = [] := by
          apply List.length_eq_zero_iff.mp
          lia
        rw [hnil, List.nil_append] at h
        exact ⟨hnil, h⟩
      · intro h
        rw [h.left, List.nil_append, h.right]

/-- After one `read` exactly the events of the records are dispatched, in
order, if and only if no name has a block that looks like an event. -/
theorem records_dispatched_iff {leaves : Dispatch -> Bool}
    (hstay : forall dispatch, leaves dispatch = false) (events : Bytes)
    (records : List Record) :
    handleRead leaves events (recordBytes records) =
        records.filterMap Record.dispatch <->
      forall record, record ∈ records -> QuietName record.name := by
  have hcount : (recordBytes records).length =
      EVENT_HEADER * ((recordBytes records).length / EVENT_HEADER) := by
    apply (Nat.mul_div_cancel' _).symm
    induction records with
    | nil => exact Nat.dvd_zero _
    | cons record records ih =>
        rw [recordBytes_cons, List.length_append, record.bytes_length]
        exact Nat.dvd_add (Nat.dvd_mul_right _ _) ih
  rw [handleRead, eventLoop_eq_scan hstay, Nat.mul_zero, List.drop_zero]
  exact scan_records hcount

def shortName : Record where
  wd := 1
  mask := IN_CREATE
  cookie := 0
  name := text ['a', '.', 't', 'x', 't'] ++ zeros 11
  aligned := by decide
  short := by decide
  terminated := by decide

theorem records_dispatched_iff_short :
    handleRead (fun _ => false) (zeros 1024) (recordBytes [shortName]) =
      [shortName].filterMap Record.dispatch := by
  apply (records_dispatched_iff (fun _ => rfl) (zeros 1024) [shortName]).mpr
  intro record hrecord
  rw [List.mem_singleton.mp hrecord]
  decide

def longName : Record where
  wd := 1
  mask := IN_CREATE
  cookie := 0
  name := List.replicate 13 98 ++ zeros 3
  aligned := by decide
  short := by decide
  terminated := by decide

/-- The name is taken for the event that the file "" was deleted. -/
theorem name_dispatched :
    handleRead (fun _ => false) (zeros 1024) (recordBytes [longName]) =
        [{ handler := Handler.eventCreate, mask := IN_CREATE,
           name := List.replicate 13 98 },
         { handler := Handler.eventDelete, mask := 0x62626262, name := [] }] ∧
      [longName].filterMap Record.dispatch =
        [{ handler := Handler.eventCreate, mask := IN_CREATE,
           name := List.replicate 13 98 }] ∧
      handleRead (fun _ => false) (zeros 1024) (recordBytes [longName]) ≠
        [longName].filterMap Record.dispatch := by
  decide +kernel

end Backuper
end UnixPrograms
