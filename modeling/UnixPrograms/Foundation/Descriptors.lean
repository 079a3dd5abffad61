import Mathlib.Data.List.Basic
import Mathlib.Data.Option.Basic

/-!
# Descriptor tables

A table has a place for each descriptor of a process, and a new file takes the
lowest free place.  What a table does to its files is said by `file`; two
tables that differ only in free places at the end have the same files.
-/

namespace UnixPrograms
namespace Foundation

abbrev Descriptors (File : Type) := List (Option File)

namespace Descriptors

variable {File : Type}

def file (table : Descriptors File) (fd : Nat) : Option File :=
  table[fd]?.join

def lowest (table : Descriptors File) : Nat :=
  table.findIdx (fun file => file.isNone)

def close (table : Descriptors File) (fd : Nat) : Descriptors File :=
  table.set fd none

def put (table : Descriptors File) (fd : Nat) (f : File) : Descriptors File :=
  if fd < table.length then table.set fd (some f)
  else table ++ List.replicate (fd - table.length) none ++ [some f]

def openFile (table : Descriptors File) (f : File) : Nat × Descriptors File :=
  (table.lowest, table.put table.lowest f)

/-- `dup2`, which does nothing when the old descriptor is not open. -/
def dup2 (table : Descriptors File) (old new : Nat) : Descriptors File :=
  match table.file old with
  | none => table
  | some f => table.put new f

theorem mem_iff_file {table : Descriptors File} {f : File} :
    some f ∈ table <-> exists fd, table.file fd = some f := by
  rw [List.mem_iff_getElem?]
  apply exists_congr
  intro fd
  rw [file, Option.join_eq_some_iff]

theorem file_close (table : Descriptors File) (fd other : Nat) :
    (table.close fd).file other =
      if other = fd then none else table.file other := by
  rw [close, file, List.getElem?_set]
  by_cases h : fd = other
  · rw [if_pos h, if_pos h.symm]
    split
    case isTrue _ => rfl
    case isFalse _ => rfl
  · rw [if_neg h, if_neg (Ne.symm h)]
    rfl

theorem file_put (table : Descriptors File) (fd other : Nat) (f : File) :
    (table.put fd f).file other =
      if other = fd then some f else table.file other := by
  rw [put, file]
  split
  case isTrue hlt =>
    rw [List.getElem?_set]
    by_cases h : fd = other
    · rw [if_pos h, if_pos hlt, if_pos h.symm]
      rfl
    · rw [if_neg h, if_neg (Ne.symm h)]
      rfl
  case isFalse hlt =>
    have hlength : (table ++ List.replicate (fd - table.length) none).length =
        fd := by
      rw [List.length_append, List.length_replicate]
      lia
    rcases Nat.lt_trichotomy other fd with h | h | h
    · rw [if_neg (Nat.ne_of_lt h),
        List.getElem?_append_left (by rw [hlength]; exact h)]
      by_cases hin : other < table.length
      · rw [List.getElem?_append_left hin]
        rfl
      · rw [List.getElem?_append_right (by lia),
          List.getElem?_replicate_of_lt (by lia), file,
          List.getElem?_eq_none (by lia)]
        rfl
    · rw [if_pos h, List.getElem?_append_right (by lia), hlength, h,
        Nat.sub_self]
      rfl
    · rw [if_neg (Nat.ne_of_gt h), List.getElem?_eq_none, file,
        List.getElem?_eq_none (by lia)]
      rw [List.length_append, hlength]
      exact h

theorem file_lowest (table : Descriptors File) :
    table.file table.lowest = none := by
  unfold file lowest
  by_cases h : table.findIdx (fun file => file.isNone) < table.length
  · have hfree := List.findIdx_getElem (w := h)
    rw [List.getElem?_eq_getElem h]
    simpa using hfree
  · rw [List.getElem?_eq_none (by lia)]
    rfl

theorem file_dup2 {table : Descriptors File} {old : Nat} {f : File}
    (h : table.file old = some f) (new other : Nat) :
    (table.dup2 old new).file other =
      if other = new then some f else table.file other := by
  rw [dup2, h]
  exact file_put table new other f

end Descriptors

end Foundation
end UnixPrograms
