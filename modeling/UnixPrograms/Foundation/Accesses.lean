import UnixPrograms.Foundation.CString

/-!
# Accesses to arrays

The bytes that a program stores to or loads from its arrays, and the arrays on
which it calls string functions.  A byte is inside when the array has it, and a
call on a string when there is a NUL in the rest of the array.
-/

namespace UnixPrograms
namespace Foundation

inductive Access (array : Type) where
  | byte (a : array) (index : Nat)
  /-- A string function is called; `rest` is the array from the string on. -/
  | string (a : array) (rest : Bytes)
deriving DecidableEq

section Accesses

variable {array : Type}

def Access.Inside (size : array -> Nat) : Access array -> Prop
  | Access.byte a index => index < size a
  | Access.string _ rest => 0 ∈ rest

instance (size : array -> Nat) (access : Access array) :
    Decidable (access.Inside size) :=
  match access with
  | Access.byte _ _ => inferInstanceAs (Decidable (_ < _))
  | Access.string _ rest => inferInstanceAs (Decidable (0 ∈ rest))

def AllInside (size : array -> Nat) (accesses : List (Access array)) : Prop :=
  forall access, access ∈ accesses -> access.Inside size

instance (size : array -> Nat) (accesses : List (Access array)) :
    Decidable (AllInside size accesses) :=
  List.decidableBAll (Access.Inside size) accesses

def bytesAt (a : array) (offset count : Nat) : List (Access array) :=
  (List.range count).map (fun i => Access.byte a (offset + i))

variable {size : array -> Nat}

theorem allInside_nil : AllInside size [] :=
  fun _ hmem => absurd hmem List.not_mem_nil

theorem allInside_append {first second : List (Access array)} :
    AllInside size (first ++ second) <->
      AllInside size first ∧ AllInside size second := by
  unfold AllInside
  rw [List.forall_mem_append]

theorem allInside_cons {access : Access array} {rest : List (Access array)} :
    AllInside size (access :: rest) <->
      access.Inside size ∧ AllInside size rest := by
  unfold AllInside
  rw [List.forall_mem_cons]

theorem allInside_singleton {access : Access array} :
    AllInside size [access] <-> access.Inside size :=
  List.forall_mem_singleton

theorem mem_bytesAt {a : array} {offset count : Nat} {access : Access array} :
    access ∈ bytesAt a offset count <->
      exists i, i < count ∧ access = Access.byte a (offset + i) := by
  unfold bytesAt
  rw [List.mem_map]
  constructor
  · rintro ⟨i, hmem, heq⟩
    exact ⟨i, List.mem_range.mp hmem, heq.symm⟩
  · rintro ⟨i, hlt, heq⟩
    exact ⟨i, List.mem_range.mpr hlt, heq.symm⟩

theorem bytesAt_inside {a : array} {offset count : Nat}
    (h : offset + count ≤ size a) : AllInside size (bytesAt a offset count) := by
  intro access hmem
  rcases mem_bytesAt.mp hmem with ⟨i, hlt, heq⟩
  rw [heq]
  show offset + i < size a
  lia

theorem bytesAt_inside_iff {a : array} {offset count : Nat} (h : 0 < count) :
    AllInside size (bytesAt a offset count) <-> offset + count ≤ size a := by
  constructor
  · intro hinside
    have hlast : offset + (count - 1) < size a :=
      hinside _ (mem_bytesAt.mpr ⟨count - 1, by lia, rfl⟩)
    lia
  · exact bytesAt_inside

end Accesses

end Foundation
end UnixPrograms
