import Mathlib.Data.Nat.Digits.Lemmas
import UnixPrograms.Foundation.CString

/-!
# Little-endian numbers in memory
-/

namespace UnixPrograms
namespace Foundation

def leBytes : Nat -> Nat -> Bytes
  | 0, _ => []
  | count + 1, num => UInt8.ofNat num :: leBytes count (num / 256)

def readLe (memory : Bytes) : Nat :=
  Nat.ofDigits 256 (memory.map UInt8.toNat)

@[simp] theorem leBytes_length (count num : Nat) :
    (leBytes count num).length = count := by
  induction count generalizing num with
  | zero => rfl
  | succ count ih => rw [leBytes, List.length_cons, ih]

theorem readLe_leBytes (count num : Nat) :
    readLe (leBytes count num) = num % 256 ^ count := by
  induction count generalizing num with
  | zero => rw [leBytes, readLe, List.map_nil, Nat.ofDigits_nil, Nat.pow_zero,
      Nat.mod_one]
  | succ count ih =>
      have hrest : Nat.ofDigits 256 ((leBytes count (num / 256)).map UInt8.toNat) =
          num / 256 % 256 ^ count := ih (num / 256)
      have hbyte : (UInt8.ofNat num).toNat = num % 256 := UInt8.toNat_ofNat'
      rw [leBytes, readLe, List.map_cons, Nat.ofDigits_cons, hrest, hbyte,
        Nat.pow_succ', Nat.mod_mul]

def loadField (memory : Bytes) (offset : Nat) : UInt32 :=
  UInt32.ofNat (readLe ((memory.drop offset).take 4))

def fieldBytes (value : UInt32) : Bytes :=
  leBytes 4 value.toNat

@[simp] theorem fieldBytes_length (value : UInt32) :
    (fieldBytes value).length = 4 :=
  leBytes_length 4 _

theorem loadField_fieldBytes (value : UInt32) (rest : Bytes) :
    loadField (fieldBytes value ++ rest) 0 = value := by
  have htake : (fieldBytes value ++ rest).take 4 = fieldBytes value :=
    List.take_left' (fieldBytes_length value)
  have hlt : value.toNat < 256 ^ 4 := value.toNat_lt
  rw [loadField, List.drop_zero, htake, fieldBytes, readLe_leBytes,
    Nat.mod_eq_of_lt hlt, UInt32.ofNat_toNat]

theorem loadField_drop (memory : Bytes) (skip offset : Nat) :
    loadField (memory.drop skip) offset = loadField memory (skip + offset) := by
  rw [loadField, loadField, List.drop_drop]

theorem loadField_fieldBytes_skip (value : UInt32) (rest : Bytes)
    (offset : Nat) :
    loadField (fieldBytes value ++ rest) (4 + offset) = loadField rest offset := by
  rw [← loadField_drop, List.drop_left' (fieldBytes_length value)]

theorem loadField_append {memory : Bytes} {offset : Nat} (rest : Bytes)
    (h : offset + 4 ≤ memory.length) :
    loadField (memory ++ rest) offset = loadField memory offset := by
  have htake : 4 ≤ (memory.drop offset).length := by
    rw [List.length_drop]
    lia
  rw [loadField, loadField, List.drop_append_of_le_length (by lia),
    List.take_append_of_le_length htake]

end Foundation
end UnixPrograms
