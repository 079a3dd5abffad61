import Mathlib
import UnixPrograms.Foundation.CString

/-!
# BizzBuzz

`main` of `bzbz_file.c` from its loop on: the source file is a regular file
that has been opened and does not change, the destination is open and empty,
and every `write` and `lseek` succeeds.
-/

namespace UnixPrograms
namespace BizzBuzz

open Foundation

def BIZZBUZZ : Bytes := text ['b', 'i', 'z', 'z', 'b', 'u', 'z', 'z']
def BUZZ : Bytes := text ['b', 'u', 'z', 'z']
def BIZZ : Bytes := text ['b', 'i', 'z', 'z']

def isSep (b : UInt8) : Bool :=
  b = 32 || b = 10 || b = 9

def charValue (b : UInt8) : Int :=
  if b < 128 then b.toNat else b.toNat - 256

/-- The variables of `main`, the offset of `fd_src`, and what has been written
to `fd_dir`. -/
structure Vars where
  temp : UInt8
  lastIs5 : Bool
  sum : Int
  prevOff : Nat
  checkIsNum : Bool
  negative : Bool
  prevSymbol : UInt8
  prevSep : UInt8
  off : Nat
  out : Bytes
deriving DecidableEq

/-- The variables before the loop; the byte at `temp` is not initialised. -/
def Vars.start (temp : UInt8) : Vars where
  temp := temp
  lastIs5 := false
  sum := -3
  prevOff := 0
  checkIsNum := true
  negative := false
  prevSymbol := 49
  prevSep := 48
  off := 0
  out := []

def Vars.read (src : Bytes) (v : Vars) : Nat × Vars :=
  match src[v.off]? with
  | none => (0, v)
  | some b => (1, { v with temp := b, off := v.off + 1 })

def Vars.write (v : Vars) (bytes : Bytes) : Vars :=
  { v with out := v.out ++ bytes }

def Vars.writePrevSep (v : Vars) : Vars :=
  if v.prevSep ≠ 48 then v.write [v.prevSep] else v

def Vars.copy (src : Bytes) : Nat -> Vars -> Vars
  | 0, v => v
  | count + 1, v =>
      let v := (v.read src).2
      Vars.copy src count (v.write [v.temp])

/-- The token that ends at index `i` is copied, and the byte at `i` is read
again. -/
def copyToken (src : Bytes) (i : Nat) (v : Vars) : Vars :=
  let v := { v with off := v.prevOff }
  let v := v.writePrevSep
  let v := if v.negative = true then v.write [45] else v
  let v := Vars.copy src (i - v.prevOff) v
  (v.read src).2

def endOfToken (src : Bytes) (i : Nat) (v : Vars) : Vars :=
  let v :=
    if v.lastIs5 = true ∧ v.sum = 0 ∧ v.checkIsNum = true then
      v.writePrevSep.write BIZZBUZZ
    else if v.lastIs5 = true ∧ v.checkIsNum = true then
      v.writePrevSep.write BUZZ
    else if v.sum = 0 ∧ v.checkIsNum = true then
      v.writePrevSep.write BIZZ
    else
      copyToken src i v
  { v with
    prevOff := i + 1
    lastIs5 := false
    sum := -3
    checkIsNum := true
    negative := false
    prevSep := v.temp }

def insideToken (i : Nat) (v : Vars) : Vars :=
  let number := charValue v.temp - 48
  if v.temp = 45 then
    if v.prevSymbol = 32 ∨ i = 0 ∨ v.prevSymbol = 10 ∨ v.prevSymbol = 9 then
      { v with negative := true, prevOff := v.prevOff + 1 }
    else
      { v with checkIsNum := false }
  else if number < 0 ∨ 9 < number then
    { v with checkIsNum := false }
  else
    { v with
      lastIs5 := decide (number.tmod 5 = 0)
      sum := (v.sum + number).tmod 3 }

/-- One iteration; `none` is `exit(3)`. -/
def iteration (src : Bytes) (i : Nat) (v : Vars) : Option Vars :=
  let v := { v with prevSymbol := v.temp }
  let (readSize, v) := v.read src
  if readSize ≠ 1 then none
  else if v.temp = 32 ∨ i = src.length - 1 ∨ v.temp = 10 ∨ v.temp = 9 then
    some (endOfToken src i v)
  else
    some (insideToken i v)

def mainLoop (src : Bytes) : Nat -> Nat -> Vars -> Option Vars
  | 0, _, v => some v
  | count + 1, i, v =>
      match iteration src i v with
      | none => none
      | some v => mainLoop src count (i + 1) v

def output (temp : UInt8) (src : Bytes) : Option Bytes :=
  (mainLoop src src.length 0 (Vars.start temp)).map (fun v => v.out ++ [10])

example :
    output 0 (text ['1', '5', ' ', '-', '7', '\n']) =
      some (text ['b', 'i', 'z', 'z', 'b', 'u', 'z', 'z', ' ', '-', '7', '\n']) := by
  decide

end BizzBuzz
end UnixPrograms
