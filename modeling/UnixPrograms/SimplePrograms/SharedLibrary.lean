import Mathlib.Logic.Function.Basic

/-!
# The fields of the shared library

The functions of `field.c`, `m16.c` and `mn.c`, built as the makefile does it,
where the addition of two numbers wraps.  A call stops where the code has no
meaning.
-/

namespace UnixPrograms
namespace SimplePrograms
namespace SharedLibrary

inductive Place where
  | m16
  | mn
  | other (id : Nat)
deriving DecidableEq

/-- The functions of the plugins are static, so that other records have other
functions. -/
inductive Sum where
  | sum16
  | sumn
  | other (value : Int32 -> Int32 -> Int32)

structure Field where
  m : Int32
  sum : Sum

structure Process where
  fields : Fin 256 -> Option Place
  records : Place -> Field

def Process.first (p : Process) : Option Place := p.fields 0

inductive Fault where
  /-- A place of `fields` that it does not have. -/
  | index
  /-- The modulus of a null pointer. -/
  | missing
  /-- A remainder by zero. -/
  | division
deriving DecidableEq

def slot (m : Int32) : Except Fault (Fin 256) :=
  if h : 0 ≤ m.toInt ∧ m.toInt < 256 then
    Except.ok ⟨m.toInt.toNat, by omega⟩
  else
    Except.error Fault.index

def registerField (p : Process) (f : Place) :
    Except Fault (Process × Int32) := do
  if (p.records f).m > 256 then
    return (p, -1)
  let i <- slot (p.records f).m
  return ({ p with fields := Function.update p.fields i (some f) }, 0)

def setModulus (p : Process) (f : Place) (m : Int32) : Process :=
  { p with
    records := Function.update p.records f { p.records f with m := m } }

def sum16 (a b : Int32) : Int32 := (a + b) &&& 0b1111

def sumn (p : Process) (a b : Int32) : Except Fault Int32 :=
  if (p.records Place.mn).m = 0 then
    Except.error Fault.division
  else
    Except.ok ((a + b) % (p.records Place.mn).m)

def callSum (p : Process) (f : Place) (a b : Int32) : Except Fault Int32 :=
  match (p.records f).sum with
  | Sum.sum16 => Except.ok (sum16 a b)
  | Sum.sumn => sumn p a b
  | Sum.other value => Except.ok (value a b)

/-- The record for a modulus, which is the one of slot 0 with another modulus
if there is none. -/
def choose (p : Process) (m : Int32) : Except Fault (Process × Place) := do
  let i <- slot m
  match p.fields i with
  | some f => return (p, f)
  | none =>
      match p.first with
      | some f => return (setModulus p f m, f)
      | none => throw Fault.missing

def sum (p : Process) (m a b : Int32) : Except Fault (Process × Int32) := do
  let (p, f) <- choose p m
  let value <- callSum p f a b
  return (p, value)

def empty (moduli : Nat -> Int32) (functions : Nat -> Int32 -> Int32 -> Int32) :
    Process where
  fields := fun _ => none
  records := fun
    | Place.m16 => { m := 16, sum := Sum.sum16 }
    | Place.mn => { m := 0, sum := Sum.sumn }
    | Place.other id => { m := moduli id, sum := Sum.other (functions id) }

def myLoad (p : Process) (plugin : Place) : Except Fault Process := do
  let (p, _) <- registerField p plugin
  return p

/-!
## What the functions do
-/

theorem slot_eq_ok {m : Int32} {i : Fin 256} :
    slot m = Except.ok i <-> m.toInt = i.val := by
  constructor
  · intro h
    rw [slot] at h
    split at h
    · injection h with h
      rw [← h]
      exact (Int.toNat_of_nonneg (And.left ‹_›)).symm
    · cases h
  · intro h
    have hrange : 0 ≤ m.toInt ∧ m.toInt < 256 := by omega
    rw [slot, dif_pos hrange]
    congr 1
    apply Fin.ext
    show m.toInt.toNat = i.val
    lia

theorem slot_of_range {m : Int32} (h : 0 ≤ m.toInt ∧ m.toInt ≤ 255) :
    exists i, slot m = Except.ok i ∧ m.toInt = i.val :=
  have hrange : 0 ≤ m.toInt ∧ m.toInt < 256 := by lia
  ⟨_, dif_pos hrange, (Int.toNat_of_nonneg h.left).symm⟩

@[simp] theorem setModulus_m (p : Process) (f : Place) (m : Int32) :
    ((setModulus p f m).records f).m = m := by
  show (Function.update p.records f _ f).m = m
  rw [Function.update_self]

theorem setModulus_m_of_ne {f g : Place} (h : g ≠ f) (p : Process)
    (m : Int32) : ((setModulus p f m).records g).m = (p.records g).m := by
  show (Function.update p.records f _ g).m = (p.records g).m
  rw [Function.update_of_ne h]

@[simp] theorem setModulus_sum (p : Process) (f g : Place) (m : Int32) :
    ((setModulus p f m).records g).sum = (p.records g).sum := by
  show (Function.update p.records f _ g).sum = (p.records g).sum
  by_cases h : g = f
  · rw [h, Function.update_self]
  · rw [Function.update_of_ne h]

theorem registerField_of_large {p : Process} {f : Place}
    (h : 256 < (p.records f).m.toInt) : registerField p f = Except.ok (p, -1) := by
  have hlarge : (p.records f).m > 256 := Int32.lt_iff_toInt_lt.mpr h
  simp only [registerField, hlarge, if_true]
  rfl

theorem registerField_of_slot {p : Process} {f : Place} {i : Fin 256}
    (h : slot (p.records f).m = Except.ok i) :
    registerField p f =
      Except.ok
        ({ p with fields := Function.update p.fields i (some f) }, 0) := by
  have hindex := slot_eq_ok.mp h
  have hsmall : ¬ (p.records f).m > 256 := by
    intro hlarge
    have hlarge' : 256 < (p.records f).m.toInt := Int32.lt_iff_toInt_lt.mp hlarge
    change (256 : Int) < _ at hlarge'
    omega
  simp only [registerField, hsmall, if_false, h]
  rfl

theorem myLoad_of_slot {p : Process} {f : Place} {i : Fin 256}
    (h : slot (p.records f).m = Except.ok i) :
    myLoad p f =
      Except.ok { p with fields := Function.update p.fields i (some f) } := by
  rw [myLoad, registerField_of_slot h]
  rfl

theorem choose_of_some {p : Process} {m : Int32} {i : Fin 256} {f : Place}
    (hslot : slot m = Except.ok i) (hf : p.fields i = some f) :
    choose p m = Except.ok (p, f) := by
  simp only [choose, hslot]
  show (match p.fields i with | some f => _ | none => _) = _
  rw [hf]
  rfl

theorem choose_of_none {p : Process} {m : Int32} {i : Fin 256} {f : Place}
    (hslot : slot m = Except.ok i) (hi : p.fields i = none)
    (hf : p.first = some f) :
    choose p m = Except.ok (setModulus p f m, f) := by
  simp only [choose, hslot]
  show (match p.fields i with | some f => _ | none => _) = _
  rw [hi]
  show (match p.first with | some f => _ | none => _) = _
  rw [hf]
  rfl

theorem registerField_cases {p p' : Process} {f : Place} {value : Int32}
    (h : registerField p f = Except.ok (p', value)) :
    (256 < (p.records f).m.toInt ∧ p' = p ∧ value = -1) ∨
      exists i, slot (p.records f).m = Except.ok i ∧
        p' = { p with fields := Function.update p.fields i (some f) } ∧
        value = 0 := by
  by_cases hlarge : 256 < (p.records f).m.toInt
  · rw [registerField_of_large hlarge] at h
    cases h
    exact Or.inl ⟨hlarge, rfl, rfl⟩
  · apply Or.inr
    cases hslot : slot (p.records f).m with
    | error fault =>
        have hsmall : ¬ (p.records f).m > 256 :=
          fun hgt => hlarge (Int32.lt_iff_toInt_lt.mp hgt)
        simp only [registerField, hsmall, if_false, hslot] at h
        cases h
    | ok i =>
        rw [registerField_of_slot hslot] at h
        cases h
        exact ⟨i, rfl, rfl, rfl⟩

theorem choose_cases {p p' : Process} {m : Int32} {f : Place}
    (h : choose p m = Except.ok (p', f)) :
    exists i, slot m = Except.ok i ∧
      ((p.fields i = some f ∧ p' = p) ∨
        (p.fields i = none ∧ p.first = some f ∧
          p' = setModulus p f m)) := by
  cases hslot : slot m with
  | error fault =>
      simp only [choose, hslot] at h
      cases h
  | ok i =>
      refine ⟨i, rfl, ?_⟩
      cases hi : p.fields i with
      | some g =>
          rw [choose_of_some hslot hi] at h
          cases h
          exact Or.inl ⟨rfl, rfl⟩
      | none =>
          cases hfirst : p.first with
          | some g =>
              rw [choose_of_none hslot hi hfirst] at h
              cases h
              exact Or.inr ⟨rfl, rfl, rfl⟩
          | none =>
              simp only [choose, hslot, hi, hfirst, bind, Except.bind] at h
              cases h

theorem sum_eq_ok {p p' : Process} {m a b value : Int32} :
    sum p m a b = Except.ok (p', value) <->
      exists f, choose p m = Except.ok (p', f) ∧
        callSum p' f a b = Except.ok value := by
  constructor
  · intro h
    cases hchoose : choose p m with
    | error fault =>
        rw [sum, hchoose] at h
        cases h
    | ok chosen =>
        rcases chosen with ⟨q, f⟩
        cases hcall : callSum q f a b with
        | error fault =>
            simp only [sum, hchoose, hcall, bind, Except.bind] at h
            cases h
        | ok v =>
            simp only [sum, hchoose, hcall, bind, Except.bind] at h
            cases h
            exact ⟨f, rfl, hcall⟩
  · rintro ⟨f, hchoose, hcall⟩
    simp only [sum, hchoose, hcall, bind, Except.bind]
    rfl

end SharedLibrary
end SimplePrograms
end UnixPrograms
