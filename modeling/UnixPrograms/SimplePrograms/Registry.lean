import UnixPrograms.Foundation.Transition
import UnixPrograms.SimplePrograms.SharedLibrary

/-!
# The registry of the fields

All requests to a process that has loaded `mn.so`.  A request is answered
unless an index is outside of `fields` or `sumn` divides by the modulus 0,
which its record has until it is taken for another modulus.
-/

namespace UnixPrograms
namespace SimplePrograms
namespace SharedLibrary

open Foundation

inductive Request where
  | register (f : Place)
  | sum (m a b : Int32)

def answer (p : Process) : Request -> Except Fault (Process × Int32)
  | Request.register f => registerField p f
  | Request.sum m a b => sum p m a b

def step (p : Process) (r : Request) : Option Process :=
  match answer p r with
  | Except.ok (p', _) => some p'
  | Except.error _ => none

/-- The request is answered, and a rejected registration changes nothing. -/
def Safe (p : Process) (r : Request) : Prop :=
  exists p' value, answer p r = Except.ok (p', value) ∧
    forall f, r = Request.register f -> value = -1 -> p' = p

/-- The modulus has a slot or is rejected, and the record of `mn.c` is not
used before it has a modulus. -/
def Proper (p : Process) : Request -> Prop
  | Request.register f =>
      (0 ≤ (p.records f).m.toInt ∧ (p.records f).m.toInt ≤ 255) ∨
        256 < (p.records f).m.toInt
  | Request.sum m _ _ =>
      (0 ≤ m.toInt ∧ m.toInt ≤ 255) ∧
        ¬ (m = 0 ∧ p.first = some Place.mn ∧ (p.records Place.mn).m = 0)

structure Loaded (p : Process) : Prop where
  first : p.first ≠ none
  function : forall f, (p.records f).sum = Sum.sumn <-> f = Place.mn
  unused : (p.records Place.mn).m = 0 ->
    forall i, p.fields i = some Place.mn -> i = 0

theorem loaded_load (moduli : Nat -> Int32)
    (functions : Nat -> Int32 -> Int32 -> Int32) :
    exists p, myLoad (empty moduli functions) Place.mn = Except.ok p ∧
      Loaded p := by
  have hslot : slot 0 = Except.ok 0 := slot_eq_ok.mpr (by decide)
  refine ⟨_, myLoad_of_slot (f := Place.mn) hslot, ?_⟩
  constructor
  case first =>
    exact Option.some_ne_none Place.mn
  case function =>
    intro f
    cases f with
    | m16 => simp [empty]
    | mn => simp [empty]
    | other id => simp [empty]
  case unused =>
    intro _ i hi
    by_contra hne
    have hnone : Function.update (empty moduli functions).fields 0
        (some Place.mn) i = none := Function.update_of_ne hne _ _
    cases hnone.symm.trans hi

/-!
## What the requests keep
-/

theorem Loaded.register {p p' : Process} {f : Place} {value : Int32}
    (h : Loaded p) (hanswer : registerField p f = Except.ok (p', value)) :
    Loaded p' := by
  rcases registerField_cases hanswer with ⟨_, heq, _⟩ | ⟨i, hslot, heq, _⟩
  · rw [heq]
    exact h
  · rw [heq]
    constructor
    case first =>
      show Function.update p.fields i (some f) 0 ≠ none
      by_cases hi : 0 = i
      · rw [hi, Function.update_self]
        exact Option.some_ne_none f
      · rw [Function.update_of_ne hi]
        exact h.first
    case function =>
      exact h.function
    case unused =>
      intro hzero j hj
      change Function.update p.fields i (some f) j = _ at hj
      by_cases hji : j = i
      · -- It is registered with the modulus that it has.
        rw [hji, Function.update_self] at hj
        rw [Option.some.inj hj, show (p.records Place.mn).m = 0 from hzero]
          at hslot
        have hval := slot_eq_ok.mp hslot
        rw [hji]
        apply Fin.ext
        exact Int.ofNat.inj hval.symm
      · rw [Function.update_of_ne hji] at hj
        exact h.unused hzero j hj

theorem Loaded.choose {p p' : Process} {m : Int32} {f : Place}
    (h : Loaded p) (hchoose : choose p m = Except.ok (p', f)) : Loaded p' := by
  rcases choose_cases hchoose with ⟨i, hslot, ⟨_, heq⟩ | ⟨hi, hfirst, heq⟩⟩
  · rw [heq]
    exact h
  · rw [heq]
    constructor
    case first =>
      exact h.first
    case function =>
      intro g
      rw [setModulus_sum]
      exact h.function g
    case unused =>
      intro hzero
      by_cases hmn : Place.mn = f
      · -- An empty slot is not the first one, so that the modulus is not 0.
        rw [hmn, setModulus_m] at hzero
        rw [hzero] at hslot
        have hval := slot_eq_ok.mp hslot
        have hindex : i = 0 := Fin.ext (Int.ofNat.inj hval.symm)
        rw [hindex] at hi
        exact absurd hi h.first
      · rw [setModulus_m_of_ne hmn] at hzero
        exact h.unused hzero

theorem Loaded.step {p p' : Process} {r : Request} (h : Loaded p)
    (hstep : step p r = some p') : Loaded p' := by
  rw [SharedLibrary.step] at hstep
  cases hanswer : answer p r with
  | error fault =>
      rw [hanswer] at hstep
      cases hstep
  | ok result =>
      rw [hanswer] at hstep
      cases hstep
      rcases result with ⟨p', value⟩
      cases r with
      | register f => exact h.register hanswer
      | sum m a b =>
          rcases sum_eq_ok.mp hanswer with ⟨f, hchoose, _⟩
          exact h.choose hchoose

/-!
## Which requests are answered

A request is answered unless it looks at a record that has no modulus yet or at a
place outside of `fields`.
-/

theorem register_safe_iff (p : Process) (f : Place) :
    Safe p (Request.register f) <-> Proper p (Request.register f) := by
  constructor
  · rintro ⟨p', value, hanswer, _⟩
    rcases registerField_cases hanswer with ⟨hlarge, _⟩ | ⟨i, hslot, _⟩
    · exact Or.inr hlarge
    · have hval := slot_eq_ok.mp hslot
      exact Or.inl (by omega)
  · rintro (hrange | hlarge)
    · rcases slot_of_range hrange with ⟨i, hslot, _⟩
      refine ⟨_, _, registerField_of_slot hslot, ?_⟩
      intro _ _ hvalue
      exact absurd hvalue (by decide)
    · exact ⟨p, -1, registerField_of_large hlarge, fun _ _ _ => rfl⟩

theorem callSum_answers {p : Process} (h : Loaded p) {f : Place}
    (hf : f = Place.mn -> (p.records Place.mn).m ≠ 0) (a b : Int32) :
    exists value, callSum p f a b = Except.ok value := by
  cases hsum : (p.records f).sum with
  | sum16 =>
      exists sum16 a b
      rw [callSum, hsum]
  | sumn =>
      exists (a + b) % (p.records Place.mn).m
      rw [callSum, hsum]
      exact if_neg (hf ((h.function f).mp hsum))
  | other value =>
      exists value a b
      rw [callSum, hsum]

theorem sum_safe_iff {p : Process} (h : Loaded p) (m a b : Int32) :
    Safe p (Request.sum m a b) <-> Proper p (Request.sum m a b) := by
  constructor
  · rintro ⟨p', value, hanswer, _⟩
    rcases sum_eq_ok.mp hanswer with ⟨f, hchoose, hcall⟩
    rcases choose_cases hchoose with ⟨i, hslot, _⟩
    have hval := slot_eq_ok.mp hslot
    constructor
    · omega
    · rintro ⟨hm, hfirst, hzero⟩
      have hslot0 : slot m = Except.ok 0 := by
        rw [hm]
        exact slot_eq_ok.mpr (by decide)
      rw [choose_of_some hslot0 hfirst] at hchoose
      cases hchoose
      rw [callSum, (h.function Place.mn).mpr rfl] at hcall
      change sumn p a b = _ at hcall
      rw [sumn, if_pos hzero] at hcall
      cases hcall
  · rintro ⟨hrange, hused⟩
    rcases slot_of_range hrange with ⟨i, hslot, hi⟩
    have hzero : i = 0 -> m = 0 := by
      intro heq
      rw [heq] at hi
      exact Int32.toInt_inj.mp hi
    have hchosen : exists p' f, choose p m = Except.ok (p', f) ∧
        (f = Place.mn -> (p'.records Place.mn).m ≠ 0) := by
      cases hfield : p.fields i with
      | some f =>
          refine ⟨p, f, choose_of_some hslot hfield, ?_⟩
          intro hmn hunused
          rw [hmn] at hfield
          have hindex := h.unused hunused i hfield
          rw [hindex] at hfield
          exact hused ⟨hzero hindex, hfield, hunused⟩
      | none =>
          cases hfirst : p.first with
          | none => exact absurd hfirst h.first
          | some f =>
              refine ⟨_, f, choose_of_none hslot hfield hfirst, ?_⟩
              intro hmn hunused
              rw [hmn, setModulus_m] at hunused
              have hindex : i = 0 := by
                rw [hunused] at hi
                exact Fin.ext (Int.ofNat.inj hi.symm)
              rw [hindex] at hfield
              exact h.first hfield
    rcases hchosen with ⟨p', f, hchoose, hmn⟩
    rcases callSum_answers (h.choose hchoose) hmn a b with ⟨value, hcall⟩
    refine ⟨p', value, sum_eq_ok.mpr ⟨f, hchoose, hcall⟩, ?_⟩
    intro g hr
    cases hr

theorem safe_iff_proper {p : Process} (h : Loaded p) (r : Request) :
    Safe p r <-> Proper p r := by
  cases r with
  | register f => exact register_safe_iff p f
  | sum m a b => exact sum_safe_iff h m a b

/-- A process that has loaded `mn.so` answers a sequence of requests safely
exactly when each of them is proper where it comes. -/
theorem requests_safe_iff (moduli : Nat -> Int32)
    (functions : Nat -> Int32 -> Int32 -> Int32) :
    exists p, myLoad (empty moduli functions) Place.mn = Except.ok p ∧
      forall requests,
        AllSteps step Safe p requests <-> AllSteps step Proper p requests := by
  rcases loaded_load moduli functions with ⟨p, hload, hp⟩
  refine ⟨p, hload, ?_⟩
  exact allSteps_congr (fun _ _ _ h hstep => h.step hstep)
    (fun _ r h => safe_iff_proper h r) hp

/-- A record with the modulus 256 or -1 is registered outside of `fields`, and
the first sum modulo 0 divides by zero. -/
theorem improper_requests_fault :
    exists p, myLoad (empty (fun id => if id = 0 then 256 else -1)
        (fun _ a _ => a)) Place.mn = Except.ok p ∧
      ¬ AllSteps step Safe p [Request.register (Place.other 0)] ∧
      answer p (Request.register (Place.other 0)) =
        Except.error Fault.index ∧
      answer p (Request.register (Place.other 1)) =
        Except.error Fault.index ∧
      answer p (Request.sum 256 1 1) = Except.error Fault.index ∧
      answer p (Request.sum 0 1 1) = Except.error Fault.division := by
  have hslot : slot 0 = Except.ok 0 := slot_eq_ok.mpr (by decide)
  refine ⟨_, myLoad_of_slot (f := Place.mn) hslot, ?_, rfl, rfl, rfl, rfl⟩
  rintro ⟨⟨p', value, hanswer, _⟩, _⟩
  cases hanswer

end SharedLibrary
end SimplePrograms
end UnixPrograms
