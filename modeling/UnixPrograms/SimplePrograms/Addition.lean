import UnixPrograms.SimplePrograms.SharedLibrary

/-!
# The special and the general addition

A process that has loaded `m16.so` masks the bits of a sum, and one that has
loaded `mn.so` takes a remainder, by a modulus that the calls before may have
left different.  Both are the sum modulo 16 unless it is negative.
-/

namespace UnixPrograms
namespace SimplePrograms
namespace SharedLibrary

structure Args where
  m : Int32
  a : Int32
  b : Int32

def sums (p : Process) : List Args -> Except Fault Process
  | [] => Except.ok p
  | args :: rest => do
      let (p, _) <- sum p args.m args.a args.b
      sums p rest

/-- The value of a call in a process that has loaded the plugin and has made
the calls of the history. -/
def lastSum (p : Process) (plugin : Place) (history : List Args)
    (m a b : Int32) : Except Fault Int32 := do
  let p <- myLoad p plugin
  let p <- sums p history
  let (_, value) <- sum p m a b
  return value

theorem sums_keep {Inv : Process -> Prop} {allowed : Args -> Prop}
    (hstep : forall p args, Inv p -> allowed args ->
      exists p' value, sum p args.m args.a args.b = Except.ok (p', value) ∧
        Inv p')
    {p : Process} (hp : Inv p) {history : List Args}
    (hallowed : forall args, args ∈ history -> allowed args) :
    exists p', sums p history = Except.ok p' ∧ Inv p' := by
  induction history generalizing p with
  | nil => exact ⟨p, rfl, hp⟩
  | cons args rest ih =>
      rcases hstep p args hp (hallowed args List.mem_cons_self) with
        ⟨mid, value, hsum, hmid⟩
      rcases ih hmid (fun args' hargs' =>
        hallowed args' (List.mem_cons_of_mem args hargs')) with
        ⟨p', hrest, hp'⟩
      refine ⟨p', ?_, hp'⟩
      rw [sums, hsum]
      exact hrest

theorem lastSum_eq {p loaded p' p'' : Process} {plugin : Place}
    {history : List Args} {m a b value : Int32}
    (hload : myLoad p plugin = Except.ok loaded)
    (hsums : sums loaded history = Except.ok p')
    (hsum : sum p' m a b = Except.ok (p'', value)) :
    lastSum p plugin history m a b = Except.ok value := by
  rw [lastSum, hload]
  show (sums loaded history >>= _) = _
  rw [hsums]
  show (sum p' m a b >>= _) = _
  rw [hsum]
  rfl

/-!
## The special addition
-/

structure Special (p : Process) : Prop where
  registered : p.fields 16 = some Place.m16
  function : (p.records Place.m16).sum = Sum.sum16

theorem Special.sum {p : Process} (h : Special p) (a b : Int32) :
    sum p 16 a b = Except.ok (p, sum16 a b) := by
  have hslot : slot 16 = Except.ok 16 := slot_eq_ok.mpr (by decide)
  apply sum_eq_ok.mpr
  exists Place.m16
  constructor
  · exact choose_of_some hslot h.registered
  · rw [callSum, h.function]

theorem special_load (moduli : Nat -> Int32)
    (functions : Nat -> Int32 -> Int32 -> Int32) :
    exists p, myLoad (empty moduli functions) Place.m16 = Except.ok p ∧
      Special p := by
  have hslot : slot 16 = Except.ok 16 := slot_eq_ok.mpr (by decide)
  refine ⟨_, myLoad_of_slot (f := Place.m16) hslot, ?_⟩
  · constructor
    · rfl
    · rfl

/-!
## The general addition
-/

structure General (p : Process) : Prop where
  first : p.first = some Place.mn
  others : forall i, i ≠ 0 -> p.fields i = none
  function : (p.records Place.mn).sum = Sum.sumn

theorem General.sum {p : Process} (h : General p) {m : Int32}
    (hm : 1 ≤ m.toInt ∧ m.toInt ≤ 255) (a b : Int32) :
    sum p m a b = Except.ok (setModulus p Place.mn m, (a + b) % m) := by
  rcases slot_of_range (m := m) (by lia) with ⟨i, hslot, hi⟩
  have hne : i ≠ 0 := by
    intro heq
    rw [heq] at hi
    have hzero : m.toInt = 0 := hi
    lia
  have hfunction : ((setModulus p Place.mn m).records Place.mn).sum =
      Sum.sumn := by
    rw [setModulus_sum]
    exact h.function
  have hnezero : ¬ m = 0 := by
    intro heq
    rw [heq] at hm
    exact absurd hm.left (by decide)
  apply sum_eq_ok.mpr
  exists Place.mn
  constructor
  · exact choose_of_none hslot (h.others i hne) h.first
  · rw [callSum, hfunction]
    show sumn (setModulus p Place.mn m) a b = _
    rw [sumn, setModulus_m, if_neg hnezero]

theorem General.setModulus {p : Process} (h : General p) (m : Int32) :
    General (setModulus p Place.mn m) where
  first := h.first
  others := h.others
  function := by
    rw [setModulus_sum]
    exact h.function

theorem general_load (moduli : Nat -> Int32)
    (functions : Nat -> Int32 -> Int32 -> Int32) :
    exists p, myLoad (empty moduli functions) Place.mn = Except.ok p ∧
      General p := by
  have hslot : slot 0 = Except.ok 0 := slot_eq_ok.mpr (by decide)
  refine ⟨_, myLoad_of_slot (f := Place.mn) hslot, ?_⟩
  · constructor
    · rfl
    · intro i hi
      exact Function.update_of_ne hi _ _
    · rfl

/-!
## Agreement
-/

def NoOverflow (a b : Int32) : Prop :=
  Int32.minValue.toInt ≤ a.toInt + b.toInt ∧
    a.toInt + b.toInt ≤ Int32.maxValue.toInt

instance (a b : Int32) : Decidable (NoOverflow a b) :=
  inferInstanceAs (Decidable (_ ∧ _))

theorem add_toInt {a b : Int32}
    (hsum : NoOverflow a b) :
    (a + b).toInt = a.toInt + b.toInt := by
  have hmin : Int32.minValue.toInt = -2147483648 := rfl
  have hmax : Int32.maxValue.toInt = 2147483647 := rfl
  rw [NoOverflow, hmin, hmax] at hsum
  rw [Int32.toInt_add]
  apply Int.bmod_eq_of_le
  · lia
  · lia

theorem mask_toInt (x : Int32) : (x &&& 0b1111).toInt = x.toInt % 16 := by
  have hmask : x.toBitVec.toNat &&& 15 = x.toBitVec.toNat % 16 :=
    Nat.and_two_pow_sub_one_eq_mod x.toBitVec.toNat 4
  have hx : x.toInt = (x.toBitVec.toNat : Int).bmod (2 ^ 32) := by
    rw [← Int32.toInt_toBitVec, BitVec.toInt_eq_toNat_bmod]
  have hlt := x.toBitVec.isLt
  rw [← Int32.toInt_toBitVec, Int32.toBitVec_and, BitVec.toInt_and, hx]
  show ((x.toBitVec.toNat &&& 15 : Nat) : Int).bmod (2 ^ 32) = _
  rw [hmask, Int.bmod_def, Int.bmod_def]
  omega

theorem special_value {a b : Int32}
    (hsum : NoOverflow a b) :
    (sum16 a b).toInt = (a.toInt + b.toInt) % 16 := by
  rw [sum16, mask_toInt, add_toInt hsum]

theorem general_value {a b : Int32}
    (hsum : NoOverflow a b) :
    ((a + b) % 16).toInt = (a.toInt + b.toInt).tmod 16 := by
  rw [Int32.toInt_mod, add_toInt hsum]
  rfl

theorem tmod_eq_emod_iff (x : Int) :
    x.tmod 16 = x % 16 <-> 0 ≤ x ∨ 16 ∣ x := by
  rw [Int.tmod_eq_emod]
  constructor
  · intro h
    by_contra hno
    rw [if_neg hno] at h
    have hnat : ((16 : Int).natAbs : Int) = 16 := rfl
    rw [hnat] at h
    lia
  · intro h
    rw [if_pos h]
    exact Int.sub_zero _

/-- Both processes return the sum modulo 16, whatever they have added before,
exactly when it is not negative or a multiple of 16. -/
theorem special_general_agree_iff (moduli : Nat -> Int32)
    (functions : Nat -> Int32 -> Int32 -> Int32) (special general : List Args)
    (a b : Int32) (hspecial : forall args, args ∈ special -> args.m = 16)
    (hgeneral : forall args, args ∈ general ->
      1 ≤ args.m.toInt ∧ args.m.toInt ≤ 255)
    (hsum : NoOverflow a b) :
    (exists value,
      lastSum (empty moduli functions) Place.m16 special 16 a b =
          Except.ok value ∧
        lastSum (empty moduli functions) Place.mn general 16 a b =
          Except.ok value ∧
        value.toInt = (a.toInt + b.toInt) % 16) <->
      0 ≤ a.toInt + b.toInt ∨ 16 ∣ a.toInt + b.toInt := by
  rcases special_load moduli functions with ⟨p, hload, hp⟩
  rcases general_load moduli functions with ⟨q, hload', hq⟩
  have hsums : exists p', sums p special = Except.ok p' ∧ Special p' := by
    apply sums_keep ?_ hp hspecial
    intro p args hp hm
    rw [hm]
    exact ⟨p, sum16 args.a args.b, hp.sum args.a args.b, hp⟩
  have hsums' : exists q', sums q general = Except.ok q' ∧ General q' := by
    apply sums_keep ?_ hq hgeneral
    intro q args hq hm
    exact ⟨_, _, hq.sum hm args.a args.b, hq.setModulus args.m⟩
  rcases hsums with ⟨p', hsums, hp'⟩
  rcases hsums' with ⟨q', hsums', hq'⟩
  rw [lastSum_eq hload hsums (hp'.sum a b),
    lastSum_eq hload' hsums' (hq'.sum (by decide) a b), ← tmod_eq_emod_iff,
    ← general_value hsum]
  constructor
  · rintro ⟨value, _, hgeneral, hvalue⟩
    rw [Except.ok.inj hgeneral]
    exact hvalue
  · intro h
    have heq : (a + b) % 16 = sum16 a b := by
      rw [← Int32.toInt_inj, special_value hsum]
      exact h
    exact ⟨sum16 a b, rfl, congrArg Except.ok heq, special_value hsum⟩

theorem special_general_agree_three :
    exists value,
      lastSum (empty (fun _ => 0) (fun _ a _ => a)) Place.m16
          [⟨16, -3, 2⟩] 16 3 14 = Except.ok value ∧
        lastSum (empty (fun _ => 0) (fun _ a _ => a)) Place.mn
          [⟨7, -3, 2⟩, ⟨255, 1, 1⟩] 16 3 14 = Except.ok value ∧
        value.toInt = ((3 : Int32).toInt + (14 : Int32).toInt) % 16 :=
  (special_general_agree_iff (fun _ => 0) (fun _ a _ => a) [⟨16, -3, 2⟩]
    [⟨7, -3, 2⟩, ⟨255, 1, 1⟩] 3 14 (by decide) (by decide) (by decide)).mpr
    (by decide)

theorem negative_sums_differ :
    NoOverflow (-3) 2 ∧
      lastSum (empty (fun _ => 0) (fun _ a _ => a)) Place.m16 [] 16 (-3) 2 =
          Except.ok 15 ∧
        lastSum (empty (fun _ => 0) (fun _ a _ => a)) Place.mn [] 16 (-3) 2 =
          Except.ok (-1) ∧
        (15 : Int32) ≠ -1 :=
  ⟨by decide, rfl, rfl, by decide⟩

end SharedLibrary
end SimplePrograms
end UnixPrograms
