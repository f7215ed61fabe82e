import Mathlib.Data.BitVec

/-!
# Cyclic redundancy checks

The reflected bit-serial division: the register moves down, and the polynomial
is added when a one leaves it. Every such map respects exclusive or, so it is
known from its values on the single bits.
-/

namespace Crc

/-! ## Maps that respect exclusive or -/

section
variable {n k : Nat} {f g : BitVec n → BitVec k}

def XorLinear (f : BitVec n → BitVec k) : Prop := ∀ x y, f (x ^^^ y) = f x ^^^ f y

theorem XorLinear.zero (hf : XorLinear f) : f 0#n = 0#k := by
  have h := hf 0#n 0#n
  rwa [BitVec.xor_self, BitVec.xor_self] at h

theorem XorLinear.comp {m : Nat} {h : BitVec k → BitVec m} (hh : XorLinear h) (hf : XorLinear f) :
    XorLinear fun x => h (f x) := fun x y => (congrArg h (hf x y)).trans (hh (f x) (f y))

/-- A vector whose highest bit is `i` is that bit and a vector below it. -/
theorem clear_bit {x : BitVec n} {i : Nat} (hx : ∀ j, i < j → x.getLsbD j = false) (hi : x.getLsbD i = true) :
    ∀ j, i ≤ j → (x ^^^ BitVec.twoPow n i).getLsbD j = false := by
  intro j hj
  have hlt : i < n := BitVec.lt_of_getLsbD hi
  rw [BitVec.getLsbD_xor, BitVec.getLsbD_twoPow]
  rcases Nat.eq_or_lt_of_le hj with rfl | hlt'
  · simp [hi, hlt]
  · simp [hx j hlt', Nat.ne_of_lt hlt']

/-- Two additive maps that agree on the single bits agree. -/
theorem XorLinear.ext (hf : XorLinear f) (hg : XorLinear g)
    (h : ∀ i : Fin n, f (BitVec.twoPow n i) = g (BitVec.twoPow n i)) (x : BitVec n) : f x = g x := by
  -- by the number of low bits that may be set
  have hlow : ∀ i, ∀ x : BitVec n, (∀ j, i ≤ j → x.getLsbD j = false) → f x = g x := by
    intro i
    induction i with
    | zero =>
      intro x hx
      have : x = 0#n := BitVec.eq_of_getLsbD_eq fun j _ => by rw [hx j (Nat.zero_le j), BitVec.getLsbD_zero]
      rw [this, hf.zero, hg.zero]
    | succ i ih =>
      intro x hx
      cases hi : x.getLsbD i with
      | false =>
        refine ih x fun j hj => ?_
        rcases Nat.eq_or_lt_of_le hj with rfl | hlt
        · exact hi
        · exact hx j hlt
      | true =>
        have hrest := ih _ (clear_bit hx hi)
        have hbit := h ⟨i, BitVec.lt_of_getLsbD hi⟩
        rw [hf, hg] at hrest
        rw [hbit] at hrest
        exact (BitVec.xor_left_inj _).mp hrest
  exact hlow n x fun j hj => BitVec.getLsbD_of_ge x j hj

end

/-! ## The division -/

section
variable {w : Nat} (poly : BitVec w)

/-- One bit leaves the register. -/
def step (c : BitVec w) : BitVec w := (c >>> 1) ^^^ (if c.getLsbD 0 then poly else 0#w)

def steps : Nat → BitVec w → BitVec w
  | 0, c => c
  | n + 1, c => steps n (step poly c)

/-- A byte is added to the low end of the register and divided out. -/
def byte (c : BitVec w) (d : BitVec 8) : BitVec w := steps poly 8 (c ^^^ d.setWidth w)

def crc (init : BitVec w) (data : List (BitVec 8)) : BitVec w := data.foldl (byte poly) init

theorem step_xor : XorLinear (step poly) := by
  intro x y
  have hleft : ∀ a b : Bool, (if a ^^ b then poly else 0#w) = (if a then poly else 0#w) ^^^ (if b then poly else 0#w) := by
    intro a b
    cases a <;> cases b <;> simp
  unfold step
  rw [BitVec.ushiftRight_xor_distrib, BitVec.getLsbD_xor, hleft]
  ac_rfl

theorem steps_xor : ∀ n, XorLinear (steps poly n)
  | 0 => fun _ _ => rfl
  | n + 1 => (steps_xor n).comp (step_xor poly)

end

end Crc
