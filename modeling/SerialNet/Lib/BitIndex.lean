import Mathlib.Data.Fin.Basic
import Mathlib.Logic.Equiv.Fin.Basic
import Mathlib.Logic.Function.Basic

/-!
# Two-level bit tables

An `Index m n` keeps a set of numbers below `m * n`: one word of `n` bits for
each of `m` rows, and a group word with a bit for every row that is not empty.
The least member is found with two look-ups (`first_le`).
-/

namespace BitIndex

/-- The rows, and the group word that says which of them have a bit set. -/
@[ext] structure Index (m n : ℕ) where
  grp : BitVec m
  tbl : Fin m → BitVec n
  sound : ∀ y : Fin m, grp.getLsbD y = true ↔ tbl y ≠ 0#n

section
variable {m n : ℕ}

theorem eq_zero_iff {b : BitVec n} : b = 0#n ↔ ∀ x : Fin n, b.getLsbD x = false := by
  refine ⟨fun h x => by simp [h], fun h => BitVec.eq_of_getLsbD_eq fun i hi => ?_⟩
  rw [h ⟨i, hi⟩, BitVec.getLsbD_zero]

theorem ne_zero_iff {b : BitVec n} : b ≠ 0#n ↔ ∃ x : Fin n, b.getLsbD x = true := by
  rw [Ne, eq_zero_iff]; simp

theorem getLsbD_set (b : BitVec n) (x z : Fin n) :
    (b ||| BitVec.twoPow n x).getLsbD z = (b.getLsbD z || decide (z = x)) := by
  simp [Fin.ext_iff, eq_comm]

theorem getLsbD_clear (b : BitVec n) (x z : Fin n) :
    (b &&& ~~~BitVec.twoPow n x).getLsbD z = (b.getLsbD z && decide (z ≠ x)) := by
  simp [Fin.ext_iff, eq_comm]

namespace Index

variable {s : Index m n} {p q : Fin (m * n)}

def empty : Index m n := ⟨0#m, fun _ => 0#n, fun y => by simp⟩

def add (s : Index m n) (p : Fin (m * n)) : Index m n where
  grp := s.grp ||| BitVec.twoPow m p.divNat
  tbl := Function.update s.tbl p.divNat (s.tbl p.divNat ||| BitVec.twoPow n p.modNat)
  sound y := by
    rw [getLsbD_set, Bool.or_eq_true, s.sound]
    by_cases hy : y = p.divNat
    · subst hy
      refine iff_of_true (by simp) ?_
      rw [Function.update_self]
      exact ne_zero_iff.mpr ⟨p.modNat, by rw [getLsbD_set]; simp⟩
    · simp [hy]

def remove (s : Index m n) (p : Fin (m * n)) : Index m n where
  grp := if s.tbl p.divNat &&& ~~~BitVec.twoPow n p.modNat = 0#n then
    s.grp &&& ~~~BitVec.twoPow m p.divNat else s.grp
  tbl := Function.update s.tbl p.divNat (s.tbl p.divNat &&& ~~~BitVec.twoPow n p.modNat)
  sound y := by
    by_cases hy : y = p.divNat
    · subst hy
      rw [Function.update_self]
      split
      · next h => rw [getLsbD_clear, h]; simp
      · next h =>
        refine iff_of_true ((s.sound _).mpr fun h0 => h ?_) h
        rw [h0, BitVec.zero_and]
    · rw [Function.update_of_ne hy, ← s.sound y]
      split
      · rw [getLsbD_clear]; simp [hy]
      · rfl

def has (s : Index m n) (p : Fin (m * n)) : Bool := (s.tbl p.divNat).getLsbD p.modNat

@[simp] theorem has_empty : (empty : Index m n).has p = false := by simp [has, empty]

theorem row_eq (p q : Fin (m * n)) : p = q ↔ p.divNat = q.divNat ∧ p.modNat = q.modNat := by
  refine ⟨fun h => by simp [h], fun h => ?_⟩
  rw [← Fin.divNat_mkDivMod_modNat p, ← Fin.divNat_mkDivMod_modNat q, h.1, h.2]

@[simp] theorem has_add : (s.add p).has q = (decide (q = p) || s.has q) := by
  simp only [has, add]
  by_cases hy : q.divNat = p.divNat
  · rw [hy, Function.update_self, getLsbD_set, Bool.or_comm]
    simp [row_eq q p, hy]
  · simp [row_eq q p, hy]

@[simp] theorem has_remove : (s.remove p).has q = (decide (q ≠ p) && s.has q) := by
  simp only [has, remove]
  by_cases hy : q.divNat = p.divNat
  · rw [hy, Function.update_self, getLsbD_clear, Bool.and_comm]
    simp [row_eq q p, hy]
  · simp [row_eq q p, hy]

def isEmpty (s : Index m n) : Bool := s.grp == 0#m

theorem isEmpty_iff : s.isEmpty = true ↔ ∀ p, s.has p = false := by
  have hrow : s.isEmpty = true ↔ ∀ y, s.tbl y = 0#n := by
    rw [isEmpty, beq_iff_eq, eq_zero_iff]
    exact forall_congr' fun y => by rw [← not_iff_not, Bool.not_eq_false, s.sound y]
  rw [hrow]
  refine ⟨fun h p => by simp [has, h], fun h y => eq_zero_iff.mpr fun x => ?_⟩
  have := h (Fin.mkDivMod y x)
  rwa [has, Fin.divNat_mkDivMod, Fin.modNat_mkDivMod] at this

theorem not_isEmpty_iff : s.isEmpty = false ↔ ∃ p, s.has p = true := by
  rw [← Bool.not_eq_true, isEmpty_iff]; simp

/-- `low` finds the least bit of a word that is not zero. -/
def FindsLow (low : BitVec n → Fin n) : Prop :=
  ∀ b : BitVec n, b ≠ 0#n → b.getLsbD (low b) = true ∧ ∀ x : Fin n, b.getLsbD x = true → low b ≤ x

def first (lowRow : BitVec m → Fin m) (low : BitVec n → Fin n) (s : Index m n) : Fin (m * n) :=
  Fin.mkDivMod (lowRow s.grp) (low (s.tbl (lowRow s.grp)))

section
variable {lowRow : BitVec m → Fin m} {low : BitVec n → Fin n}

theorem has_first (hr : FindsLow lowRow) (hl : FindsLow low) (h : s.isEmpty = false) :
    s.has (s.first lowRow low) = true := by
  have hg : s.grp ≠ 0#m := by simpa [isEmpty] using h
  rw [has, first, Fin.divNat_mkDivMod, Fin.modNat_mkDivMod]
  exact (hl _ ((s.sound _).mp (hr _ hg).1)).1

theorem first_le (hr : FindsLow lowRow) (hl : FindsLow low) (hp : s.has p = true) :
    s.first lowRow low ≤ p := by
  have hrow : s.grp.getLsbD p.divNat = true := (s.sound _).mpr (ne_zero_iff.mpr ⟨_, hp⟩)
  have hg : s.grp ≠ 0#m := ne_zero_iff.mpr ⟨_, hrow⟩
  have hy : lowRow s.grp ≤ p.divNat := (hr _ hg).2 _ hrow
  rw [← Fin.divNat_mkDivMod_modNat p, first, Fin.le_def, Fin.coe_mkDivMod, Fin.coe_mkDivMod]
  rcases Fin.lt_or_eq_of_le hy with hlt | heq
  · have hmul : n * (lowRow s.grp + 1) ≤ n * p.divNat := Nat.mul_le_mul_left n hlt
    have hcol := (low (s.tbl (lowRow s.grp))).isLt
    rw [Nat.mul_succ] at hmul
    omega
  · have hx : low (s.tbl p.divNat) ≤ p.modNat := (hl _ (ne_zero_iff.mpr ⟨_, hp⟩)).2 _ hp
    rw [heq]
    exact Nat.add_le_add_left hx _

theorem first_eq (hr : FindsLow lowRow) (hl : FindsLow low) (hp : s.has p = true) (hle : ∀ q, s.has q = true → p ≤ q) :
    s.first lowRow low = p := by
  have hne : s.isEmpty = false := not_isEmpty_iff.mpr ⟨p, hp⟩
  exact le_antisymm (first_le hr hl hp) (hle _ (has_first hr hl hne))

/-- The least member stays the least when another one goes. -/
theorem first_remove (hr : FindsLow lowRow) (hl : FindsLow low) (hne : s.isEmpty = false)
    (hp : p ≠ s.first lowRow low) : (s.remove p).first lowRow low = s.first lowRow low := by
  refine first_eq hr hl ?_ fun q hq => ?_
  · simp [has_first hr hl hne, Ne.symm hp]
  · rw [has_remove, Bool.and_eq_true] at hq
    exact first_le hr hl hq.2

end

end Index

end

end BitIndex
