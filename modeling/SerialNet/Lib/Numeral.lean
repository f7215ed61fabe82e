import Mathlib.Data.Nat.Digits.Lemmas

/-!
# Canonical numerals

`numeral b n` are the digits of `n` in base `b`, the highest first, without
leading zeros; the numeral of 0 is one zero.
-/

namespace Numeral

def numeral (b n : Nat) : List Nat := if n = 0 then [0] else (Nat.digits b n).reverse

/-- What makes a list of digits the canonical numeral of `n`. -/
structure Canonical (b n : Nat) (ds : List Nat) : Prop where
  value : Nat.ofDigits b ds.reverse = n
  digit : ∀ d ∈ ds, d < b
  nonempty : ds ≠ []
  leading : ds.head? = some 0 → ds = [0]

section
variable {b n k : Nat}

theorem numeral_canonical (hb : 1 < b) : Canonical b n (numeral b n) := by
  unfold numeral
  split
  · rename_i h0
    subst h0
    refine ⟨rfl, fun d hd => ?_, by simp, fun _ => rfl⟩
    rw [List.mem_singleton.mp hd]
    omega
  · rename_i hn
    refine ⟨?_, fun d hd => Nat.digits_lt_base hb (List.mem_reverse.mp hd), ?_, fun h => ?_⟩
    · rw [List.reverse_reverse]
      exact Nat.ofDigits_digits b n
    · simpa using Nat.digits_ne_nil_iff_ne_zero.mpr hn
    · have hlast := Nat.getLast_digit_ne_zero b hn
      rw [List.head?_reverse, List.getLast?_eq_getLast_of_ne_nil (Nat.digits_ne_nil_iff_ne_zero.mpr hn)] at h
      exact absurd (Option.some.inj h) hlast

theorem numeral_small (h : n < b) : numeral b n = [n] := by
  unfold numeral
  split
  · rename_i h0
    rw [h0]
  · rename_i hn
    rw [Nat.digits_of_lt b n hn h]
    rfl

/-- The last digit behind the numeral of the rest. -/
theorem numeral_step (hb : 1 < b) (h : b ≤ n) : numeral b n = numeral b (n / b) ++ [n % b] := by
  have hn : n ≠ 0 := by omega
  have hq : n / b ≠ 0 := Nat.div_ne_zero_iff.mpr ⟨by omega, h⟩
  rw [numeral, numeral, if_neg hn, if_neg hq, Nat.digits_def' hb (by omega), List.reverse_cons]

theorem numeral_length (hb : 1 < b) (hk : 0 < k) (h : n < b ^ k) : (numeral b n).length ≤ k := by
  unfold numeral
  split
  · exact hk
  · rw [List.length_reverse]
    exact (Nat.digits_length_le_iff hb n).mpr h

end

end Numeral
