import SerialNet.Lib.Numeral
import SerialNet.Param.PageBuilder
import SerialNet.Util.Strlen

/-!
# Printing integers

`utoa` finds where to put the last digit by looking for the end of what its
inner call wrote.
-/

namespace SerialNet.Util

open Patch Numeral Param

/-- The string `s` of `utoa`. -/
def digitChars : List UInt8 := bytes "0123456789abcdefghijklmnopqrstuvwxyz"

def digitChar (d : Nat) : UInt8 := digitChars.getD d 0

def base (radix : UInt32) : UInt32 := if radix = 0 then 10 else radix

/-- `utoa` with a buffer; nothing when the calls nest deeper than `fuel`. -/
def utoa : Nat → (Nat → UInt8) → UInt32 → Nat → UInt32 → Option (Nat → UInt8)
  | 0, _, _, _, _ => none
  | fuel + 1, m, val, buf, radix =>
    let radix := base radix
    if val < radix then some (patch m buf [digitChar val.toNat, 0])
    else (utoa fuel m (val / radix) buf radix).bind fun m =>
      utoa fuel m (val % radix) (buf + strlen m buf) radix

def itoa (fuel : Nat) (m : Nat → UInt8) (val : Int32) (buf : Nat) (radix : UInt32) : Option (Nat → UInt8) :=
  if val < 0 then utoa fuel (patch m buf [45]) (-val).toUInt32 (buf + 1) (base radix)
  else utoa fuel m val.toUInt32 buf (base radix)

/-- The buffer holds a sign where `negative`, the canonical numeral of `n`, and a zero, and nothing else is written. -/
structure Prints (m m' : Nat → UInt8) (buf : Nat) (radix : UInt32) (negative : Bool) (n : Nat) (text : List UInt8) : Prop where
  held : CStr.Holds m' buf text
  digits : ∃ ds, text = (if negative then [45] else []) ++ ds.map digitChar ∧ Canonical (base radix).toNat n ds
  sign : text.head? = some 45 ↔ negative = true
  frame : ∀ x, x < buf ∨ buf + text.length < x → m' x = m x

/-! ## The characters -/

theorem digitChar_ne_zero : ∀ d, d < 36 → digitChar d ≠ 0 := by decide

theorem digitChar_small : ∀ d, d < 10 → digitChar d = UInt8.ofNat (48 + d) := by decide

theorem digitChar_ne_minus : ∀ d, d < 36 → digitChar d ≠ 45 := by decide

def numeralText (b n : Nat) : List UInt8 := (numeral b n).map digitChar

section
variable {m : Nat → UInt8} {b n k a : Nat} {t : List UInt8} {c : UInt8} {radix : UInt32}

theorem numeralText_no_zero (hb : 1 < b) (hb' : b ≤ 36) : 0 ∉ numeralText b n := by
  intro h
  obtain ⟨d, hd, h0⟩ := List.mem_map.mp h
  exact digitChar_ne_zero d (Nat.lt_of_lt_of_le ((numeral_canonical hb).digit d hd) hb') h0

theorem patch_extend : patch (patch m a (t ++ [0])) (a + t.length) [c, 0] = patch m a (t ++ [c] ++ [0]) := by
  rw [List.append_assoc, patch_append, patch_append]
  simp only [List.singleton_append, patch_cons, patch_nil, Function.update_idem]

theorem base_toNat (h : radix = 0 ∨ 2 ≤ radix ∧ radix ≤ 36) : 1 < (base radix).toNat ∧ (base radix).toNat ≤ 36 := by
  unfold base
  split
  · decide
  · rename_i h0
    obtain ⟨h2, h36⟩ := h.resolve_left h0
    exact ⟨UInt32.le_iff_toNat_le.mp h2, UInt32.le_iff_toNat_le.mp h36⟩

theorem base_base : base (base radix) = base radix := by
  by_cases h0 : radix = 0
  · subst h0
    rfl
  · simp only [base, if_neg h0]

/-! ## utoa -/

/-- A value below the radix is one character, any other the text of the quotient and one more. -/
theorem utoa_text (hr : base radix = radix) (hb : 1 < radix.toNat) (hb' : radix.toNat ≤ 36) :
    ∀ fuel m val a, (numeral radix.toNat val.toNat).length ≤ fuel → (numeral radix.toNat val.toNat).length ≤ strlenMax →
      utoa fuel m val a radix = some (patch m a (numeralText radix.toNat val.toNat ++ [0])) := by
  intro fuel
  induction fuel with
  | zero =>
    intro m val a hlen
    have hne := (numeral_canonical hb (n := val.toNat)).nonempty
    exact absurd (List.length_eq_zero_iff.mp (Nat.le_zero.mp hlen)) hne
  | succ fuel ih =>
    intro m val a hlen hword
    rw [utoa, hr]
    by_cases hval : val < radix
    · rw [if_pos hval, numeralText, numeral_small (UInt32.lt_iff_toNat_lt.mp hval)]
      rfl
    · have hle : radix.toNat ≤ val.toNat := UInt32.le_iff_toNat_le.mp (UInt32.not_lt.mp hval)
      have hstep := numeral_step hb hle
      have hmod : val.toNat % radix.toNat < radix.toNat := Nat.mod_lt _ (by omega)
      have hlast := numeral_small hmod
      rw [hstep, List.length_append, List.length_singleton] at hlen hword
      have hquot := ih m (val / radix) a (by rw [UInt32.toNat_div]; omega) (by rw [UInt32.toNat_div]; omega)
      rw [UInt32.toNat_div] at hquot
      rw [if_neg hval, hquot, Option.bind_some,
        strlen_short (CStr.holds_patch (numeralText_no_zero hb hb')) (by rw [numeralText, List.length_map]; omega)]
      have hne := (numeral_canonical hb (n := val.toNat / radix.toNat)).nonempty
      have hpos := List.length_pos_iff.mpr hne
      have hdigit := ih (patch m a (numeralText radix.toNat (val.toNat / radix.toNat) ++ [0])) (val % radix)
        (a + (numeralText radix.toNat (val.toNat / radix.toNat)).length)
        (by rw [UInt32.toNat_mod, hlast, List.length_singleton]; omega)
        (by rw [UInt32.toNat_mod, hlast, List.length_singleton]; omega)
      rw [hdigit, UInt32.toNat_mod]
      simp only [numeralText, hlast, hstep, List.map_append, List.map_cons, List.map_nil, List.singleton_append]
      exact congrArg some patch_extend

theorem numeral_word (hb : 1 < b) (val : UInt32) : (numeral b val.toNat).length ≤ 32 :=
  numeral_length hb (by decide) (Nat.lt_of_lt_of_le val.toNat_lt (Nat.pow_le_pow_left hb 32))

theorem utoa_prints {fuel : Nat} (hfuel : 32 ≤ fuel) (h : radix = 0 ∨ 2 ≤ radix ∧ radix ≤ 36) (m : Nat → UInt8)
    (val : UInt32) (a : Nat) :
    utoa fuel m val a radix = some (patch m a (numeralText (base radix).toNat val.toNat ++ [0])) := by
  obtain ⟨hb, hb'⟩ := base_toNat h
  have hlen := numeral_word hb val
  have hnormal : utoa fuel m val a radix = utoa fuel m val a (base radix) := by
    cases fuel with
    | zero => rfl
    | succ fuel => rw [utoa, utoa, base_base]
  rw [hnormal]
  exact utoa_text base_base hb hb' fuel m val a (by omega) (Nat.le_trans hlen (by decide))

end

/-! ## itoa -/

section
variable {m : Nat → UInt8} {fuel buf : Nat} {radix : UInt32}

def itoaText (val : Int32) (radix : UInt32) : List UInt8 :=
  (if val < 0 then [45] else []) ++ numeralText (base radix).toNat val.toInt.natAbs

theorem itoa_prints (hfuel : 32 ≤ fuel) (h : radix = 0 ∨ 2 ≤ radix ∧ radix ≤ 36) (val : Int32) :
    itoa fuel m val buf radix = some (patch m buf (itoaText val radix ++ [0])) := by
  have hbase : base radix = 0 ∨ 2 ≤ base radix ∧ base radix ≤ 36 := by
    obtain ⟨hb, hb'⟩ := base_toNat h
    exact .inr ⟨UInt32.le_iff_toNat_le.mpr hb, UInt32.le_iff_toNat_le.mpr hb'⟩
  have hword : val.toInt = if 2 * val.toUInt32.toNat < 2 ^ 32 then (val.toUInt32.toNat : Int) else
      (val.toUInt32.toNat : Int) - (2 ^ 32 : Nat) := BitVec.toInt_eq_toNat_cond val.toBitVec
  have hlt := val.toUInt32.toNat_lt
  have hsign : val < 0 ↔ val.toInt < 0 := Int32.lt_iff_toInt_lt
  unfold itoa itoaText
  by_cases hneg : val < 0
  · have hmag : (-val).toUInt32.toNat = val.toInt.natAbs := by
      have hnegative := hsign.mp hneg
      rw [Int32.toUInt32_neg, UInt32.toNat_neg, show UInt32.size = 2 ^ 32 from rfl]
      omega
    rw [if_pos hneg, if_pos hneg, utoa_prints hfuel hbase, base_base, hmag, List.append_assoc, @patch_append _ m buf [45]]
    rfl
  · have hmag : val.toUInt32.toNat = val.toInt.natAbs := by
      have hnonneg := mt hsign.mpr hneg
      omega
    rw [if_neg hneg, if_neg hneg, utoa_prints hfuel hbase, base_base, hmag]
    rfl

theorem prints_patch (h : radix = 0 ∨ 2 ≤ radix ∧ radix ≤ 36) {negative : Bool} {n : Nat} {text : List UInt8}
    (ht : text = (if negative then [45] else []) ++ numeralText (base radix).toNat n) :
    Prints m (patch m buf (text ++ [0])) buf radix negative n text := by
  obtain ⟨hb, hb'⟩ := base_toNat h
  have hcanon := numeral_canonical hb (n := n)
  have hminus : 45 ∉ numeralText (base radix).toNat n := fun hmem => by
    obtain ⟨d, hd, h45⟩ := List.mem_map.mp hmem
    exact digitChar_ne_minus d (Nat.lt_of_lt_of_le (hcanon.digit d hd) hb') h45
  have hzero : 0 ∉ text := by
    rw [ht, List.mem_append, not_or]
    exact ⟨by cases negative <;> decide, numeralText_no_zero hb hb'⟩
  refine ⟨CStr.holds_patch hzero, ⟨_, ht, hcanon⟩, ?_, fun x hx => patch_outside ?_⟩
  · rw [ht]
    cases negative with
    | true => exact iff_of_true rfl rfl
    | false => exact iff_of_false (fun hhead => hminus (List.mem_of_mem_head? hhead)) Bool.false_ne_true
  · rw [List.length_append, List.length_singleton]
    omega

theorem numeralText_ten (n : Nat) : numeralText 10 n = Param.digits n := by
  rw [← utoa_eq]
  induction n using Nat.strongRecOn with
  | ind n ih =>
    rw [Param.utoa]
    by_cases h : n < 10
    · rw [if_pos h, numeralText, numeral_small h, List.map_singleton, digitChar_small n h]
    · rw [if_neg h, ← ih _ (by omega), ← ih _ (by omega), numeralText, numeral_step (by decide) (by omega), List.map_append,
        numeralText, numeralText, numeral_small (Nat.mod_lt n (by decide))]

theorem itoaText_ten (val : Int32) : itoaText val 0 = digitsInt val.toInt := by
  have hsign : val < 0 ↔ val.toInt < 0 := Int32.lt_iff_toInt_lt
  rw [itoaText, show (base 0).toNat = 10 from rfl, numeralText_ten]
  cases hi : val.toInt with
  | ofNat n =>
    rw [if_neg (by rw [hsign, hi]; exact Int.not_lt.mpr (Int.natCast_nonneg n))]
    rfl
  | negSucc n =>
    rw [if_pos (by rw [hsign, hi]; exact Int.negSucc_lt_zero n)]
    rfl

/-- **`itoa` and `utoa` print canonical numerals.** -/
theorem integer_printing (hfuel : 32 ≤ fuel) (h : radix = 0 ∨ 2 ≤ radix ∧ radix ≤ 36) :
    (∀ val : Int32, ∃ m' text, itoa fuel m val buf radix = some m' ∧
      Prints m m' buf radix (decide (val < 0)) val.toInt.natAbs text ∧
      (radix = 0 → strlen m' buf = (digitsInt val.toInt).length)) ∧
    ∀ val : UInt32, ∃ m' text, utoa fuel m val buf radix = some m' ∧ Prints m m' buf radix false val.toNat text := by
  refine ⟨fun val => ?_, fun val => ?_⟩
  · have hprints := @prints_patch m buf radix h (decide (val < 0)) val.toInt.natAbs (itoaText val radix)
      (by rw [itoaText]; simp only [decide_eq_true_eq])
    refine ⟨_, _, itoa_prints hfuel h val, hprints, fun h0 => ?_⟩
    have hlen : (itoaText val radix).length ≤ strlenMax := by
      have hmax : strlenMax = 4095 := rfl
      have hlow := val.le_toInt
      have hhigh := val.toInt_lt
      have hnumeral := @numeral_length _ val.toInt.natAbs 32 (base_toNat h).1 (by decide)
        (Nat.lt_of_lt_of_le (by omega : val.toInt.natAbs < 2 ^ 32) (Nat.pow_le_pow_left (base_toNat h).1 32))
      rw [itoaText, List.length_append, numeralText, List.length_map]
      split <;> simp only [List.length_singleton, List.length_nil] <;> omega
    rw [strlen_short hprints.held hlen, h0, itoaText_ten]
  · exact ⟨_, _, utoa_prints hfuel h m val buf, prints_patch h rfl⟩

theorem integer_printing_min : ∃ m' text, itoa 32 (fun _ => 1) Int32.minValue 7 0 = some m' ∧
    Prints (fun _ => 1) m' 7 0 true 2147483648 text := by
  obtain ⟨m', text, hrun, hprints, -⟩ :=
    (@integer_printing (fun _ => 1) 32 7 0 (Nat.le_refl 32) (.inl rfl)).1 Int32.minValue
  exact ⟨m', text, hrun, hprints⟩

end

end SerialNet.Util
