import SerialNet.Lib.CStr

/-!
# strlen

`strlen` of `os_core.c` is `Str_Len_N` with a bound: behind so many characters
it looks for no zero.
-/

namespace SerialNet.Util

def strlenMax : Nat := 4095

def strlen (m : Nat → UInt8) (a : Nat) : Nat := CStr.strlen m a strlenMax

section
variable {m : Nat → UInt8} {a n : Nat} {s : List UInt8}

theorem strlen_le : strlen m a ≤ strlenMax := CStr.strlen_le

theorem strlen_zero (h : strlen m a < strlenMax) : m (a + strlen m a) = 0 := CStr.strlen_end h

theorem strlen_eq (hne : ∀ i, i < n → m (a + i) ≠ 0) (hmax : n ≤ strlenMax) (hend : m (a + n) = 0 ∨ n = strlenMax) :
    strlen m a = n := by
  rcases Nat.lt_or_eq_of_le hmax with hlt | rfl
  · exact CStr.strlen_eq hne (hend.resolve_right (Nat.ne_of_lt hlt)) hlt
  · refine Nat.le_antisymm strlen_le (Nat.le_of_not_lt fun h => ?_)
    exact hne _ h (strlen_zero h)

theorem strlen_holds (h : CStr.Holds m a s) : strlen m a = min s.length strlenMax := by
  have hne : ∀ i, i < min s.length strlenMax → m (a + i) ≠ 0 := fun i hi => by
    have hlt : i < s.length := by omega
    rw [h.char hlt]
    exact fun h0 => h.nonzero (h0 ▸ List.getElem_mem hlt)
  refine strlen_eq hne (Nat.min_le_right _ _) ?_
  by_cases hle : s.length ≤ strlenMax
  · rw [Nat.min_eq_left hle]
    exact .inl h.ended
  · rw [Nat.min_eq_right (Nat.le_of_not_le hle)]
    exact .inr rfl

theorem strlen_short (h : CStr.Holds m a s) (hs : s.length ≤ strlenMax) : strlen m a = s.length :=
  (strlen_holds h).trans (Nat.min_eq_left hs)

end

end SerialNet.Util
