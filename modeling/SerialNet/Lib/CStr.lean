import SerialNet.Lib.Patch

/-!
# C strings in a memory

`Holds m a l`: the memory holds the characters `l` at `a`, ended by a zero.
`strlen m a n` looks for that zero among the `n` cells at `a`.
-/

namespace CStr

open Patch

structure Holds (m : Nat → UInt8) (a : Nat) (l : List UInt8) : Prop where
  chars : read m a l.length = l
  nonzero : 0 ∉ l
  ended : m (a + l.length) = 0

section
variable {m m' : Nat → UInt8} {a n k i : Nat} {l : List UInt8}

theorem Holds.char (h : Holds m a l) (hi : i < l.length) : m (a + i) = l[i] := by
  have hr : i < (read m a l.length).length := by rw [length_read]; exact hi
  rw [← getElem_read hr]
  simp only [h.chars]

theorem Holds.congr (h : Holds m a l) (hs : ∀ i, i ≤ l.length → m' (a + i) = m (a + i)) : Holds m' a l :=
  ⟨(read_congr fun i hi => hs i (Nat.le_of_lt hi)).trans h.chars, h.nonzero, (hs _ (Nat.le_refl _)).trans h.ended⟩

theorem Holds.drop {r : List UInt8} (h : Holds m a (l ++ r)) : Holds m (a + l.length) r := by
  have hend := h.ended
  rw [List.length_append, ← Nat.add_assoc] at hend
  refine ⟨List.ext_getElem length_read fun i _ hi => ?_, fun h0 => h.nonzero (List.mem_append_right l h0), hend⟩
  have hchar := h.char (show l.length + i < (l ++ r).length by rw [List.length_append]; omega)
  rw [getElem_read, Nat.add_assoc, hchar, List.getElem_append_right (Nat.le_add_right _ _)]
  simp only [Nat.add_sub_cancel_left]

theorem holds_patch (h0 : 0 ∉ l) : Holds (patch m a (l ++ [0])) a l := by
  refine ⟨?_, h0, ?_⟩
  · have hread := read_patch (m := m) (a := a) (l := l ++ [0])
    rw [List.length_append, List.length_singleton, read_add] at hread
    exact List.append_inj_left hread length_read
  · rw [@patch_inside _ m a (l ++ [0]) l.length (by simp), List.getElem_concat_length rfl]

/-! ## strlen -/

def strlen (m : Nat → UInt8) : Nat → Nat → Nat
  | _, 0 => 0
  | a, n + 1 => if m a = 0 then 0 else strlen m (a + 1) n + 1

theorem strlen_le : strlen m a n ≤ n := by
  induction n generalizing a with
  | zero => exact Nat.le_refl 0
  | succ n ih =>
    simp only [strlen]
    split
    · exact Nat.zero_le _
    · exact Nat.succ_le_succ ih

theorem strlen_ne (h : i < strlen m a n) : m (a + i) ≠ 0 := by
  induction n generalizing a i with
  | zero => cases h
  | succ n ih =>
    simp only [strlen] at h
    split at h
    · cases h
    · rename_i h0
      cases i with
      | zero => exact h0
      | succ i =>
        rw [show a + (i + 1) = a + 1 + i by omega]
        exact ih (Nat.lt_of_succ_lt_succ h)

theorem strlen_end (h : strlen m a n < n) : m (a + strlen m a n) = 0 := by
  induction n generalizing a with
  | zero => cases h
  | succ n ih =>
    simp only [strlen] at h ⊢
    split at h
    · rename_i h0
      rw [if_pos h0]
      exact h0
    · rename_i h0
      rw [if_neg h0, show a + (strlen m (a + 1) n + 1) = a + 1 + strlen m (a + 1) n by omega]
      exact ih (Nat.lt_of_succ_lt_succ h)

theorem strlen_le_of_zero (hz : m (a + k) = 0) : strlen m a n ≤ k :=
  Nat.le_of_not_lt fun h => strlen_ne h hz

theorem strlen_eq (hne : ∀ i, i < k → m (a + i) ≠ 0) (hz : m (a + k) = 0) (hk : k < n) : strlen m a n = k := by
  have hle := strlen_le_of_zero (n := n) hz
  refine Nat.le_antisymm hle (Nat.le_of_not_lt fun h => ?_)
  exact hne _ h (strlen_end (Nat.lt_of_le_of_lt hle hk))

theorem strlen_lt_iff (hk : k ≤ n) : strlen m a n < k ↔ 0 ∈ read m a k := by
  rw [mem_read]
  constructor
  · intro h
    exact ⟨_, h, strlen_end (Nat.lt_of_lt_of_le h hk)⟩
  · rintro ⟨i, hi, hz⟩
    exact Nat.lt_of_le_of_lt (strlen_le_of_zero hz) hi

theorem Holds.strlen (h : Holds m a l) (hn : l.length < n) : strlen m a n = l.length :=
  strlen_eq (fun i hi => by rw [h.char hi]; exact fun h0 => h.nonzero (h0 ▸ List.getElem_mem hi)) h.ended hn

theorem Holds.unique {l' : List UInt8} (h : Holds m a l) (h' : Holds m a l') : l = l' := by
  have hlen := (h.strlen (show l.length < l.length + l'.length + 1 by omega)).symm.trans
    (h'.strlen (show l'.length < l.length + l'.length + 1 by omega))
  rw [← h.chars, hlen, h'.chars]

theorem Holds.read_strlen (h : Holds m a l) (hn : l.length < n) : read m a (CStr.strlen m a n) = l := by
  rw [h.strlen hn, h.chars]

end

end CStr
