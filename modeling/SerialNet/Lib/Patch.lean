import Mathlib.Data.List.Basic
import Mathlib.Logic.Function.Basic

/-!
# Ranges of a memory

`read m a n` are the `n` cells from `a` on and `patch m a l` is the memory
after the values `l` are written there one after the other.
-/

namespace Patch

section
variable {α : Type*}

def read (m : Nat → α) : Nat → Nat → List α
  | _, 0 => []
  | a, n + 1 => m a :: read m (a + 1) n

def patch : (Nat → α) → Nat → List α → Nat → α
  | m, _, [] => m
  | m, a, b :: l => patch (Function.update m a b) (a + 1) l

variable {m m' : Nat → α} {a x n k : Nat} {b : α} {l r : List α}

@[simp] theorem read_zero : read m a 0 = [] := rfl

theorem read_succ : read m a (n + 1) = m a :: read m (a + 1) n := rfl

@[simp] theorem patch_nil : patch m a [] = m := rfl

theorem patch_cons : patch m a (b :: l) = patch (Function.update m a b) (a + 1) l := rfl

@[simp] theorem length_read : (read m a n).length = n := by
  induction n generalizing a with
  | zero => rfl
  | succ n ih => simp [read, ih]

theorem getElem_read {i : Nat} (h : i < (read m a n).length) : (read m a n)[i] = m (a + i) := by
  induction n generalizing a i with
  | zero => simp at h
  | succ n ih =>
    cases i with
    | zero => rfl
    | succ i =>
      simp only [read, List.getElem_cons_succ]
      rw [ih, show a + 1 + i = a + (i + 1) by omega]

theorem read_add : read m a (n + k) = read m a n ++ read m (a + n) k := by
  induction n generalizing a with
  | zero => simp
  | succ n ih => rw [Nat.succ_add, read_succ, read_succ, ih, List.cons_append, show a + 1 + n = a + (n + 1) by omega]

theorem take_read : (read m a n).take k = read m a (min k n) := by
  induction n generalizing a k with
  | zero => simp
  | succ n ih =>
    cases k with
    | zero => simp
    | succ k => rw [read_succ, List.take_succ_cons, ih, Nat.succ_min_succ, read_succ]

theorem drop_read : (read m a n).drop k = read m (a + k) (n - k) := by
  induction n generalizing a k with
  | zero => simp
  | succ n ih =>
    cases k with
    | zero => rfl
    | succ k => rw [read_succ, List.drop_succ_cons, ih, show a + 1 + k = a + (k + 1) by omega, Nat.succ_sub_succ]

theorem read_congr (h : ∀ i, i < n → m (a + i) = m' (a + i)) : read m a n = read m' a n := by
  induction n generalizing a with
  | zero => rfl
  | succ n ih =>
    have htail : read m (a + 1) n = read m' (a + 1) n := ih fun i hi => by
      have := h (i + 1) (by omega)
      rwa [show a + (i + 1) = a + 1 + i by omega] at this
    rw [read_succ, read_succ, htail, show m a = m' a from h 0 (by omega)]

theorem mem_read : b ∈ read m a n ↔ ∃ i, i < n ∧ m (a + i) = b := by
  rw [List.mem_iff_getElem]
  constructor
  · rintro ⟨i, hi, rfl⟩
    exact ⟨i, by simpa using hi, (getElem_read hi).symm⟩
  · rintro ⟨i, hi, rfl⟩
    exact ⟨i, by simpa using hi, getElem_read _⟩

/-! ## Writing -/

theorem patch_below (h : x < a) : patch m a l x = m x := by
  induction l generalizing m a with
  | nil => rfl
  | cons b l ih => rw [patch_cons, ih (by omega), Function.update_of_ne (by omega)]

theorem patch_above (h : a + l.length ≤ x) : patch m a l x = m x := by
  induction l generalizing m a with
  | nil => rfl
  | cons b l ih =>
    rw [List.length_cons] at h
    rw [patch_cons, ih (by omega), Function.update_of_ne (by omega)]

theorem patch_outside (h : x < a ∨ a + l.length ≤ x) : patch m a l x = m x := by
  rcases h with h | h
  · exact patch_below h
  · exact patch_above h

theorem patch_inside {i : Nat} (h : i < l.length) : patch m a l (a + i) = l[i] := by
  induction l generalizing m a i with
  | nil => simp at h
  | cons b l ih =>
    cases i with
    | zero => rw [patch_cons, patch_below (by omega), Nat.add_zero, Function.update_self]; rfl
    | succ i =>
      rw [patch_cons, show a + (i + 1) = a + 1 + i by omega, ih (by simpa using h)]; rfl

theorem patch_append : patch m a (l ++ r) = patch (patch m a l) (a + l.length) r := by
  induction l generalizing m a with
  | nil => rfl
  | cons b l ih =>
    rw [List.cons_append, patch_cons, ih, patch_cons, List.length_cons, show a + 1 + l.length = a + (l.length + 1) by omega]

theorem read_patch : read (patch m a l) a l.length = l := by
  refine List.ext_getElem (by simp) fun i h _ => ?_
  rw [getElem_read, patch_inside]

/-- Rewriting part of a buffer is reading the memory with that part written. -/
theorem splice_read {i : Nat} (h : i + l.length ≤ n) :
    (read m a n).take i ++ l ++ (read m a n).drop (i + l.length) = read (patch m (a + i) l) a n := by
  obtain ⟨k, rfl⟩ := Nat.exists_eq_add_of_le h
  have hhead : read (patch m (a + i) l) a i = read m a i := read_congr fun j hj => patch_below (by omega)
  have htail : read (patch m (a + i) l) (a + i + l.length) k = read m (a + i + l.length) k :=
    read_congr fun j _ => patch_above (by omega)
  have hwhole : read (patch m (a + i) l) a (i + l.length + k) = read m a i ++ l ++ read m (a + i + l.length) k := by
    rw [read_add, read_add, read_patch, hhead, ← Nat.add_assoc a, htail]
  rw [hwhole, take_read, drop_read, Nat.min_eq_left (by omega), Nat.add_sub_cancel_left, Nat.add_assoc a]

/-- A memory with the range `l` and unchanged elsewhere. -/
theorem eq_patch (hin : ∀ i (h : i < l.length), m' (a + i) = l[i])
    (hout : ∀ x, x < a ∨ a + l.length ≤ x → m' x = m x) : m' = patch m a l := by
  funext x
  by_cases h : x < a ∨ a + l.length ≤ x
  · rw [hout x h, patch_outside h]
  · have hi : x - a < l.length := by omega
    have hx := hin (x - a) hi
    have hp := patch_inside (m := m) (a := a) hi
    rw [show a + (x - a) = x by omega] at hx hp
    rw [hx, hp]

theorem patch_read (m m' : Nat → α) (a n : Nat) (hout : ∀ x, x < a ∨ a + n ≤ x → m' x = m x) : patch m a (read m' a n) = m' := by
  refine (eq_patch (fun i h => (getElem_read h).symm) fun x hx => ?_).symm
  rw [length_read] at hx
  exact hout x hx

/-! ## Ranges that are known -/

def Holds (m : Nat → α) (a : Nat) (l : List α) : Prop := ∀ i (h : i < l.length), m (a + i) = l[i]

theorem Holds.read (h : Holds m a l) : read m a l.length = l :=
  List.ext_getElem length_read fun i hi hl => by rw [getElem_read hi, h i hl]

theorem holds_append : Holds m a (l ++ r) ↔ Holds m a l ∧ Holds m (a + l.length) r := by
  constructor
  · intro h
    refine ⟨fun i hi => ?_, fun i hi => ?_⟩
    · rw [h i (by simp only [List.length_append]; omega), List.getElem_append_left hi]
    · rw [Nat.add_assoc, h (l.length + i) (by simp only [List.length_append]; omega), List.getElem_append_right (by omega)]
      simp
  · rintro ⟨hl, hr⟩ i hi
    rcases Nat.lt_or_ge i l.length with h | h
    · rw [List.getElem_append_left h, hl i h]
    · rw [List.length_append] at hi
      rw [List.getElem_append_right h, ← hr (i - l.length) (by omega)]
      congr 1
      omega

theorem holds_cons : Holds m a (b :: l) ↔ m a = b ∧ Holds m (a + 1) l := by
  rw [show b :: l = [b] ++ l from rfl, holds_append]
  exact and_congr_left fun _ => ⟨fun h => h 0 (by simp), fun h i hi => by
    obtain rfl : i = 0 := by simpa using hi
    exact h⟩

end

end Patch
