import Mathlib.Data.List.Range
import Mathlib.Data.Nat.ModEq
import Mathlib.Logic.Function.Basic

/-!
# Circular buffers

A buffer of `size` cells with the position of the next write, the position of
the next read and the number of entries between them. `contents` is the list
it stands for; each operation is shown as what it does to that list.
-/

namespace Circ

/-- The cells from `out` on, `entries` of them and round the end, are in use;
the next write goes to `inp`. -/
structure Buf (α : Type*) where
  cells : ℕ → α
  size : ℕ
  inp : ℕ
  out : ℕ
  entries : ℕ
  entries_le : entries ≤ size
  out_lt : out < size ∨ out = 0
  inp_eq : inp = (out + entries) % size

section
variable {α : Type*} {b b' : Buf α} {m : α}

/-- One position on, and back to the start at the end. -/
def bump (size i : ℕ) : ℕ := if i + 1 = size then 0 else i + 1

theorem bump_mod {size i : ℕ} (h : i < size) : bump size i = (i + 1) % size := by
  unfold bump
  split
  · next hi => rw [hi, Nat.mod_self]
  · rw [Nat.mod_eq_of_lt (by omega)]

/-- One position back, and to the end at the start. -/
def unbump (size i : ℕ) : ℕ := (if i = 0 then size else i) - 1

theorem unbump_bump {size i : ℕ} (h : i < size) : (unbump size i + 1) % size = i := by
  unfold unbump
  split
  · next hi => rw [hi, show size - 1 + 1 = size by omega, Nat.mod_self]
  · rw [show i - 1 + 1 = i by omega, Nat.mod_eq_of_lt h]

namespace Buf

def contents (b : Buf α) : List α := (List.range b.entries).map fun i => b.cells ((b.out + i) % b.size)

@[simp] theorem length_contents (b : Buf α) : b.contents.length = b.entries := by simp [contents]

theorem contents_eq_nil : b.contents = [] ↔ b.entries = 0 := by
  rw [← List.length_eq_zero_iff, length_contents]

def new (start : ℕ → α) (size : ℕ) : Buf α := ⟨start, size, 0, 0, 0, Nat.zero_le _, .inr rfl, by simp⟩

@[simp] theorem contents_new (start : ℕ → α) (size : ℕ) : (new start size).contents = [] := rfl

def push (b : Buf α) (m : α) : Option (Buf α) :=
  if h : b.size ≤ b.entries then none
  else some { b with
    cells := Function.update b.cells b.inp m
    inp := bump b.size b.inp
    entries := b.entries + 1
    entries_le := by omega
    inp_eq := by
      have hin : b.inp < b.size := b.inp_eq ▸ Nat.mod_lt _ (by omega)
      rw [bump_mod hin, b.inp_eq, Nat.mod_add_mod, Nat.add_assoc] }

def pushFront (b : Buf α) (m : α) : Option (Buf α) :=
  if h : b.size ≤ b.entries then none
  else some { b with
    cells := Function.update b.cells (unbump b.size b.out) m
    out := unbump b.size b.out
    entries := b.entries + 1
    entries_le := by omega
    out_lt := by
      have := b.out_lt
      unfold unbump
      split <;> omega
    inp_eq := by
      have hout : b.out < b.size := b.out_lt.elim id fun h0 => by omega
      rw [b.inp_eq, show unbump b.size b.out + (b.entries + 1) = unbump b.size b.out + 1 + b.entries by omega,
        ← Nat.mod_add_mod (unbump b.size b.out + 1), unbump_bump hout] }

def pop (b : Buf α) : Option (α × Buf α) :=
  if h : b.entries = 0 then none
  else some (b.cells b.out, { b with
    out := bump b.size b.out
    entries := b.entries - 1
    entries_le := by
      have := b.entries_le
      omega
    out_lt := by
      have hle := b.entries_le
      have hout : b.out < b.size := b.out_lt.elim id fun h0 => by omega
      unfold bump
      split <;> omega
    inp_eq := by
      have hle := b.entries_le
      have hout : b.out < b.size := b.out_lt.elim id fun h0 => by omega
      rw [b.inp_eq, bump_mod hout, Nat.mod_add_mod, show b.out + 1 + (b.entries - 1) = b.out + b.entries by omega] })

def flush (b : Buf α) : Buf α := new b.cells b.size

theorem push_eq_none : b.push m = none ↔ b.contents.length = b.size := by
  have := b.entries_le
  rw [push, length_contents]
  split <;> simp <;> omega

theorem pushFront_eq_none : b.pushFront m = none ↔ b.contents.length = b.size := by
  have := b.entries_le
  rw [pushFront, length_contents]
  split <;> simp <;> omega

theorem push_spec (h : b.push m = some b') : b'.contents = b.contents ++ [m] ∧ b'.size = b.size := by
  unfold push at h
  split at h
  · cases h
  · next hlt =>
    obtain rfl := Option.some.inj h
    refine ⟨?_, rfl⟩
    have hpos : 0 < b.size := by omega
    simp only [contents, List.range_succ, List.map_append, List.map_cons, List.map_nil, ← b.inp_eq,
      Function.update_self]
    congr 1
    refine List.map_congr_left fun i hi => Function.update_of_ne ?_ ..
    rw [b.inp_eq]
    intro heq
    have hi := List.mem_range.mp hi
    have := Nat.ModEq.add_left_cancel' b.out heq
    rw [Nat.ModEq, Nat.mod_eq_of_lt (by omega), Nat.mod_eq_of_lt (by omega)] at this
    omega

theorem pushFront_spec (h : b.pushFront m = some b') : b'.contents = m :: b.contents ∧ b'.size = b.size := by
  unfold pushFront at h
  split at h
  · cases h
  · next hlt =>
    obtain rfl := Option.some.inj h
    refine ⟨?_, rfl⟩
    have hout : b.out < b.size := b.out_lt.elim id fun h0 => by omega
    have hback : ∀ i, (unbump b.size b.out + (i + 1)) % b.size = (b.out + i) % b.size := fun i => by
      rw [show unbump b.size b.out + (i + 1) = unbump b.size b.out + 1 + i by omega,
        ← Nat.mod_add_mod (unbump b.size b.out + 1), unbump_bump hout]
    have hlt' : unbump b.size b.out < b.size := by
      unfold unbump
      split <;> omega
    simp only [contents, List.range_succ_eq_map, List.map_cons, List.map_map, Nat.add_zero,
      Nat.mod_eq_of_lt hlt', Function.update_self]
    congr 1
    refine List.map_congr_left fun i hi => ?_
    have hi := List.mem_range.mp hi
    rw [Function.comp_apply, Nat.succ_eq_add_one, hback]
    refine Function.update_of_ne (fun heq => ?_) ..
    have hmod : unbump b.size b.out + (i + 1) ≡ unbump b.size b.out + 0 [MOD b.size] := by
      rw [Nat.ModEq, hback, heq, Nat.add_zero, Nat.mod_eq_of_lt hlt']
    have := Nat.ModEq.add_left_cancel' _ hmod
    rw [Nat.ModEq, Nat.mod_eq_of_lt (by omega), Nat.zero_mod] at this
    omega

theorem pop_eq_none : b.pop = none ↔ b.contents = [] := by
  rw [pop, contents_eq_nil]
  split <;> simp [*]

theorem pop_spec (h : b.pop = some (m, b')) : b.contents = m :: b'.contents ∧ b'.size = b.size := by
  unfold pop at h
  split at h
  · cases h
  · next hne =>
    obtain ⟨rfl, rfl⟩ := Prod.mk.inj (Option.some.inj h)
    refine ⟨?_, rfl⟩
    have hle := b.entries_le
    have hout : b.out < b.size := b.out_lt.elim id fun h0 => by omega
    obtain ⟨e, he⟩ : ∃ e, b.entries = e + 1 := ⟨b.entries - 1, by omega⟩
    simp only [contents, he, Nat.add_sub_cancel, List.range_succ_eq_map, List.map_cons, List.map_map,
      Nat.add_zero, Nat.mod_eq_of_lt hout]
    congr 1
    refine List.map_congr_left fun i _ => ?_
    rw [Function.comp_apply, Nat.succ_eq_add_one, bump_mod hout, Nat.mod_add_mod,
      show b.out + (i + 1) = b.out + 1 + i by omega]

@[simp] theorem contents_flush (b : Buf α) : b.flush.contents = [] := rfl

@[simp] theorem size_flush (b : Buf α) : b.flush.size = b.size := rfl

end Buf
end
end Circ
