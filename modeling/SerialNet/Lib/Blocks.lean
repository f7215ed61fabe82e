import Mathlib.Algebra.Order.Ring.Nat
import Mathlib.Data.List.Chain
import Mathlib.Algebra.BigOperators.Group.List.Basic
import Mathlib.Data.List.Nodup

/-!
# Blocks that tile a range

A range of addresses is cut into blocks, each a header of `ov` bytes followed
by its payload. A list of blocks and the address of the first one determine
every header address. Allocation cuts a free block in two, freeing joins
neighbours.
-/

namespace Blocks

structure Blk where
  size : Nat
  free : Bool
  deriving DecidableEq, Repr

section
variable (ov : Nat)

/-- The address after the blocks. -/
def fin : Nat → List Blk → Nat
  | a, [] => a
  | a, b :: bs => fin (a + ov + b.size) bs

/-- The header addresses. -/
def addrs : Nat → List Blk → List Nat
  | _, [] => []
  | a, b :: bs => a :: addrs (a + ov + b.size) bs

/-- The payload addresses of the blocks that are not free. -/
def live : Nat → List Blk → List Nat
  | _, [] => []
  | a, b :: bs => (if b.free then [] else [a + ov]) ++ live (a + ov + b.size) bs

def freeBytes (bs : List Blk) : Nat := ((bs.filter (·.free)).map (·.size)).sum

def NoAdjFree (bs : List Blk) : Prop := bs.IsChain fun b c => ¬(b.free = true ∧ c.free = true)

@[simp] theorem fin_nil (a : Nat) : fin ov a [] = a := rfl
@[simp] theorem fin_cons (a : Nat) (b : Blk) (bs : List Blk) :
    fin ov a (b :: bs) = fin ov (a + ov + b.size) bs := rfl
@[simp] theorem addrs_nil (a : Nat) : addrs ov a [] = [] := rfl
@[simp] theorem addrs_cons (a : Nat) (b : Blk) (bs : List Blk) :
    addrs ov a (b :: bs) = a :: addrs ov (a + ov + b.size) bs := rfl
@[simp] theorem live_nil (a : Nat) : live ov a [] = [] := rfl

theorem fin_append (xs ys : List Blk) : ∀ a, fin ov a (xs ++ ys) = fin ov (fin ov a xs) ys := by
  induction xs with
  | nil => intro a; rfl
  | cons x xs ih => intro a; simp [ih]

theorem addrs_append (xs ys : List Blk) :
    ∀ a, addrs ov a (xs ++ ys) = addrs ov a xs ++ addrs ov (fin ov a xs) ys := by
  induction xs with
  | nil => intro a; rfl
  | cons x xs ih => intro a; simp [ih]

theorem live_append (xs ys : List Blk) :
    ∀ a, live ov a (xs ++ ys) = live ov a xs ++ live ov (fin ov a xs) ys := by
  induction xs with
  | nil => intro a; rfl
  | cons x xs ih => intro a; simp [live, ih]

theorem le_fin (bs : List Blk) : ∀ a, a ≤ fin ov a bs := by
  induction bs with
  | nil => intro a; exact Nat.le_refl a
  | cons b bs ih => intro a; exact Nat.le_trans (by omega) (ih _)

theorem fin_eq (bs : List Blk) : ∀ a, fin ov a bs = a + (bs.map (ov + ·.size)).sum := by
  induction bs with
  | nil => intro a; rfl
  | cons b bs ih => intro a; simp only [fin_cons, ih, List.map_cons, List.sum_cons]; omega

theorem mem_addrs {x : Nat} {bs : List Blk} :
    ∀ {a}, x ∈ addrs ov a bs ↔ ∃ pre b post, bs = pre ++ b :: post ∧ x = fin ov a pre := by
  induction bs with
  | nil => intro a; simp
  | cons c bs ih =>
    intro a
    rw [addrs_cons, List.mem_cons, ih]
    constructor
    · rintro (rfl | ⟨pre, b, post, rfl, rfl⟩)
      · exact ⟨[], c, bs, rfl, rfl⟩
      · exact ⟨c :: pre, b, post, rfl, rfl⟩
    · rintro ⟨pre, b, post, h, rfl⟩
      cases pre with
      | nil => exact .inl rfl
      | cons d pre =>
        simp only [List.cons_append, List.cons.injEq] at h
        obtain ⟨rfl, rfl⟩ := h
        exact .inr ⟨pre, b, post, rfl, rfl⟩

theorem mem_live {x : Nat} {bs : List Blk} :
    ∀ {a}, x ∈ live ov a bs ↔
      ∃ pre b post, bs = pre ++ b :: post ∧ b.free = false ∧ x = fin ov a pre + ov := by
  induction bs with
  | nil => intro a; simp
  | cons c bs ih =>
    intro a
    rw [live, List.mem_append, ih]
    constructor
    · rintro (h | ⟨pre, b, post, rfl, hb, rfl⟩)
      · split at h
        · cases h
        · rename_i hc
          exact ⟨[], c, bs, rfl, by simpa using hc, List.mem_singleton.mp h⟩
      · exact ⟨c :: pre, b, post, rfl, hb, rfl⟩
    · rintro ⟨pre, b, post, h, hb, rfl⟩
      cases pre with
      | nil =>
        simp only [List.nil_append, List.cons.injEq] at h
        obtain ⟨rfl, rfl⟩ := h
        exact .inl (by simp [hb])
      | cons d pre =>
        simp only [List.cons_append, List.cons.injEq] at h
        obtain ⟨rfl, rfl⟩ := h
        exact .inr ⟨pre, b, post, rfl, hb, rfl⟩

theorem addrs_ge {x : Nat} {bs : List Blk} {a : Nat} (h : x ∈ addrs ov a bs) : a ≤ x := by
  obtain ⟨pre, b, post, _, rfl⟩ := (mem_addrs ov).mp h
  exact le_fin ov pre a

theorem addrs_lt {x : Nat} {bs : List Blk} {a : Nat} (h : x ∈ addrs ov a bs) : x + ov ≤ fin ov a bs := by
  obtain ⟨pre, b, post, rfl, rfl⟩ := (mem_addrs ov).mp h
  rw [fin_append, fin_cons]
  exact Nat.le_trans (by omega) (le_fin ov post _)

theorem nodup_addrs (hov : 0 < ov) (bs : List Blk) : ∀ a, (addrs ov a bs).Nodup := by
  induction bs with
  | nil => intro a; exact List.nodup_nil
  | cons b bs ih =>
    intro a
    refine List.nodup_cons.mpr ⟨fun hm => ?_, ih _⟩
    have := addrs_ge ov hm
    omega

theorem nodup_live (hov : 0 < ov) (bs : List Blk) : ∀ a, (live ov a bs).Nodup := by
  induction bs with
  | nil => intro a; exact List.nodup_nil
  | cons b bs ih =>
    intro a
    rw [live]
    split
    · exact ih _
    · refine List.nodup_cons.mpr ⟨fun hm => ?_, ih _⟩
      obtain ⟨pre, c, post, _, _, hx⟩ := (mem_live ov).mp hm
      have := le_fin ov pre (a + ov + b.size)
      omega

theorem length_addrs (bs : List Blk) : ∀ a, (addrs ov a bs).length = bs.length := by
  induction bs with
  | nil => intro a; rfl
  | cons b bs ih => intro a; simp [ih]

theorem length_le (bs : List Blk) : ∀ a, a + ov * bs.length ≤ fin ov a bs := by
  induction bs with
  | nil => intro a; simp
  | cons b bs ih =>
    intro a
    have := ih (a + ov + b.size)
    rw [fin_cons, List.length_cons, Nat.mul_succ]; omega

/-! ## Counting free bytes -/

@[simp] theorem freeBytes_nil : freeBytes [] = 0 := rfl

theorem freeBytes_cons (b : Blk) (bs : List Blk) :
    freeBytes (b :: bs) = (if b.free then b.size else 0) + freeBytes bs := by
  unfold freeBytes
  rw [List.filter_cons]
  split <;> simp [*]

theorem freeBytes_append (xs ys : List Blk) : freeBytes (xs ++ ys) = freeBytes xs + freeBytes ys := by
  simp [freeBytes]

theorem freeBytes_le (bs : List Blk) : ∀ a, a + freeBytes bs + ov * bs.length ≤ fin ov a bs := by
  induction bs with
  | nil => intro a; simp
  | cons b bs ih =>
    intro a
    have := ih (a + ov + b.size)
    rw [fin_cons, freeBytes_cons, List.length_cons, Nat.mul_succ]
    split <;> omega

/-! ## Two live payloads are apart -/

/-- Two blocks of one tiling are the same block, or one ends before the other
begins. -/
theorem block_apart {bs : List Blk} {a : Nat} {pre post pre' post' : List Blk} {b b' : Blk}
    (h : bs = pre ++ b :: post) (h' : bs = pre' ++ b' :: post') :
    (pre = pre' ∧ b = b' ∧ post = post') ∨ fin ov a pre + ov + b.size ≤ fin ov a pre' ∨
      fin ov a pre' + ov + b'.size ≤ fin ov a pre := by
  rw [h] at h'
  rcases List.append_eq_append_iff.mp h' with ⟨c, rfl, hc⟩ | ⟨c, rfl, hc⟩
  · cases c with
    | nil => simp_all
    | cons d c =>
      simp only [List.cons_append, List.cons.injEq] at hc
      obtain ⟨rfl, _⟩ := hc
      right; left
      rw [fin_append, fin_cons]
      exact le_fin ov c _
  · cases c with
    | nil => simp_all
    | cons d c =>
      simp only [List.cons_append, List.cons.injEq] at hc
      obtain ⟨rfl, _⟩ := hc
      right; right
      rw [fin_append, fin_cons]
      exact le_fin ov c _

/-! ## All free -/

/-- With no block in use and no two free neighbours there is at most one block. -/
theorem single_of_live_nil {bs : List Blk} {a : Nat} (hn : NoAdjFree bs) (hl : live ov a bs = []) :
    bs = [] ∨ ∃ n, bs = [⟨n, true⟩] := by
  cases bs with
  | nil => exact .inl rfl
  | cons b bs =>
    rw [live, List.append_eq_nil_iff] at hl
    obtain ⟨hb, hl⟩ := hl
    have hbf : b.free = true := by
      cases hf : b.free with
      | true => rfl
      | false => simp [hf] at hb
    cases bs with
    | nil =>
      obtain ⟨n, f⟩ := b
      cases hbf
      exact .inr ⟨n, rfl⟩
    | cons c bs =>
      rw [live, List.append_eq_nil_iff] at hl
      have hcf : c.free = true := by
        cases hf : c.free with
        | true => rfl
        | false => simp [hf] at hl
      exact absurd ⟨hbf, hcf⟩ (List.isChain_cons_cons.mp hn).1

end

/-! ## Free neighbours after a change in the middle -/

section
variable {pre post : List Blk}

theorem NoAdjFree.left {xs ys : List Blk} (h : NoAdjFree (xs ++ ys)) : NoAdjFree xs :=
  (List.isChain_append.mp h).1

theorem NoAdjFree.right {xs ys : List Blk} (h : NoAdjFree (xs ++ ys)) : NoAdjFree ys :=
  (List.isChain_append.mp h).2.1

/-- Two lists may be joined when their ends are not both free. -/
theorem noAdjFree_append {xs ys : List Blk} :
    NoAdjFree (xs ++ ys) ↔ NoAdjFree xs ∧ NoAdjFree ys ∧
      ∀ x ∈ xs.getLast?, ∀ y ∈ ys.head?, ¬(x.free = true ∧ y.free = true) :=
  List.isChain_append

theorem noAdjFree_cons {b : Blk} {bs : List Blk} :
    NoAdjFree (b :: bs) ↔ (∀ y ∈ bs.head?, ¬(b.free = true ∧ y.free = true)) ∧ NoAdjFree bs :=
  List.isChain_cons

/-- A used block may stand behind any list. -/
theorem noAdjFree_join {b c : Blk} (hl : NoAdjFree (pre ++ [b])) (hr : NoAdjFree (c :: post)) (hc : c.free = false) :
    NoAdjFree (pre ++ b :: c :: post) := by
  rw [noAdjFree_append] at hl ⊢
  refine ⟨hl.1, noAdjFree_cons.mpr ⟨by simp [hc], hr⟩, ?_⟩
  simpa using hl.2.2

/-- Two free blocks that fit their neighbours may be replaced by one. -/
theorem noAdjFree_mid {b c d : Blk} (hl : NoAdjFree (pre ++ [b])) (hr : NoAdjFree (c :: post)) (hb : b.free = true)
    (hc : c.free = true) (hd : d.free = true) : NoAdjFree (pre ++ d :: post) := by
  rw [noAdjFree_append] at hl ⊢
  rw [noAdjFree_cons] at hr
  refine ⟨hl.1, noAdjFree_cons.mpr ⟨by simpa [hc, hd] using hr.1, hr.2⟩, ?_⟩
  simpa [hb, hd] using hl.2.2

/-- Replacing a block by one that is used. -/
theorem noAdjFree_use {b c : Blk} (h : NoAdjFree (pre ++ b :: post)) (hc : c.free = false) :
    NoAdjFree (pre ++ c :: post) := by
  rw [noAdjFree_append] at h ⊢
  refine ⟨h.1, noAdjFree_cons.mpr ⟨by simp [hc], (noAdjFree_cons.mp h.2.1).2⟩, ?_⟩
  simp [hc]

/-- Cutting a free block into a used and a free one. -/
theorem noAdjFree_split {b c d : Blk} (h : NoAdjFree (pre ++ b :: post)) (hb : b.free = true) (hc : c.free = false) :
    NoAdjFree (pre ++ c :: d :: post) := by
  rw [noAdjFree_append] at h ⊢
  obtain ⟨hp, hm, _⟩ := h
  obtain ⟨hd, hpost⟩ := noAdjFree_cons.mp hm
  refine ⟨hp, noAdjFree_cons.mpr ⟨by simp [hc], noAdjFree_cons.mpr ⟨fun y hy hdy => ?_, hpost⟩⟩, by simp [hc]⟩
  exact hd y hy ⟨hb, hdy.2⟩

end

end Blocks
