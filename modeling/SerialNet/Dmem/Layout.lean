import SerialNet.Dmem.Pool
import SerialNet.Lib.Blocks
import SerialNet.Lib.Ring

/-!
# The headers in memory

`Layout` says that the memory holds exactly the headers of a list of blocks,
linked both ways and closed by the trailer.
-/

namespace SerialNet.Dmem

open Blocks Ring

section
variable (mem : Nat → DmHeader) (pool start top : Nat)

/-- The blocks `bs` from `a` on, after the header `prev`, up to the trailer at
`top`, which links back to `start`. -/
def Layout : Nat → Nat → List Blk → Prop
  | prev, a, [] => a = top ∧
      mem a = { nextMemory := start, previousMemory := prev, memoryFree := false, memoryPool := pool }
  | prev, a, b :: bs =>
      mem a = { nextMemory := a + dmOverhead + b.size, previousMemory := prev, memoryFree := b.free,
                memoryPool := pool } ∧
        Layout a (a + dmOverhead + b.size) bs

/-- The blocks `bs` from `a` on, whatever follows them. -/
def Seg : Nat → Nat → List Blk → Prop
  | _, _, [] => True
  | prev, a, b :: bs =>
      mem a = { nextMemory := a + dmOverhead + b.size, previousMemory := prev, memoryFree := b.free,
                memoryPool := pool } ∧
        Seg a (a + dmOverhead + b.size) bs

/-- The header before the address after `bs`. -/
def lastAddr : Nat → Nat → List Blk → Nat
  | prev, _, [] => prev
  | _, a, b :: bs => lastAddr a (a + dmOverhead + b.size) bs

end

theorem lastAddr_snoc (c : Blk) (bs : List Blk) : ∀ prev a, lastAddr prev a (bs ++ [c]) = fin dmOverhead a bs := by
  induction bs with
  | nil => intro prev a; rfl
  | cons b bs ih => intro prev a; simp [lastAddr, ih]

section
variable {mem mem' : Nat → DmHeader} {pool start top : Nat}

theorem layout_append {xs ys : List Blk} :
    ∀ {prev a}, Layout mem pool start top prev a (xs ++ ys) ↔
      Seg mem pool prev a xs ∧ Layout mem pool start top (lastAddr prev a xs) (fin dmOverhead a xs) ys := by
  induction xs with
  | nil => intro prev a; simp [Seg, lastAddr]
  | cons x xs ih => intro prev a; simp [Layout, Seg, lastAddr, ih, and_assoc]

theorem layout_fin {bs : List Blk} : ∀ {prev a}, Layout mem pool start top prev a bs → fin dmOverhead a bs = top := by
  induction bs with
  | nil => intro prev a h; exact h.1
  | cons b bs ih => intro prev a h; exact ih h.2

theorem layout_head {bs : List Blk} {prev a : Nat} (h : Layout mem pool start top prev a bs) :
    (mem a).previousMemory = prev ∧ (mem a).memoryPool = pool := by
  cases bs with
  | nil => rw [h.2]; exact ⟨rfl, rfl⟩
  | cons b bs => rw [h.1]; exact ⟨rfl, rfl⟩

theorem layout_trailer {bs : List Blk} :
    ∀ {prev a}, Layout mem pool start top prev a bs →
      (mem top).nextMemory = start ∧ (mem top).memoryFree = false := by
  induction bs with
  | nil =>
    intro prev a h
    obtain ⟨rfl, h⟩ := h
    rw [h]; exact ⟨rfl, rfl⟩
  | cons b bs ih => intro prev a h; exact ih h.2

theorem layout_mid {pre post : List Blk} {b : Blk} {prev a : Nat}
    (h : Layout mem pool start top prev a (pre ++ b :: post)) :
    mem (fin dmOverhead a pre) =
      { nextMemory := fin dmOverhead a pre + dmOverhead + b.size, previousMemory := lastAddr prev a pre
        memoryFree := b.free, memoryPool := pool } :=
  (layout_append.mp h).2.1

/-! ## Frames -/

theorem seg_frame {bs : List Blk} :
    ∀ {prev a}, Seg mem pool prev a bs → (∀ y ∈ addrs dmOverhead a bs, mem' y = mem y) → Seg mem' pool prev a bs := by
  induction bs with
  | nil => intro prev a _ _; trivial
  | cons b bs ih =>
    intro prev a h hf
    exact ⟨(hf a (by simp)).trans h.1, ih h.2 fun y hy => hf y (by simp [hy])⟩

theorem layout_frame {bs : List Blk} :
    ∀ {prev a}, Layout mem pool start top prev a bs → (∀ y, a ≤ y → mem' y = mem y) →
      Layout mem' pool start top prev a bs := by
  induction bs with
  | nil => intro prev a h hf; exact ⟨h.1, (hf a (Nat.le_refl a)).trans h.2⟩
  | cons b bs ih =>
    intro prev a h hf
    exact ⟨(hf a (Nat.le_refl a)).trans h.1, ih h.2 fun y hy => hf y (by omega)⟩

theorem layout_setPrevious {bs : List Blk} {prev q a : Nat} (h : Layout mem pool start top prev a bs)
    (ha : mem' a = { mem a with previousMemory := q }) (hf : ∀ y, a < y → mem' y = mem y) :
    Layout mem' pool start top q a bs := by
  cases bs with
  | nil => exact ⟨h.1, by rw [ha, h.2]⟩
  | cons b bs =>
    exact ⟨by rw [ha, h.1], layout_frame h.2 fun y hy => hf y (by unfold dmOverhead at hy; omega)⟩

/-- The headers before `x` are untouched by writes from `x` on. -/
theorem seg_frame_lt {bs : List Blk} {prev a : Nat} (h : Seg mem pool prev a bs)
    (hf : ∀ y, y < fin dmOverhead a bs → mem' y = mem y) : Seg mem' pool prev a bs := by
  refine seg_frame h fun y hy => hf y ?_
  have := addrs_lt dmOverhead hy
  unfold dmOverhead at *; omega

/-! ## Changes in the middle -/

theorem layout_replace {pre xs ys : List Blk} {prev a : Nat} (h : Layout mem pool start top prev a (pre ++ xs))
    (hf : ∀ y, y < fin dmOverhead a pre → mem' y = mem y)
    (h' : Layout mem' pool start top (lastAddr prev a pre) (fin dmOverhead a pre) ys) :
    Layout mem' pool start top prev a (pre ++ ys) :=
  layout_append.mpr ⟨seg_frame_lt (layout_append.mp h).1 hf, h'⟩

theorem layout_after {pre post : List Blk} {b : Blk} {prev a : Nat}
    (h : Layout mem pool start top prev a (pre ++ b :: post)) :
    Layout mem pool start top (fin dmOverhead a pre) (fin dmOverhead a pre + dmOverhead + b.size) post :=
  (layout_append.mp h).2.2

theorem layout_setFree {pre post : List Blk} {b : Blk} {v : Bool} {prev a : Nat}
    (h : Layout mem pool start top prev a (pre ++ b :: post))
    (hp : mem' (fin dmOverhead a pre) = { mem (fin dmOverhead a pre) with memoryFree := v })
    (hf : ∀ y, y ≠ fin dmOverhead a pre → mem' y = mem y) :
    Layout mem' pool start top prev a (pre ++ ⟨b.size, v⟩ :: post) := by
  have hov : dmOverhead = 16 := rfl
  have hafter := layout_after h
  exact layout_replace h (fun y hy => hf y (by omega))
    ⟨by rw [hp, layout_mid h], layout_frame hafter fun y hy => hf y (by omega)⟩

theorem layout_split {pre post : List Blk} {b : Blk} {v : Bool} {n prev a : Nat}
    (h : Layout mem pool start top prev a (pre ++ b :: post)) (hn : n + dmOverhead ≤ b.size)
    (hp : mem' (fin dmOverhead a pre) =
      { mem (fin dmOverhead a pre) with nextMemory := fin dmOverhead a pre + dmOverhead + n, memoryFree := v })
    (hnew : mem' (fin dmOverhead a pre + dmOverhead + n) =
      { nextMemory := fin dmOverhead a pre + dmOverhead + b.size, previousMemory := fin dmOverhead a pre
        memoryFree := true, memoryPool := pool })
    (hnext : mem' (fin dmOverhead a pre + dmOverhead + b.size) =
      { mem (fin dmOverhead a pre + dmOverhead + b.size) with
        previousMemory := fin dmOverhead a pre + dmOverhead + n })
    (hf : ∀ y, y ≠ fin dmOverhead a pre → y ≠ fin dmOverhead a pre + dmOverhead + n →
      y ≠ fin dmOverhead a pre + dmOverhead + b.size → mem' y = mem y) :
    Layout mem' pool start top prev a (pre ++ ⟨n, v⟩ :: ⟨b.size - n - dmOverhead, true⟩ :: post) := by
  have hov : dmOverhead = 16 := rfl
  have hend : fin dmOverhead a pre + dmOverhead + n + dmOverhead + (b.size - n - dmOverhead) =
      fin dmOverhead a pre + dmOverhead + b.size := by omega
  refine layout_replace h (fun y hy => hf y (by omega) (by omega) (by omega)) ⟨by rw [hp, layout_mid h], ?_, ?_⟩
  · simp only [hnew, hend]
  · simp only [hend]
    exact layout_setPrevious (layout_after h) hnext fun y hy => hf y (by omega) (by omega) (by omega)

theorem layout_merge {pre post : List Blk} {b c : Blk} {prev a : Nat}
    (h : Layout mem pool start top prev a (pre ++ b :: c :: post))
    (hp : mem' (fin dmOverhead a pre) =
      { mem (fin dmOverhead a pre) with
        nextMemory := fin dmOverhead a pre + dmOverhead + b.size + dmOverhead + c.size })
    (hnext : mem' (fin dmOverhead a pre + dmOverhead + b.size + dmOverhead + c.size) =
      { mem (fin dmOverhead a pre + dmOverhead + b.size + dmOverhead + c.size) with
        previousMemory := fin dmOverhead a pre })
    (hf : ∀ y, y ≠ fin dmOverhead a pre → y ≠ fin dmOverhead a pre + dmOverhead + b.size + dmOverhead + c.size →
      mem' y = mem y) :
    Layout mem' pool start top prev a (pre ++ ⟨b.size + dmOverhead + c.size, b.free⟩ :: post) := by
  have hov : dmOverhead = 16 := rfl
  have hend : fin dmOverhead a pre + dmOverhead + (b.size + dmOverhead + c.size) =
      fin dmOverhead a pre + dmOverhead + b.size + dmOverhead + c.size := by omega
  refine layout_replace h (fun y hy => hf y (by omega) (by omega)) ⟨by rw [hp, layout_mid h, hend], ?_⟩
  simp only [hend]
  exact layout_setPrevious (layout_after h).2 hnext fun y hy => hf y (by omega) (by omega)

/-! ## The search order -/

/-- Following the links from `a` visits the headers in order and returns to
`start`. -/
theorem layout_path {bs : List Blk} :
    ∀ {prev a}, Layout mem pool start top prev a bs →
      ∃ l, addrs dmOverhead a bs ++ [top] = a :: l ∧ Path (fun x => (mem x).nextMemory) a l start := by
  induction bs with
  | nil =>
    intro prev a h
    obtain ⟨rfl, h⟩ := h
    exact ⟨[], rfl, by rw [path_nil, h]⟩
  | cons b bs ih =>
    intro prev a h
    obtain ⟨l, hl, hp⟩ := ih h.2
    refine ⟨_, by rw [addrs_cons, List.cons_append, hl], ?_⟩
    rw [path_cons, h.1]
    exact ⟨rfl, hp⟩

end

end SerialNet.Dmem
