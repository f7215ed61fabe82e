import SerialNet.Lib.Blocks

/-!
# Headers of a tiling, linked both ways

Every block of a tiling carries a header at its address: the address of the next
block, that of the one before it, and whether the block is free. `Linked` says
that a memory of headers holds those of a list of blocks. A change of the
memory is described by what it does at and beside the block it is about, so
headers may overlap what used to be payload.
-/

namespace Blocks

structure Header where
  next : Nat
  prev : Nat
  free : Bool
  deriving DecidableEq, Repr

section
variable (ov : Nat) (hdr : Nat → Header)

/-- The headers of the blocks `bs` from `a` on, after the header `p`. -/
def Linked : Nat → Nat → List Blk → Prop
  | _, _, [] => True
  | p, a, b :: bs => hdr a = ⟨a + ov + b.size, p, b.free⟩ ∧ Linked a (a + ov + b.size) bs

/-- The header before the address after `bs`. -/
def before : Nat → Nat → List Blk → Nat
  | p, _, [] => p
  | _, a, b :: bs => before a (a + ov + b.size) bs

/-- The address of the first free block, or the one after the blocks. -/
def firstFree : Nat → List Blk → Nat
  | a, [] => a
  | a, b :: bs => if b.free then a else firstFree (a + ov + b.size) bs

@[simp] theorem linked_nil (p a : Nat) : Linked ov hdr p a [] := trivial

@[simp] theorem linked_cons (p a : Nat) (b : Blk) (bs : List Blk) :
    Linked ov hdr p a (b :: bs) ↔ hdr a = ⟨a + ov + b.size, p, b.free⟩ ∧ Linked ov hdr a (a + ov + b.size) bs := Iff.rfl

@[simp] theorem before_nil (p a : Nat) : before ov p a [] = p := rfl
@[simp] theorem before_cons (p a : Nat) (b : Blk) (bs : List Blk) :
    before ov p a (b :: bs) = before ov a (a + ov + b.size) bs := rfl

theorem before_snoc (c : Blk) (bs : List Blk) : ∀ p a, before ov p a (bs ++ [c]) = fin ov a bs := by
  induction bs with
  | nil => intro p a; rfl
  | cons b bs ih => intro p a; simp [ih]

end

section
variable {ov : Nat} {hdr hdr' : Nat → Header} {pre post xs ys : List Blk} {b c : Blk} {p a : Nat}

theorem linked_append :
    ∀ {p a}, Linked ov hdr p a (xs ++ ys) ↔
      Linked ov hdr p a xs ∧ Linked ov hdr (before ov p a xs) (fin ov a xs) ys := by
  induction xs with
  | nil => intro p a; simp
  | cons x xs ih => intro p a; simp [ih, and_assoc]

theorem linked_mid (h : Linked ov hdr p a (pre ++ b :: post)) :
    hdr (fin ov a pre) = ⟨fin ov a pre + ov + b.size, before ov p a pre, b.free⟩ := (linked_append.mp h).2.1

theorem linked_after (h : Linked ov hdr p a (pre ++ b :: post)) :
    Linked ov hdr (fin ov a pre) (fin ov a pre + ov + b.size) post := (linked_append.mp h).2.2

theorem linked_frame : ∀ {p a}, Linked ov hdr p a xs → (∀ y ∈ addrs ov a xs, hdr' y = hdr y) → Linked ov hdr' p a xs := by
  induction xs with
  | nil => intro p a _ _; trivial
  | cons x xs ih =>
    intro p a h hf
    exact ⟨(hf a (by simp)).trans h.1, ih h.2 fun y hy => hf y (by simp [hy])⟩

/-- Headers that end before the change stay. -/
theorem linked_below (h : Linked ov hdr p a xs) (hf : ∀ y, y + ov ≤ fin ov a xs → hdr' y = hdr y) :
    Linked ov hdr' p a xs :=
  linked_frame h fun y hy => hf y (addrs_lt ov hy)

/-- After the change the first header gets another predecessor and the others stay. -/
theorem linked_above (h : Linked ov hdr p a xs) {q : Nat}
    (ha : xs ≠ [] → hdr' a = { hdr a with prev := q }) (hf : ∀ y, a + ov ≤ y → hdr' y = hdr y) :
    Linked ov hdr' q a xs := by
  cases xs with
  | nil => trivial
  | cons x xs =>
    refine ⟨by rw [ha (by simp), h.1], linked_frame h.2 fun y hy => hf y ?_⟩
    have := addrs_ge ov hy
    omega

theorem linked_prev (h : Linked ov hdr p a xs) (hne : xs ≠ []) : { hdr a with prev := p } = hdr a := by
  cases xs with
  | nil => exact absurd rfl hne
  | cons x xs => rw [h.1]

/-- The blocks `xs` in the middle become `ys`, over the same range. -/
theorem linked_replace (h : Linked ov hdr p a (pre ++ (xs ++ post)))
    (hfin : fin ov (fin ov a pre) ys = fin ov (fin ov a pre) xs)
    (hmid : Linked ov hdr' (before ov p a pre) (fin ov a pre) ys)
    (hnext : post ≠ [] → hdr' (fin ov (fin ov a pre) xs) =
      { hdr (fin ov (fin ov a pre) xs) with prev := before ov (before ov p a pre) (fin ov a pre) ys })
    (hbelow : ∀ y, y + ov ≤ fin ov a pre → hdr' y = hdr y)
    (habove : ∀ y, fin ov (fin ov a pre) xs + ov ≤ y → hdr' y = hdr y) :
    Linked ov hdr' p a (pre ++ (ys ++ post)) := by
  obtain ⟨hpre, hrest⟩ := linked_append.mp h
  refine linked_append.mpr ⟨linked_below hpre hbelow, linked_append.mpr ⟨hmid, ?_⟩⟩
  rw [hfin]
  exact linked_above (linked_append.mp hrest).2 hnext habove

theorem linked_mark {v : Bool} (h : Linked ov hdr p a (pre ++ b :: post))
    (hb : hdr' (fin ov a pre) = { hdr (fin ov a pre) with free := v })
    (hbelow : ∀ y, y + ov ≤ fin ov a pre → hdr' y = hdr y)
    (habove : ∀ y, fin ov a pre + ov ≤ y → hdr' y = hdr y) :
    Linked ov hdr' p a (pre ++ ⟨b.size, v⟩ :: post) := by
  have hmid := linked_mid h
  have hafter := linked_after h
  have h : Linked ov hdr p a (pre ++ ([b] ++ post)) := h
  show Linked ov hdr' p a (pre ++ ([⟨b.size, v⟩] ++ post))
  apply linked_replace h
  · rfl
  · exact ⟨by rw [hb, hmid], trivial⟩
  · intro hne
    rw [habove _ (by simp)]
    exact (linked_prev hafter hne).symm
  · exact hbelow
  · intro y hy
    apply habove
    simp at hy
    omega

/-! ## The lowest free block -/

theorem le_firstFree : ∀ a, a ≤ firstFree ov a xs := by
  induction xs with
  | nil => intro a; exact Nat.le_refl a
  | cons x xs ih =>
    intro a
    unfold firstFree
    split
    · exact Nat.le_refl a
    · exact Nat.le_trans (by omega) (ih _)

theorem firstFree_le : ∀ a, firstFree ov a xs ≤ fin ov a xs := by
  induction xs with
  | nil => intro a; exact Nat.le_refl a
  | cons x xs ih =>
    intro a
    unfold firstFree
    split
    · exact Nat.le_trans (by omega) (le_fin ov xs _)
    · exact ih _

theorem firstFree_used (h : ∀ x ∈ xs, x.free = false) : ∀ a, firstFree ov a (xs ++ ys) = firstFree ov (fin ov a xs) ys := by
  induction xs with
  | nil => intro a; rfl
  | cons x xs ih =>
    intro a
    have hx : x.free = false := h x (by simp)
    rw [List.cons_append, firstFree, hx, if_neg Bool.false_ne_true]
    exact ih (fun y hy => h y (by simp [hy])) _

theorem firstFree_split (ov : Nat) (bs : List Blk) :
    ∀ a, ∃ xs ys, bs = xs ++ ys ∧ (∀ x ∈ xs, x.free = false) ∧ firstFree ov a bs = fin ov a xs := by
  induction bs with
  | nil => exact fun a => ⟨[], [], rfl, by simp, rfl⟩
  | cons b bs ih =>
    intro a
    cases hb : b.free with
    | true => exact ⟨[], b :: bs, rfl, by simp, by rw [firstFree, hb]; rfl⟩
    | false =>
      obtain ⟨xs, ys, rfl, hused, hfirst⟩ := ih (a + ov + b.size)
      refine ⟨b :: xs, ys, rfl, List.forall_mem_cons.mpr ⟨hb, hused⟩, ?_⟩
      rw [firstFree, hb, if_neg Bool.false_ne_true, hfirst, fin_cons]

theorem firstFree_front (h : ∃ x ∈ xs, x.free = true) :
    ∀ a, firstFree ov a (xs ++ ys) = firstFree ov a xs ∧ firstFree ov a xs + ov ≤ fin ov a xs := by
  induction xs with
  | nil => simp at h
  | cons x xs ih =>
    intro a
    rw [List.cons_append, firstFree, firstFree, fin_cons]
    split
    · exact ⟨rfl, Nat.le_trans (by omega) (le_fin ov xs _)⟩
    · next hx =>
      obtain ⟨y, hy, hfree⟩ := h
      have hy : y ∈ xs := (List.mem_cons.mp hy).resolve_left fun e => hx (e ▸ hfree)
      exact ih ⟨y, hy, hfree⟩ _

theorem used_or_free (xs : List Blk) : (∀ x ∈ xs, x.free = false) ∨ ∃ x ∈ xs, x.free = true := by
  by_cases h : ∃ x ∈ xs, x.free = true
  · exact .inr h
  · refine .inl fun x hx => ?_
    cases hf : x.free with
    | false => rfl
    | true => exact absurd ⟨x, hx, hf⟩ h

/-- Where a free block starts, what follows it does not matter. -/
theorem firstFree_at (hb : b.free = true) (hc : c.free = true) :
    firstFree ov a (pre ++ b :: xs) = firstFree ov a (pre ++ c :: ys) := by
  rcases used_or_free pre with h | h
  · rw [firstFree_used h, firstFree_used h, firstFree, firstFree, hb, hc]
    rfl
  · rw [(firstFree_front h a).1, (firstFree_front h a).1]

/-- Free blocks `xs` in front may have joined. -/
theorem firstFree_join (hx : ∀ x ∈ xs, x.free = true) (hb : b.free = true) (hc : c.free = true) :
    firstFree ov a ((pre ++ xs) ++ b :: post) = firstFree ov a (pre ++ c :: ys) := by
  rw [List.append_assoc]
  cases xs with
  | nil => exact firstFree_at hb hc
  | cons x xs => exact firstFree_at (hx x (by simp)) hc

theorem firstFree_le_at (hb : b.free = true) : firstFree ov a (pre ++ b :: xs) ≤ fin ov a pre := by
  rcases used_or_free pre with h | h
  · rw [firstFree_used h, firstFree, hb]
    exact Nat.le_refl _
  · rw [(firstFree_front h a).1]
    exact firstFree_le a

/-! ## Blocks in the middle -/

/-- Where a block of `pre ++ (xs ++ post)` lies. -/
theorem mid_cases {l r : List Blk} (h : pre ++ (xs ++ post) = l ++ b :: r) :
    (∃ m, pre = l ++ b :: m ∧ r = m ++ (xs ++ post)) ∨ (∃ m m', xs = m ++ b :: m' ∧ l = pre ++ m ∧ r = m' ++ post) ∨
      ∃ m, post = m ++ b :: r ∧ l = pre ++ (xs ++ m) := by
  rcases List.append_eq_append_iff.mp h with ⟨m, rfl, hm⟩ | ⟨m, rfl, hm⟩
  · rcases List.append_eq_append_iff.mp hm with ⟨m', rfl, hm'⟩ | ⟨m', rfl, hm'⟩
    · exact .inr (.inr ⟨m', hm', rfl⟩)
    · cases m' with
      | nil => exact .inr (.inr ⟨[], by simpa using hm'.symm, by simp⟩)
      | cons c m' =>
        obtain ⟨rfl, rfl⟩ := List.cons.inj hm'
        exact .inr (.inl ⟨m, m', rfl, rfl, rfl⟩)
  · cases m with
    | nil =>
      cases xs with
      | nil => exact .inr (.inr ⟨[], by simpa using hm.symm, by simp⟩)
      | cons c xs =>
        obtain ⟨rfl, rfl⟩ := List.cons.inj hm
        exact .inr (.inl ⟨[], xs, rfl, by simp, rfl⟩)
    | cons c m =>
      obtain ⟨rfl, rfl⟩ := List.cons.inj hm
      exact .inl ⟨m, rfl, rfl⟩

theorem live_free (h : ∀ x ∈ xs, x.free = true) : ∀ a, live ov a xs = [] := by
  induction xs with
  | nil => intro a; rfl
  | cons x xs ih =>
    intro a
    rw [live, h x (by simp), if_pos rfl, ih fun y hy => h y (by simp [hy])]
    rfl

/-- One used block among free ones. -/
theorem live_single {l r : List Blk} (hl : ∀ x ∈ l, x.free = true) (hb : b.free = false)
    (hr : ∀ x ∈ r, x.free = true) : live ov a (l ++ b :: r) = [fin ov a l + ov] := by
  rw [live_append, live_free hl, live, hb, live_free hr]
  rfl

/-- The live payloads when the blocks `xs` in the middle become `ys`. -/
theorem mem_live_mid {x : Nat} (hfin : fin ov (fin ov a pre) ys = fin ov (fin ov a pre) xs) :
    (x ∈ live ov a (pre ++ (ys ++ post)) ↔
      x ∈ live ov a pre ∨ x ∈ live ov (fin ov a pre) ys ∨ x ∈ live ov (fin ov (fin ov a pre) xs) post) := by
  rw [live_append, live_append, hfin]
  simp

/-! ## First fit -/

/-- The address of the lowest free block of at least `size` bytes. -/
def firstFit (ov size : Nat) : Nat → List Blk → Option Nat
  | _, [] => none
  | a, b :: bs => if b.free = true ∧ size ≤ b.size then some a else firstFit ov size (a + ov + b.size) bs

theorem firstFit_none {size : Nat} : ∀ {a}, firstFit ov size a xs = none ↔ ∀ x ∈ xs, x.free = true → x.size < size := by
  induction xs with
  | nil => intro a; simp [firstFit]
  | cons x xs ih =>
    intro a
    unfold firstFit
    split
    · next h =>
      refine iff_of_false (by simp) fun hall => ?_
      have := hall x (by simp) h.1
      omega
    · next h =>
      rw [ih, List.forall_mem_cons]
      refine (and_iff_right fun hf => ?_).symm
      have := not_and.mp h hf
      omega

theorem firstFit_some {size x : Nat} :
    ∀ {a}, firstFit ov size a xs = some x →
      ∃ pre b post, xs = pre ++ b :: post ∧ x = fin ov a pre ∧ b.free = true ∧ size ≤ b.size ∧
        ∀ c ∈ pre, c.free = true → c.size < size := by
  induction xs with
  | nil => intro a h; cases h
  | cons y ys ih =>
    intro a h
    unfold firstFit at h
    split at h
    · next hy =>
      cases h
      exact ⟨[], y, ys, rfl, rfl, hy.1, hy.2, by simp⟩
    · next hy =>
      obtain ⟨pre, b, post, rfl, rfl, hb, hs, hpre⟩ := ih h
      refine ⟨y :: pre, b, post, rfl, rfl, hb, hs, ?_⟩
      rw [List.forall_mem_cons]
      refine ⟨fun hf => ?_, hpre⟩
      have := not_and.mp hy hf
      omega

theorem firstFit_used {size : Nat} (h : ∀ x ∈ xs, x.free = false) :
    ∀ a, firstFit ov size a (xs ++ ys) = firstFit ov size (fin ov a xs) ys := by
  induction xs with
  | nil => intro a; rfl
  | cons x xs ih =>
    intro a
    have hx : x.free = false := h x (by simp)
    rw [List.cons_append, firstFit, hx, if_neg (by simp)]
    exact ih (fun y hy => h y (by simp [hy])) _

end

end Blocks
