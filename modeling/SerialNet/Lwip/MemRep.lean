import SerialNet.Lwip.Mem

/-!
# The heap as a tiling

`Tiles h bs` says that the bytes hold the headers of the blocks `bs`, one after
the other up to `ram_end`. Each call replaces a few neighbouring blocks.
-/

namespace SerialNet.Mem

open Blocks

structure Tiles (h : Heap) (bs : List Blk) : Prop where
  linked : Linked 8 h.header 0 0 bs
  ends : fin 8 0 bs = 8192
  endUsed : (h.header 8192).free = false
  sizes : ∀ b ∈ bs, b.size % 4 = 0 ∧ 12 ≤ b.size

/-- No two free neighbours, and `lfree` is the lowest free block. -/
structure Rep (h : Heap) (bs : List Blk) : Prop extends Tiles h bs where
  noAdjFree : NoAdjFree bs
  lfree : h.lfree = firstFree 8 0 bs

section
variable {h h' : Heap} {bs pre post xs ys : List Blk} {b c : Blk}

/-! ## Where things are -/

theorem Tiles.fin_mid (ht : Tiles h (pre ++ (xs ++ post))) : fin 8 (fin 8 (fin 8 0 pre) xs) post = 8192 := by
  have hfin := ht.ends
  rwa [fin_append, fin_append] at hfin

theorem Tiles.mid_le (ht : Tiles h (pre ++ (xs ++ post))) : fin 8 (fin 8 0 pre) xs ≤ 8192 := by
  rw [← ht.fin_mid]
  exact le_fin ..

/-- A block behind leaves room for its header and payload. -/
theorem Tiles.mid_lt (ht : Tiles h (pre ++ (xs ++ post))) (hne : post ≠ []) :
    fin 8 (fin 8 0 pre) xs + 20 ≤ 8192 := by
  cases post with
  | nil => exact absurd rfl hne
  | cons d post =>
    have hd := (ht.sizes d (by simp)).2
    have hfin := ht.fin_mid
    rw [fin_cons] at hfin
    have := le_fin 8 post (fin 8 (fin 8 0 pre) xs + 8 + d.size)
    omega

theorem Tiles.mid_nil (ht : Tiles h (pre ++ (xs ++ []))) : fin 8 (fin 8 0 pre) xs = 8192 := ht.fin_mid

theorem Tiles.replace (ht : Tiles h (pre ++ (xs ++ post)))
    (hfin : fin 8 (fin 8 0 pre) ys = fin 8 (fin 8 0 pre) xs)
    (hmid : Linked 8 h'.header (before 8 0 0 pre) (fin 8 0 pre) ys)
    (hnext : post ≠ [] → h'.header (fin 8 (fin 8 0 pre) xs) =
      { h.header (fin 8 (fin 8 0 pre) xs) with
        prev := before 8 (before 8 0 0 pre) (fin 8 0 pre) ys })
    (hend : post = [] → (h'.header (fin 8 (fin 8 0 pre) xs)).free =
      (h.header (fin 8 (fin 8 0 pre) xs)).free)
    (hbelow : ∀ y, y + 8 ≤ fin 8 0 pre → h'.header y = h.header y)
    (habove : ∀ y, fin 8 (fin 8 0 pre) xs + 8 ≤ y → h'.header y = h.header y)
    (hsizes : ∀ d ∈ ys, d.size % 4 = 0 ∧ 12 ≤ d.size) : Tiles h' (pre ++ (ys ++ post)) where
  linked := linked_replace ht.linked hfin hmid hnext hbelow habove
  ends := by rw [fin_append, fin_append, hfin, ht.fin_mid]
  endUsed := by
    rcases eq_or_ne post [] with rfl | hne
    · have hlast := hend rfl
      rw [ht.mid_nil] at hlast
      rw [hlast]
      exact ht.endUsed
    · have hlt := ht.mid_lt hne
      rw [habove 8192 (by omega)]
      exact ht.endUsed
  sizes := by
    intro d hd
    have hold := ht.sizes d
    simp only [List.mem_append] at hd hold
    rcases hd with hd | hd | hd
    · exact hold (.inl hd)
    · exact hsizes d hd
    · exact hold (.inr (.inr hd))

theorem Tiles.mid (ht : Tiles h (pre ++ (b :: post))) :
    h.header (fin 8 0 pre) = ⟨fin 8 0 pre + 8 + b.size, before 8 0 0 pre, b.free⟩ := linked_mid ht.linked

theorem Tiles.next (ht : Tiles h (pre ++ (b :: post))) : h.next (fin 8 0 pre) = fin 8 0 pre + 8 + b.size := by
  rw [next_eq, ht.mid]

theorem Tiles.block_le (ht : Tiles h (pre ++ (b :: post))) : fin 8 0 pre + 8 + b.size ≤ 8192 := by
  have hle := ht.ends
  rw [fin_append, fin_cons] at hle
  rw [← hle]
  exact le_fin ..

theorem Tiles.after (ht : Tiles h (pre ++ (b :: post))) :
    (h.header (fin 8 0 pre + 8 + b.size)).free = (post.head?.map (·.free)).getD false := by
  cases post with
  | nil =>
    have hfin := ht.ends
    rw [fin_append, fin_cons, fin_nil] at hfin
    rw [hfin]
    exact ht.endUsed
  | cons c post =>
    have hc := (linked_after ht.linked).1
    rw [hc]
    rfl

theorem Tiles.userSize (ht : Tiles h (pre ++ (b :: post))) : userSize h (fin 8 0 pre) = b.size := by
  have hle := ht.block_le
  have hov : sizeofStructMem = 8 := rfl
  unfold Mem.userSize
  rw [ht.next, hov]
  omega

/-! ## Marking a block -/

theorem Tiles.mark (ht : Tiles h (pre ++ (b :: post))) (u : UInt8) :
    Tiles (h.setUsed (fin 8 0 pre) u) (pre ++ (⟨b.size, u == 0⟩ :: post)) where
  linked := by
    apply linked_mark ht.linked
    · exact header_setUsed
    · exact fun y hy => header_setUsed_apart (.inr hy)
    · exact fun y hy => header_setUsed_apart (.inl hy)
  ends := by
    have hfin := ht.ends
    rwa [fin_append, fin_cons] at hfin ⊢
  endUsed := by
    have hle := ht.block_le
    rw [header_setUsed_apart (.inl (by omega))]
    exact ht.endUsed
  sizes := by
    intro d hd
    rcases List.mem_append.mp hd with hd | hd
    · exact ht.sizes d (by simp [hd])
    · rcases List.mem_cons.mp hd with rfl | hd
      · exact ht.sizes b (by simp)
      · exact ht.sizes d (by simp [hd])

/-! ## Joining two free neighbours -/

/-- The struct at `p` runs up to `r`, which learns its predecessor. -/
theorem header_join {p r : Nat} (hpr : p + 8 ≤ r) (hr : r < 65536) :
    ((h.setNext p r).setPrev r p).header p = { h.header p with next := r } ∧
      ((h.setNext p r).setPrev r p).header r = { h.header r with prev := p } ∧
      ∀ y, y + 8 ≤ p ∨ r + 8 ≤ y → ((h.setNext p r).setPrev r p).header y = h.header y := by
  refine ⟨?_, ?_, fun y hy => ?_⟩
  · rw [header_setPrev_apart (.inr hpr), header_setNext, Nat.mod_eq_of_lt hr]
  · rw [header_setPrev, header_setNext_apart (.inl hpr), Nat.mod_eq_of_lt (by omega)]
  · rw [header_setPrev_apart, header_setNext_apart]
    · unfold Apart; omega
    · unfold Apart; omega

theorem Tiles.absorb (ht : Tiles h (pre ++ (b :: c :: post))) (hb : b.free = true) :
    Tiles (absorb h (fin 8 0 pre) (fin 8 0 pre + 8 + b.size))
      (pre ++ (⟨b.size + 8 + c.size, true⟩ :: post)) := by
  have ht' : Tiles h ((pre ++ [b]) ++ (c :: post)) := by simpa using ht
  have hbsize := ht.sizes b (by simp)
  have hcsize := ht.sizes c (by simp)
  have hfin : fin 8 0 (pre ++ [b]) = fin 8 0 pre + 8 + b.size := by rw [fin_append]; rfl
  have hle := ht'.block_le
  have hnext := ht'.next
  have hmid := ht.mid
  rw [hfin] at hle hnext
  have hq : (h.setNext (fin 8 0 pre) (h.next (fin 8 0 pre + 8 + b.size))).next
      (fin 8 0 pre + 8 + b.size) = fin 8 0 pre + 8 + b.size + 8 + c.size := by
    rw [next_eq, header_setNext_apart (.inl (by omega)), ← next_eq, hnext]
  obtain ⟨h1, h2, h3⟩ := header_join (h := h) (p := fin 8 0 pre) (r := fin 8 0 pre + 8 + b.size + 8 + c.size)
    (by omega) (by omega)
  unfold Mem.absorb
  dsimp only
  rw [hq, hnext]
  have ht : Tiles h (pre ++ ([b, c] ++ post)) := ht
  show Tiles _ (pre ++ ([⟨b.size + 8 + c.size, true⟩] ++ post))
  apply Tiles.replace ht
  · simp only [fin_cons, fin_nil]
    omega
  · refine ⟨?_, trivial⟩
    rw [h1, hmid, hb]
    simp only [Header.mk.injEq, and_true]
    omega
  · exact fun _ => h2
  · exact fun _ => by rw [fin_cons, fin_cons, fin_nil, h2]
  · exact fun y hy => h3 y (.inl hy)
  · exact fun y hy => h3 y (.inr hy)
  · intro d hd
    rw [List.mem_singleton.mp hd]
    dsimp only
    omega

/-! ## Cutting a range into a used and a free block -/

theorem linkBack_tiles {n r : Nat} (ht : Tiles h (pre ++ (xs ++ post)))
    (hr : fin 8 (fin 8 0 pre) xs = r) (hn : n % 4 = 0 ∧ 12 ≤ n)
    (hroom : fin 8 0 pre + 8 + n + 20 ≤ r) (hal : r % 4 = 0) (hpal : fin 8 0 pre % 4 = 0)
    (hp : h'.header (fin 8 0 pre) = ⟨fin 8 0 pre + 8 + n, before 8 0 0 pre, false⟩)
    (hm : h'.header (fin 8 0 pre + 8 + n) = ⟨r, fin 8 0 pre, true⟩)
    (hrest : ∀ y, y + 8 ≤ fin 8 0 pre ∨ fin 8 0 pre + 8 + n + 8 ≤ y → h'.header y = h.header y) :
    Tiles (linkBack h' (fin 8 0 pre + 8 + n))
      (pre ++ ([⟨n, false⟩, ⟨r - (fin 8 0 pre + 8 + n) - 8, true⟩] ++ post)) := by
  have hle := ht.mid_le
  have hlt := ht.mid_lt
  rw [hr] at hle hlt
  have hnext : h'.next (fin 8 0 pre + 8 + n) = r := by rw [next_eq, hm]
  have hlink : ∀ y, y + 8 ≤ r ∨ r + 8 ≤ y → (linkBack h' (fin 8 0 pre + 8 + n)).header y = h'.header y := by
    intro y hy
    unfold linkBack
    rw [hnext]
    split
    · exact header_setPrev_apart hy.symm
    · rfl
  apply Tiles.replace ht
  · rw [hr]
    simp only [fin_cons, fin_nil]
    omega
  · refine ⟨?_, ?_, trivial⟩
    · rw [hlink _ (.inl (by omega)), hp]
    · dsimp only
      rw [hlink _ (.inl (by omega)), hm]
      simp only [Header.mk.injEq, and_true]
      omega
  · -- `ram_end` is the only struct that does not learn about the new one
    intro hne
    have hlt := hlt hne
    rw [hr]
    unfold linkBack
    rw [hnext, if_pos (show r ≠ memSizeAligned from Nat.ne_of_lt (show r < 8192 by omega)), header_setPrev,
      hrest r (.inr (by omega)), Nat.mod_eq_of_lt (by omega)]
    rfl
  · intro hnil
    subst hnil
    have hend := ht.mid_nil
    rw [hr] at hend ⊢
    unfold linkBack
    rw [hnext, if_neg (show ¬r ≠ memSizeAligned from not_not.mpr hend), hrest r (.inr (by omega))]
  · intro y hy
    rw [hlink y (.inl (by omega)), hrest y (.inl hy)]
  · intro y hy
    rw [hr] at hy
    rw [hlink y (.inr hy), hrest y (.inr (by omega))]
  · intro d hd
    simp only [List.mem_cons, List.not_mem_nil, or_false] at hd
    rcases hd with rfl | rfl
    · exact hn
    · dsimp only
      omega

end

end SerialNet.Mem
