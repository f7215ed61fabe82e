import SerialNet.Dmem.Layout

/-!
# A pool and its blocks

`PoolRep h pool bs` ties the pool control block and the memory to a list of
blocks. The search of `OS_GetMem` walks once around the ring of headers.
-/

namespace SerialNet.Dmem

open Blocks Ring

/-! ## The pool and its blocks -/

structure PoolParams (p : DmPcb) : Prop where
  list : p.memoryList = p.startAddress
  start_aligned : p.startAddress % 4 = 0
  size_aligned : p.poolSize % 4 = 0
  min_aligned : p.minAllocation % 4 = 0
  room : 2 * dmOverhead + p.minAllocation ≤ p.poolSize
  fits : p.startAddress + p.poolSize ≤ 2 ^ 32

structure SamePool (p q : DmPcb) : Prop where
  start : q.startAddress = p.startAddress
  size : q.poolSize = p.poolSize
  min : q.minAllocation = p.minAllocation
  list : q.memoryList = p.memoryList

theorem SamePool.trans {p q r : DmPcb} (h : SamePool p q) (h' : SamePool q r) : SamePool p r :=
  ⟨h'.start.trans h.start, h'.size.trans h.size, h'.min.trans h.min, h'.list.trans h.list⟩

def trailer (p : DmPcb) : Nat := p.startAddress + p.poolSize - dmOverhead

def headers (p : DmPcb) (bs : List Blk) : List Nat := addrs dmOverhead p.startAddress bs ++ [trailer p]

structure PoolRep (h : Heap) (pool : Nat) (bs : List Blk) : Prop where
  params : PoolParams (h.pools pool)
  layout : Layout h.mem pool (h.pools pool).startAddress (trailer (h.pools pool)) (trailer (h.pools pool))
    (h.pools pool).startAddress bs
  available : (h.pools pool).available = freeBytes bs
  search : (h.pools pool).searchPtr ∈ headers (h.pools pool) bs
  aligned : ∀ b ∈ bs, b.size % 4 = 0

section
variable {h : Heap} {pool : Nat} {bs pre post : List Blk} {b : Blk}

theorem PoolRep.fin_eq (hr : PoolRep h pool bs) :
    fin dmOverhead (h.pools pool).startAddress bs = trailer (h.pools pool) := layout_fin hr.layout

theorem mem_headers {p : DmPcb} {x : Nat} :
    x ∈ headers p bs ↔ (∃ pre b post, bs = pre ++ b :: post ∧ x = fin dmOverhead p.startAddress pre) ∨ x = trailer p := by
  rw [headers, List.mem_append, mem_addrs, List.mem_singleton]

theorem links_inverse {x : Nat} (hr : PoolRep h pool bs) (hx : x ∈ headers (h.pools pool) bs) :
    (h.mem (h.mem x).nextMemory).previousMemory = x ∧ (h.mem (h.mem x).previousMemory).nextMemory = x := by
  have hov : dmOverhead = 16 := rfl
  obtain ⟨pre, b, post, rfl, rfl⟩ | rfl := mem_headers.mp hx
  · have hmid := layout_mid hr.layout
    refine ⟨by rw [hmid]; exact (layout_head (layout_after hr.layout)).1, ?_⟩
    rw [hmid]
    rcases List.eq_nil_or_concat pre with rfl | ⟨pre, c, rfl⟩
    · exact (layout_trailer hr.layout).1
    · have hl := hr.layout
      simp only [List.concat_eq_append, List.append_assoc, List.singleton_append, lastAddr_snoc] at hl ⊢
      rw [layout_mid hl, fin_append]; rfl
  · -- a pool has at least one block, so the trailer has a predecessor
    have hnil : bs ≠ [] := fun e => by
      have hfin := hr.fin_eq
      have hroom := hr.params.room
      rw [e, fin_nil] at hfin
      unfold trailer at hfin
      omega
    refine ⟨by rw [(layout_trailer hr.layout).1]; exact (layout_head hr.layout).1, ?_⟩
    obtain ⟨pre, b, rfl⟩ := (List.eq_nil_or_concat bs).resolve_left hnil
    rw [List.concat_eq_append] at hr
    have hfin := hr.fin_eq
    rw [fin_append, fin_cons, fin_nil] at hfin
    have hlast := layout_head (layout_after hr.layout)
    rw [hfin] at hlast
    rw [hlast.1, layout_mid hr.layout, hfin]

theorem headers_nodup (hr : PoolRep h pool bs) : (headers (h.pools pool) bs).Nodup := by
  unfold headers
  rw [List.nodup_append]
  refine ⟨nodup_addrs dmOverhead (by decide) bs _, List.nodup_singleton _, fun x hx y hy => ?_⟩
  have := addrs_lt dmOverhead hx
  rw [layout_fin hr.layout, ← List.mem_singleton.mp hy] at this
  unfold dmOverhead at this; omega

/-- The end of a block is below the trailer's address. -/
theorem block_end_le (hr : PoolRep h pool (pre ++ b :: post)) :
    fin dmOverhead (h.pools pool).startAddress pre + dmOverhead + b.size ≤ trailer (h.pools pool) := by
  rw [← hr.fin_eq, fin_append, fin_cons]
  exact le_fin ..

theorem trailer_lt (hp : PoolParams (h.pools pool)) : trailer (h.pools pool) + dmOverhead ≤ 2 ^ 32 := by
  have := hp.fits
  have := hp.room
  unfold trailer dmOverhead at *; omega

theorem sub32_of_le {a c : Nat} (hca : c ≤ a) (ha : a < 2 ^ 32) : sub32 a c = a - c := by
  unfold sub32
  rw [Nat.mod_eq_of_lt (by omega : c < 2 ^ 32), show 2 ^ 32 + a - c = a - c + 2 ^ 32 by omega, Nat.add_mod_right]
  exact Nat.mod_eq_of_lt (by omega)

theorem add32_of_lt {a c : Nat} (hac : a + c < 2 ^ 32) : add32 a c = a + c := Nat.mod_eq_of_lt hac

theorem freeSize_block (hr : PoolRep h pool (pre ++ b :: post)) :
    freeSize h (fin dmOverhead (h.pools pool).startAddress pre) = if b.free then b.size else 0 := by
  have hend := block_end_le hr
  have htop := trailer_lt hr.params
  unfold freeSize
  rw [layout_mid hr.layout]
  dsimp only
  split
  · have hov : dmOverhead = 16 := rfl
    have hnext : sub32 (fin dmOverhead (h.pools pool).startAddress pre + dmOverhead + b.size)
        (fin dmOverhead (h.pools pool).startAddress pre) = dmOverhead + b.size := by
      rw [sub32_of_le (by omega) (by omega)]; omega
    rw [hnext, sub32_of_le (by omega) (by omega)]; omega
  · rfl

theorem freeSize_trailer (hr : PoolRep h pool bs) : freeSize h (trailer (h.pools pool)) = 0 := by
  unfold freeSize
  rw [(layout_trailer hr.layout).2]
  rfl

/-! ## The search -/

/-- Walking along a path back to `start`, the search stops at the first block
that is large enough, or at `start` when no block is. -/
theorem searchLoop_path (size : Nat) {start : Nat} {l : List Nat} :
    ∀ {p n}, Path (fun x => (h.mem x).nextMemory) p l start → start ∉ l → l.length < n →
      ∃ q f, searchLoop h size start n p = some (q, f) ∧
        ((q ∈ p :: l ∧ f = freeSize h q ∧ size ≤ f) ∨ (f < size ∧ ∀ x ∈ p :: l, freeSize h x < size)) := by
  induction l with
  | nil =>
    intro p n hp _ hn
    obtain ⟨n, rfl⟩ : ∃ m, n = m + 1 := ⟨n - 1, by simp at hn; omega⟩
    by_cases hf : freeSize h p < size
    · exact ⟨start, freeSize h p, by simp [searchLoop, hf, path_nil.mp hp], .inr ⟨hf, by simpa using hf⟩⟩
    · exact ⟨p, freeSize h p, by simp [searchLoop, hf], .inl ⟨by simp, rfl, Nat.le_of_not_lt hf⟩⟩
  | cons x l ih =>
    intro p n hp hs hn
    obtain ⟨n, rfl⟩ : ∃ m, n = m + 1 := ⟨n - 1, by simp at hn; omega⟩
    obtain ⟨hx, hl⟩ := path_cons.mp hp
    by_cases hf : freeSize h p < size
    · have hne : x ≠ start := fun e => hs (by simp [e])
      obtain ⟨q, f, hq, hr⟩ := ih hl (fun hm => hs (by simp [hm])) (by simpa using hn)
      refine ⟨q, f, by simp only [searchLoop, hf, if_true, hx, hne, ne_eq, not_false_eq_true, hq], ?_⟩
      rcases hr with ⟨hm, hr⟩ | ⟨hlt, hall⟩
      · exact .inl ⟨by simp only [List.mem_cons] at hm ⊢; exact .inr hm, hr⟩
      · refine .inr ⟨hlt, fun y hy => ?_⟩
        rcases List.mem_cons.mp hy with rfl | hy
        · exact hf
        · exact hall y hy
    · exact ⟨p, freeSize h p, by simp [searchLoop, hf], .inl ⟨by simp, rfl, Nat.le_of_not_lt hf⟩⟩

theorem ring_from {s : Nat} (hr : PoolRep h pool bs) (hs : s ∈ headers (h.pools pool) bs) :
    ∃ l, Path (fun x => (h.mem x).nextMemory) s l s ∧ (s :: l).Perm (headers (h.pools pool) bs) := by
  obtain ⟨l, hl, hp⟩ := layout_path hr.layout
  unfold headers at hs ⊢
  rw [hl] at hs ⊢
  rcases List.mem_cons.mp hs with rfl | hs
  · exact ⟨l, hp, List.Perm.refl _⟩
  · obtain ⟨l₁, l₂, rfl⟩ := List.append_of_mem hs
    refine ⟨l₂ ++ (h.pools pool).startAddress :: l₁, path_rotate hp, ?_⟩
    have hcomm : (s :: l₂ ++ (h.pools pool).startAddress :: l₁).Perm ((h.pools pool).startAddress :: l₁ ++ s :: l₂) :=
      List.perm_append_comm
    simpa using hcomm

/-- `x` is reached from `dm_memory_list` along `dm_next_memory`. -/
def IsHeader (h : Heap) (pool x : Nat) : Prop :=
  ∃ k, (fun y => (h.mem y).nextMemory)^[k] (h.pools pool).memoryList = x

theorem isHeader_iff {x : Nat} (hr : PoolRep h pool bs) : IsHeader h pool x ↔ x ∈ headers (h.pools pool) bs := by
  obtain ⟨l, hl, hp⟩ := layout_path hr.layout
  unfold IsHeader headers
  rw [hl, hr.params.list, ← path_orbit hp]

theorem headers_length (hr : PoolRep h pool bs) : (headers (h.pools pool) bs).length ≤ (h.pools pool).poolSize := by
  have h1 := length_le dmOverhead bs (h.pools pool).startAddress
  rw [hr.fin_eq] at h1
  have h2 := hr.params.room
  rw [headers, List.length_append, length_addrs, List.length_singleton]
  unfold trailer dmOverhead at *; omega

theorem search_spec (hr : PoolRep h pool bs) (size : Nat) :
    ∃ q f, searchLoop h size (h.pools pool).searchPtr ((h.pools pool).poolSize + 1) (h.pools pool).searchPtr =
        some (q, f) ∧
      ((q ∈ headers (h.pools pool) bs ∧ f = freeSize h q ∧ size ≤ f) ∨
        (f < size ∧ ∀ x ∈ headers (h.pools pool) bs, freeSize h x < size)) := by
  obtain ⟨l, hp, hperm⟩ := ring_from hr hr.search
  have hnd := (hperm.nodup_iff).mpr (headers_nodup hr)
  have hlen := headers_length hr
  rw [← hperm.length_eq, List.length_cons] at hlen
  obtain ⟨q, f, hq, hcase⟩ := searchLoop_path size hp (List.nodup_cons.mp hnd).1
    (n := (h.pools pool).poolSize + 1) (by omega)
  refine ⟨q, f, hq, ?_⟩
  rcases hcase with ⟨hm, hf⟩ | ⟨hlt, hall⟩
  · exact .inl ⟨hperm.mem_iff.mp hm, hf⟩
  · exact .inr ⟨hlt, fun x hx => hall x (hperm.mem_iff.mpr hx)⟩

end

/-! ## Changing the blocks -/

section
variable {h h' : Heap} {pool : Nat} {bs pre post : List Blk} {b : Blk}

/-- A step that rewrites headers, the count of free bytes and the search pointer. -/
theorem PoolRep.update (avail search : Nat) (hp : PoolParams (h.pools pool))
    (hpool : h'.pools pool = { h.pools pool with available := avail, searchPtr := search })
    (hl : Layout h'.mem pool (h.pools pool).startAddress (trailer (h.pools pool)) (trailer (h.pools pool))
      (h.pools pool).startAddress bs)
    (ha : avail = freeBytes bs) (hs : search ∈ headers (h.pools pool) bs) (hal : ∀ b ∈ bs, b.size % 4 = 0) :
    PoolRep h' pool bs where
  params := by rw [hpool]; exact { hp with }
  layout := by rw [hpool]; exact hl
  available := by rw [hpool]; exact ha
  search := by rw [hpool]; exact hs
  aligned := hal

theorem freeBytes_lt (hr : PoolRep h pool (pre ++ b :: post)) : freeBytes (pre ++ b :: post) < 2 ^ 32 := by
  have h1 := freeBytes_le dmOverhead (pre ++ b :: post) (h.pools pool).startAddress
  have h2 := trailer_lt hr.params
  rw [hr.fin_eq] at h1
  have hov : dmOverhead = 16 := rfl
  omega

theorem block_lt (hr : PoolRep h pool (pre ++ b :: post)) :
    fin dmOverhead (h.pools pool).startAddress pre + dmOverhead + b.size + dmOverhead ≤ 2 ^ 32 := by
  have := block_end_le hr
  have := trailer_lt hr.params
  omega

theorem mid_mem_headers (p : DmPcb) (pre post : List Blk) (b : Blk) :
    fin dmOverhead p.startAddress pre ∈ headers p (pre ++ b :: post) :=
  mem_headers.mpr (.inl ⟨pre, b, post, rfl, rfl⟩)

theorem next_mem_headers (hr : PoolRep h pool (pre ++ b :: post)) :
    fin dmOverhead (h.pools pool).startAddress pre + dmOverhead + b.size ∈ headers (h.pools pool) (pre ++ b :: post) := by
  cases post with
  | nil =>
    have := hr.fin_eq
    rw [fin_append, fin_cons, fin_nil] at this
    exact mem_headers.mpr (.inr this)
  | cons c post => exact mem_headers.mpr (.inl ⟨pre ++ [b], c, post, by simp, by rw [fin_append]; rfl⟩)

/-- Headers stay headers when the blocks in the middle are cut further. -/
theorem headers_mono {p : DmPcb} (xs ys : List Blk) {x : Nat} (hx : x ∈ headers p (pre ++ xs ++ post))
    (hfin : fin dmOverhead (fin dmOverhead p.startAddress pre) ys = fin dmOverhead (fin dmOverhead p.startAddress pre) xs)
    (hsub : addrs dmOverhead (fin dmOverhead p.startAddress pre) xs ⊆
      addrs dmOverhead (fin dmOverhead p.startAddress pre) ys) : x ∈ headers p (pre ++ ys ++ post) := by
  unfold headers at hx ⊢
  simp only [addrs_append, fin_append, List.mem_append, hfin] at hx ⊢
  rcases hx with ((hx | hx) | hx) | hx
  · exact .inl (.inl (.inl hx))
  · exact .inl (.inl (.inr (hsub hx)))
  · exact .inl (.inr hx)
  · exact .inr hx

end

end SerialNet.Dmem
