import SerialNet.Dmem.Rep

/-!
# Returning a block

`OS_FreeMem` marks the block free and joins it with a free neighbour on either
side; `osFreeMem_rep` says what becomes of the blocks.
-/

namespace SerialNet.Dmem

open Blocks

section
variable {h : Heap} {p₀ : DmPcb} {pool : Nat} {pre post : List Blk} {b c : Blk}

/-! ## Joining neighbours -/

theorem mergeNext_mem (h : Heap) (pool p y : Nat) (hne : p ≠ (h.mem (h.mem p).nextMemory).nextMemory)
    (hne' : (h.mem p).nextMemory ≠ (h.mem (h.mem p).nextMemory).nextMemory) :
    (mergeNext h pool p).mem y =
      if y = p then { h.mem p with nextMemory := (h.mem (h.mem p).nextMemory).nextMemory }
      else if y = (h.mem (h.mem p).nextMemory).nextMemory then
        { h.mem (h.mem (h.mem p).nextMemory).nextMemory with previousMemory := p }
      else h.mem y := by
  simp only [mergeNext, Heap.setAvailable, Heap.setPrevious, Heap.setNext, Heap.setSearch, Heap.mem_setPool,
    Heap.mem_setHeader, hne, hne', if_false]

theorem mergeNext_pools (h : Heap) (pool p : Nat) :
    (mergeNext h pool p).pools pool =
      { h.pools pool with available := add32 (h.pools pool).available dmOverhead, searchPtr := p } := by
  simp [mergeNext, Heap.setAvailable, Heap.setPrevious, Heap.setNext, Heap.setSearch, Heap.pools_setPool]

theorem mergeNext_rep (hr : PoolRep h pool (pre ++ b :: c :: post)) (hb : b.free = true) (hc : c.free = true) :
    PoolRep (mergeNext h pool (fin dmOverhead (h.pools pool).startAddress pre)) pool
      (pre ++ ⟨b.size + dmOverhead + c.size, true⟩ :: post) := by
  have hov : dmOverhead = 16 := rfl
  have hmid := layout_mid hr.layout
  have hl : Layout h.mem pool (h.pools pool).startAddress (trailer (h.pools pool)) (trailer (h.pools pool))
      (h.pools pool).startAddress ((pre ++ [b]) ++ c :: post) := by simpa using hr.layout
  have hmid' := layout_mid hl
  rw [fin_append, fin_cons, fin_nil] at hmid'
  have hcount := freeBytes_le dmOverhead (pre ++ b :: c :: post) (h.pools pool).startAddress
  rw [hr.fin_eq] at hcount
  have htop := trailer_lt hr.params
  have hlen : 2 ≤ (pre ++ b :: c :: post).length := by simp; omega
  have hroom : 32 ≤ dmOverhead * (pre ++ b :: c :: post).length := by rw [hov]; omega
  have hal := hr.aligned
  set p := fin dmOverhead (h.pools pool).startAddress pre
  have hnext : (h.mem p).nextMemory = p + dmOverhead + b.size := by rw [hmid]
  have hnext' : (h.mem (h.mem p).nextMemory).nextMemory = p + dmOverhead + b.size + dmOverhead + c.size := by
    rw [hnext, hmid']
  have hmem := fun y => mergeNext_mem h pool p y (by omega) (by omega)
  rw [hnext'] at hmem
  have hbytes : freeBytes (pre ++ b :: c :: post) = freeBytes pre + (b.size + (c.size + freeBytes post)) := by
    rw [freeBytes_append, freeBytes_cons, freeBytes_cons, hb, hc, if_pos rfl, if_pos rfl]
  refine PoolRep.update (add32 (h.pools pool).available dmOverhead) p hr.params
    (mergeNext_pools h pool p) (hb ▸ layout_merge hr.layout ?_ ?_ ?_) ?_ (mid_mem_headers _ _ _ _) ?_
  · rw [hmem, if_pos rfl]
  · rw [hmem, if_neg (by omega), if_pos rfl]
  · intro y h1 h2
    rw [hmem, if_neg h1, if_neg h2]
  · rw [hr.available, add32_of_lt (by omega), hbytes]
    simp only [freeBytes_append, freeBytes_cons, if_true]
    omega
  · intro d hd
    have hb4 := hal b (by simp)
    have hc4 := hal c (by simp)
    simp only [List.mem_append, List.mem_cons] at hd hal
    rcases hd with hd | rfl | hd
    · exact hal d (.inl hd)
    · dsimp only; omega
    · exact hal d (.inr (.inr (.inr hd)))

/-- Joining with the previous neighbour is that neighbour joining its next one. -/
theorem mergePrevious_eq {p q : Nat} (hprev : (h.mem p).previousMemory = q) (hnext : (h.mem q).nextMemory = p)
    (h1 : q < p) (h2 : p < (h.mem p).nextMemory) : mergePrevious h pool p = mergeNext h pool q := by
  have hqp : q ≠ p := by omega
  have hpn : p ≠ (h.mem p).nextMemory := by omega
  have hqn : q ≠ (h.mem p).nextMemory := by omega
  unfold mergePrevious mergeNext
  simp only [Heap.setAvailable, Heap.mem_setPool, Heap.setNext, Heap.setPrevious, Heap.mem_setHeader, hprev, hnext,
    hqp.symm, hpn, if_false]
  rw [Heap.setHeader_comm _ _ _ hqn]

/-! ## Marking free -/

theorem markFree_mem (h : Heap) (pool p y : Nat) :
    (markFree h pool p).mem y = if y = p then { h.mem p with memoryFree := true } else h.mem y := by
  simp only [markFree, Heap.setFree, Heap.setAvailable, Heap.mem_setPool, Heap.mem_setHeader]

theorem markFree_pools (h : Heap) (pool p : Nat) :
    (markFree h pool p).pools pool =
      { h.pools pool with
        available := sub32 (add32 (h.pools pool).available (sub32 (h.mem p).nextMemory p)) dmOverhead } := by
  simp [markFree, Heap.setAvailable, Heap.setFree, Heap.pools_setPool, Heap.mem_setHeader]

theorem markFree_rep (hr : PoolRep h pool (pre ++ b :: post)) (hb : b.free = false) :
    PoolRep (markFree h pool (fin dmOverhead (h.pools pool).startAddress pre)) pool (pre ++ ⟨b.size, true⟩ :: post) := by
  have hov : dmOverhead = 16 := rfl
  have hmid := layout_mid hr.layout
  have hlt := block_lt hr
  have hal := hr.aligned
  have hcount := freeBytes_le dmOverhead (pre ++ ⟨b.size, true⟩ :: post) (h.pools pool).startAddress
  have hfin : fin dmOverhead (h.pools pool).startAddress (pre ++ ⟨b.size, true⟩ :: post) = trailer (h.pools pool) := by
    rw [← hr.fin_eq, fin_append, fin_append]; rfl
  have htop := trailer_lt hr.params
  have hsearch := hr.search
  have hroom : 16 ≤ dmOverhead * (pre ++ ⟨b.size, true⟩ :: post).length := by rw [hov]; simp; omega
  set p := fin dmOverhead (h.pools pool).startAddress pre
  have hbytes : freeBytes (pre ++ b :: post) + b.size = freeBytes (pre ++ ⟨b.size, true⟩ :: post) := by
    simp only [freeBytes_append, freeBytes_cons, hb, Bool.false_eq_true, if_false, if_true]
    omega
  have hsize : sub32 (h.mem p).nextMemory p = dmOverhead + b.size := by
    rw [hmid, sub32_of_le (by dsimp only; omega) (by dsimp only; omega)]; dsimp only; omega
  refine PoolRep.update (freeBytes (pre ++ ⟨b.size, true⟩ :: post)) (h.pools pool).searchPtr
    hr.params ?_ (layout_setFree hr.layout (by rw [markFree_mem, if_pos rfl])
      fun y hy => by rw [markFree_mem, if_neg hy]) rfl ?_ ?_
  · rw [hfin] at hcount
    have havail : sub32 (add32 (h.pools pool).available (sub32 (h.mem p).nextMemory p)) dmOverhead =
        freeBytes (pre ++ ⟨b.size, true⟩ :: post) := by
      rw [hsize, hr.available, add32_of_lt (by omega), sub32_of_le (by omega) (by omega)]; omega
    rw [markFree_pools, havail]
  · have hsearch' : (h.pools pool).searchPtr ∈ headers (h.pools pool) (pre ++ [⟨b.size, true⟩] ++ post) :=
      headers_mono [b] [⟨b.size, true⟩] (by simpa using hsearch) rfl (by simp)
    simpa using hsearch'
  · intro c hc
    simp only [List.mem_append, List.mem_cons] at hc hal
    rcases hc with hc | rfl | hc
    · exact hal c (.inl hc)
    · exact hal b (.inr (.inl rfl))
    · exact hal c (.inr (.inr hc))

/-! ## OS_FreeMem -/

/-- The trailer stops a merge around the end of the pool. -/
theorem previous_free (hr : PoolRep h pool (pre ++ b :: post)) :
    (h.mem (h.mem (fin dmOverhead (h.pools pool).startAddress pre)).previousMemory).memoryFree =
      pre.getLast?.any (·.free) := by
  rw [layout_mid hr.layout]
  rcases List.eq_nil_or_concat pre with rfl | ⟨pre, c, rfl⟩
  · exact (layout_trailer hr.layout).2
  · have hl := hr.layout
    simp only [List.concat_eq_append, List.append_assoc, List.singleton_append, lastAddr_snoc,
      List.getLast?_append_cons, List.getLast?_singleton, Option.any_some] at hl ⊢
    rw [layout_mid hl]

theorem next_free (hr : PoolRep h pool (pre ++ b :: post)) :
    (h.mem (h.mem (fin dmOverhead (h.pools pool).startAddress pre)).nextMemory).memoryFree =
      post.head?.any (·.free) := by
  rw [layout_mid hr.layout]
  cases post with
  | nil =>
    have hfin := hr.fin_eq
    rw [fin_append, fin_cons, fin_nil] at hfin
    dsimp only
    rw [hfin]
    exact (layout_trailer hr.layout).2
  | cons c post =>
    have hl := (layout_append.mp hr.layout).2.2.1
    dsimp only
    rw [hl]; rfl

/-- Joining with the previous neighbour leaves no free pair in front of the block. -/
theorem joinPrevious_rep (hr : PoolRep h pool (pre ++ b :: post)) (hs : SamePool p₀ (h.pools pool))
    (hb : b.free = true) (hpre : NoAdjFree pre) :
    ∃ h' pre' b', joinPrevious h pool (fin dmOverhead p₀.startAddress pre) = (h', fin dmOverhead p₀.startAddress pre') ∧
      PoolRep h' pool (pre' ++ b' :: post) ∧ SamePool p₀ (h'.pools pool) ∧ b'.free = true ∧
      NoAdjFree (pre' ++ [b']) ∧
      live dmOverhead p₀.startAddress (pre' ++ b' :: post) = live dmOverhead p₀.startAddress (pre ++ b :: post) := by
  rw [← hs.start]
  have hprev := previous_free hr
  have hmid := layout_mid hr.layout
  unfold joinPrevious
  rcases List.eq_nil_or_concat pre with rfl | ⟨pre, c, rfl⟩
  · exact ⟨h, [], b, by rw [hprev]; rfl, hr, hs, hb, List.isChain_singleton b, rfl⟩
  · simp only [List.concat_eq_append, List.append_assoc, List.singleton_append, lastAddr_snoc,
      List.getLast?_append_cons, List.getLast?_singleton, Option.any_some] at *
    by_cases hc : c.free = true
    · have hmid' := layout_mid hr.layout
      rw [fin_append, fin_cons, fin_nil] at *
      refine ⟨_, pre, _, ?_, mergeNext_rep hr hc hb, ?_, rfl, ?_, ?_⟩
      · rw [if_pos (hprev.trans hc), mergePrevious_eq (q := fin dmOverhead (h.pools pool).startAddress pre) (by rw [hmid])
          (by rw [hmid']) (by unfold dmOverhead; omega) (by rw [hmid]; dsimp only; unfold dmOverhead; omega), hmid]
      · rw [mergeNext_pools]; exact { hs with }
      · exact noAdjFree_mid hpre (List.isChain_singleton c) hc hc rfl
      · simp only [live_append, live, hb, hc, if_true, List.nil_append, Nat.add_assoc]
    · refine ⟨h, pre ++ [c], b, by rw [if_neg (by simp [hprev, hc])], by simpa using hr, hs, hb, ?_, by simp⟩
      rw [noAdjFree_append]
      exact ⟨hpre, List.isChain_singleton b, by simp [hc]⟩

/-- Joining with the next neighbour leaves no free pair behind the block. -/
theorem joinNext_rep (hr : PoolRep h pool (pre ++ b :: post)) (hs : SamePool p₀ (h.pools pool))
    (hb : b.free = true) (hpre : NoAdjFree (pre ++ [b])) (hpost : NoAdjFree post) :
    ∃ bs, PoolRep (joinNext h pool (fin dmOverhead p₀.startAddress pre)) pool bs ∧
      SamePool p₀ ((joinNext h pool (fin dmOverhead p₀.startAddress pre)).pools pool) ∧ NoAdjFree bs ∧
      live dmOverhead p₀.startAddress bs = live dmOverhead p₀.startAddress (pre ++ b :: post) := by
  rw [← hs.start]
  have hnext := next_free hr
  unfold joinNext
  cases post with
  | nil =>
    rw [if_neg (by simp [hnext])]
    exact ⟨_, hr, hs, hpre, rfl⟩
  | cons c post =>
    by_cases hc : c.free = true
    · rw [if_pos (by simp [hnext, hc])]
      refine ⟨_, mergeNext_rep hr hb hc, by rw [mergeNext_pools]; exact { hs with },
        noAdjFree_mid hpre hpost hb hc rfl, ?_⟩
      simp only [live_append, live, hb, hc, if_true, List.nil_append, Nat.add_assoc]
    · rw [if_neg (by simp [hnext, hc])]
      exact ⟨_, hr, hs, noAdjFree_join hpre hpost (by simpa using hc), rfl⟩

theorem osFreeMem_eq {p : Nat} (hp : (h.mem p).memoryPool = pool) (hlt : p + dmOverhead < 2 ^ 32) :
    osFreeMem h (p + dmOverhead) =
      joinNext (joinPrevious (markFree h pool p) pool p).1 pool (joinPrevious (markFree h pool p) pool p).2 := by
  have hsub : sub32 (p + dmOverhead) dmOverhead = p := by rw [sub32_of_le (by omega) hlt, Nat.add_sub_cancel]
  unfold osFreeMem
  dsimp only
  rw [hsub, hp]

/-- Freeing a block in use takes its payload, and nothing else, out of use. -/
theorem osFreeMem_rep (hr : PoolRep h pool (pre ++ b :: post)) (hb : b.free = false)
    (hn : NoAdjFree (pre ++ b :: post)) {m : Nat}
    (hm : m = fin dmOverhead (h.pools pool).startAddress pre + dmOverhead) :
    ∃ bs, PoolRep (osFreeMem h m) pool bs ∧ SamePool (h.pools pool) ((osFreeMem h m).pools pool) ∧ NoAdjFree bs ∧
      live dmOverhead (h.pools pool).startAddress bs =
        live dmOverhead (h.pools pool).startAddress (pre ++ ⟨b.size, true⟩ :: post) := by
  have hov : dmOverhead = 16 := rfl
  have hlt := block_lt hr
  have hpost := (noAdjFree_cons.mp hn.right).2
  rw [hm, osFreeMem_eq (by rw [layout_mid hr.layout]) (by omega)]
  have hs : SamePool (h.pools pool)
      ((markFree h pool (fin dmOverhead (h.pools pool).startAddress pre)).pools pool) := by
    rw [markFree_pools]; exact ⟨rfl, rfl, rfl, rfl⟩
  obtain ⟨h', pre', b', hj, hr', hs', hb', hpre', hlive'⟩ := joinPrevious_rep (markFree_rep hr hb) hs rfl hn.left
  rw [hj]
  obtain ⟨bs, hbs, hs'', hno, hlive⟩ := joinNext_rep hr' hs' hb' hpre' hpost
  exact ⟨bs, hbs, hs'', hno, hlive.trans hlive'⟩

end

end SerialNet.Dmem
