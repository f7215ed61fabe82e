import SerialNet.Dmem.Rep

/-!
# Allocating from a pool

`OS_GetMem` cuts or takes the block its search stops at; `osGetMem_cases` says
what becomes of the blocks.
-/

namespace SerialNet.Dmem

open Blocks Ring

/-! ## Handing a block out -/

section
variable (h : Heap) (pool : Nat)

theorem splitBlock_mem {p size new next : Nat} (hnew : add32 (add32 p size) dmOverhead = new)
    (hnext : (h.mem p).nextMemory = next) (h1 : p < new) (h2 : new < next) (y : Nat) :
    (splitBlock h pool p size).mem y =
      if y = p then { h.mem p with nextMemory := new }
      else if y = new then { nextMemory := next, previousMemory := p, memoryFree := true, memoryPool := pool }
      else if y = next then { h.mem next with previousMemory := new }
      else h.mem y := by
  have hnp : new ≠ p := by omega
  have hpn : p ≠ new := by omega
  have hnn : next ≠ new := by omega
  have hpn' : p ≠ next := by omega
  simp only [splitBlock, hnew, Heap.setFree, Heap.setOwner, Heap.setPrevious, Heap.setNext, Heap.setAvailable,
    Heap.mem_setPool, Heap.mem_setHeader, if_true, hpn, hnn, hpn', if_false, hnext]
  by_cases hy : y = p
  · simp [hy]
  · by_cases hy' : y = new
    · simp [hy', hnp, hnn.symm]
    · simp [hy, hy']

theorem splitBlock_pools (p size : Nat) :
    (splitBlock h pool p size).pools pool =
      { h.pools pool with available := sub32 (sub32 (h.pools pool).available size) dmOverhead } := by
  simp [splitBlock, Heap.setFree, Heap.setOwner, Heap.setPrevious, Heap.setNext, Heap.setAvailable, Heap.pools_setPool]

@[simp] theorem moveSearch_mem (p : Nat) : (moveSearch h pool p).mem = h.mem := by
  unfold moveSearch
  split <;> rfl

theorem moveSearch_pools (p : Nat) :
    (moveSearch h pool p).pools pool =
      { h.pools pool with
        searchPtr := if (h.pools pool).searchPtr = p then (h.mem p).nextMemory else (h.pools pool).searchPtr } := by
  unfold moveSearch
  split
  · simp [Heap.setSearch, Heap.pools_setPool]
  · rfl

theorem takeBlock_mem (p free size y : Nat) :
    (takeBlock h pool p free size).mem y =
      if y = p then { (cutBlock h pool p free size).mem p with memoryFree := false }
      else (cutBlock h pool p free size).mem y := by
  simp [takeBlock, Heap.setFree, Heap.mem_setHeader]

theorem takeBlock_pools (p free size : Nat) :
    (takeBlock h pool p free size).pools pool =
      { (cutBlock h pool p free size).pools pool with
        searchPtr := if ((cutBlock h pool p free size).pools pool).searchPtr = p then
          ((cutBlock h pool p free size).mem p).nextMemory else ((cutBlock h pool p free size).pools pool).searchPtr } := by
  simp [takeBlock, moveSearch_pools, Heap.setFree, Heap.mem_setHeader]

theorem takeBlock_same (p free size : Nat) : SamePool (h.pools pool) ((takeBlock h pool p free size).pools pool) := by
  rw [takeBlock_pools]
  unfold cutBlock
  split
  · rw [splitBlock_pools]; exact ⟨rfl, rfl, rfl, rfl⟩
  · simp only [Heap.setAvailable, Heap.pools_setPool, if_true]; exact ⟨rfl, rfl, rfl, rfl⟩

end

section
variable {h h' : Heap} {pool : Nat} {bs pre post : List Blk} {b : Blk}

theorem takeBlock_split {n : Nat} (hr : PoolRep h pool (pre ++ b :: post)) (hb : b.free = true)
    (hn : n % 4 = 0) (hfit : n + dmOverhead ≤ b.size)
    (hcut : add32 (add32 n dmOverhead) (h.pools pool).minAllocation ≤ b.size) :
    PoolRep (takeBlock h pool (fin dmOverhead (h.pools pool).startAddress pre) b.size n) pool
      (pre ++ ⟨n, false⟩ :: ⟨b.size - n - dmOverhead, true⟩ :: post) := by
  have hov : dmOverhead = 16 := rfl
  have hlt := block_lt hr
  have hmid := layout_mid hr.layout
  have hal := hr.aligned
  have hbytes := freeBytes_lt hr
  have hsearch := hr.search
  set p := fin dmOverhead (h.pools pool).startAddress pre with hpdef
  have hnew : add32 (add32 p n) dmOverhead = p + dmOverhead + n := by
    rw [add32_of_lt (by omega : p + n < 2 ^ 32), add32_of_lt (by omega)]; omega
  have hnext : (h.mem p).nextMemory = p + dmOverhead + b.size := by rw [hmid]
  have hcutBlock : cutBlock h pool p b.size n = splitBlock h pool p n := if_pos hcut
  have hmem := splitBlock_mem h pool hnew hnext (by omega) (by omega)
  have hcount : freeBytes (pre ++ b :: post) = freeBytes pre + b.size + freeBytes post := by
    rw [freeBytes_append, freeBytes_cons, hb, if_pos rfl, Nat.add_assoc]
  refine PoolRep.update (sub32 (sub32 (h.pools pool).available n) dmOverhead)
    (if (h.pools pool).searchPtr = p then p + dmOverhead + n else (h.pools pool).searchPtr) hr.params ?_
    (layout_split hr.layout hfit ?_ ?_ ?_ ?_) ?_ ?_ ?_
  · rw [takeBlock_pools, hcutBlock, splitBlock_pools, hmem p, if_pos rfl]
  · rw [takeBlock_mem, if_pos rfl, hcutBlock, hmem, if_pos rfl]
  · rw [takeBlock_mem, if_neg (by omega), hcutBlock, hmem, if_neg (by omega), if_pos rfl]
  · rw [takeBlock_mem, if_neg (by omega), hcutBlock, hmem, if_neg (by omega), if_neg (by omega), if_pos rfl]
  · intro y h1 h2 h3
    rw [takeBlock_mem, if_neg h1, hcutBlock, hmem, if_neg h1, if_neg h2, if_neg h3]
  · rw [hr.available, sub32_of_le (by omega) hbytes, sub32_of_le (by omega) (by omega), hcount]
    simp only [freeBytes_append, freeBytes_cons, if_true, Bool.false_eq_true, if_false]
    omega
  · have hnewMem : p + dmOverhead + n ∈
        headers (h.pools pool) (pre ++ ⟨n, false⟩ :: ⟨b.size - n - dmOverhead, true⟩ :: post) :=
      mem_headers.mpr (.inl ⟨pre ++ [⟨n, false⟩], ⟨b.size - n - dmOverhead, true⟩, post, by simp,
        by rw [fin_append]; rfl⟩)
    split
    · exact hnewMem
    · have hmono : (h.pools pool).searchPtr ∈
          headers (h.pools pool) (pre ++ [⟨n, false⟩, ⟨b.size - n - dmOverhead, true⟩] ++ post) :=
        headers_mono [b] [⟨n, false⟩, ⟨b.size - n - dmOverhead, true⟩] (by simpa using hsearch)
          (by simp only [fin_cons, fin_nil]; omega) (by simp)
      simpa using hmono
  · intro c hc
    have hb4 := hal b (by simp)
    simp only [List.mem_append, List.mem_cons] at hc hal
    rcases hc with hc | rfl | rfl | hc
    · exact hal c (.inl hc)
    · exact hn
    · dsimp only; omega
    · exact hal c (.inr (.inr hc))

theorem takeBlock_whole {n : Nat} (hr : PoolRep h pool (pre ++ b :: post)) (hb : b.free = true)
    (hcut : ¬add32 (add32 n dmOverhead) (h.pools pool).minAllocation ≤ b.size) :
    PoolRep (takeBlock h pool (fin dmOverhead (h.pools pool).startAddress pre) b.size n) pool
      (pre ++ ⟨b.size, false⟩ :: post) := by
  have hov : dmOverhead = 16 := rfl
  have hmid := layout_mid hr.layout
  have hal := hr.aligned
  have hnextMem := next_mem_headers hr
  have hbytes := freeBytes_lt hr
  have hsearch := hr.search
  set p := fin dmOverhead (h.pools pool).startAddress pre with hpdef
  have hcutBlock : cutBlock h pool p b.size n = h.setAvailable pool (sub32 (h.pools pool).available b.size) :=
    if_neg hcut
  have hcount : freeBytes (pre ++ b :: post) = freeBytes pre + b.size + freeBytes post := by
    rw [freeBytes_append, freeBytes_cons, hb, if_pos rfl, Nat.add_assoc]
  have hheaders : ∀ x, x ∈ headers (h.pools pool) (pre ++ b :: post) →
      x ∈ headers (h.pools pool) (pre ++ ⟨b.size, false⟩ :: post) := fun x hx => by
    have hmono : x ∈ headers (h.pools pool) (pre ++ [⟨b.size, false⟩] ++ post) :=
      headers_mono [b] [⟨b.size, false⟩] (by simpa using hx) rfl (by simp)
    simpa using hmono
  refine PoolRep.update (sub32 (h.pools pool).available b.size)
    (if (h.pools pool).searchPtr = p then p + dmOverhead + b.size else (h.pools pool).searchPtr) hr.params ?_
    (layout_setFree hr.layout ?_ ?_) ?_ ?_ ?_
  · rw [takeBlock_pools, hcutBlock]
    simp [Heap.setAvailable, Heap.pools_setPool, hmid]
  · rw [takeBlock_mem, if_pos rfl, hcutBlock]; rfl
  · intro y hy
    rw [takeBlock_mem, if_neg hy, hcutBlock]; rfl
  · rw [hr.available, sub32_of_le (by omega) hbytes, hcount]
    simp only [freeBytes_append, freeBytes_cons, Bool.false_eq_true, if_false]
    omega
  · split
    · exact hheaders _ hnextMem
    · exact hheaders _ hsearch
  · intro c hc
    simp only [List.mem_append, List.mem_cons] at hc hal
    rcases hc with hc | rfl | hc
    · exact hal c (.inl hc)
    · exact hal b (.inr (.inl rfl))
    · exact hal c (.inr (.inr hc))

/-! ## OS_GetMem -/

theorem requestSize_spec {size : Nat} (hp : PoolParams (h.pools pool)) (hs : size ≤ 0xFFFFFFFC) :
    requestSize h pool size % 4 = 0 ∧ max size (h.pools pool).minAllocation ≤ requestSize h pool size := by
  have := hp.min_aligned
  unfold requestSize
  split
  · omega
  · unfold roundUp add32; omega

/-- What `OS_GetMem` makes of the block its search stops at. -/
theorem osGetMem_search {size q f : Nat}
    (hq : searchLoop h (requestSize h pool size) (h.pools pool).searchPtr ((h.pools pool).poolSize + 1)
      (h.pools pool).searchPtr = some (q, f)) :
    osGetMem h pool size =
      if requestSize h pool size ≤ f then
        some (takeBlock h pool q f (requestSize h pool size), errNone, add32 q dmOverhead)
      else some (h, errMemFull, 0) := by
  unfold osGetMem
  dsimp only
  rw [hq, Option.map_some]
  split <;> rfl

/-- A free block of the requested size is found at the first header looked at
when nothing is requested, and adding the overhead and the minimum to the
request does not wrap where the found block has no room for a header. -/
def SafeGet (h : Heap) (pool size : Nat) : Prop :=
  (requestSize h pool size = 0 → (h.mem (h.pools pool).searchPtr).memoryFree = true) ∧
    (2 ^ 32 ≤ requestSize h pool size + dmOverhead + (h.pools pool).minAllocation →
      ∀ x, IsHeader h pool x → freeSize h x < requestSize h pool size ∨
        requestSize h pool size + dmOverhead ≤ freeSize h x)

inductive GetOutcome (h : Heap) (pool size : Nat) (bs : List Blk) : Heap → Nat → Nat → List Blk → Prop
  | full (hall : ∀ x, IsHeader h pool x → freeSize h x < requestSize h pool size) :
      GetOutcome h pool size bs h errMemFull 0 bs
  | take (h' : Heap) (pre post rest : List Blk) (b : Blk) (n : Nat) (hbs : bs = pre ++ b :: post) (hb : b.free = true)
      (hn : requestSize h pool size ≤ n)
      (hrest : rest = [] ∧ n = b.size ∨ ∃ m, rest = [⟨m, true⟩] ∧ n + dmOverhead + m = b.size)
      (hr : PoolRep h' pool (pre ++ ⟨n, false⟩ :: (rest ++ post)))
      (hsame : SamePool (h.pools pool) (h'.pools pool)) :
      GetOutcome h pool size bs h' errNone (fin dmOverhead (h.pools pool).startAddress pre + dmOverhead)
        (pre ++ ⟨n, false⟩ :: (rest ++ post))

theorem osGetMem_cases {size : Nat} (hr : PoolRep h pool bs) (hs : size ≤ 0xFFFFFFFC) (hsafe : SafeGet h pool size) :
    ∃ h' status ptr bs', osGetMem h pool size = some (h', status, ptr) ∧
      GetOutcome h pool size bs h' status ptr bs' := by
  have hov : dmOverhead = 16 := rfl
  obtain ⟨hal, hmax⟩ := requestSize_spec hr.params hs
  set n := requestSize h pool size with hn
  obtain ⟨q, f, hq, hcase⟩ := search_spec hr n
  have hget := osGetMem_search hq
  rcases hcase with ⟨hqm, rfl, hle⟩ | ⟨hlt, hall⟩
  · rw [hget, if_pos hle]
    have hfree : (h.mem q).memoryFree = true := by
      by_cases h0 : n = 0
      · -- nothing requested: the search stops where it starts
        have : q = (h.pools pool).searchPtr := by
          rw [h0] at hq
          simpa [searchLoop] using (congrArg Prod.fst (Option.some.inj hq)).symm
        rw [this]; exact hsafe.1 h0
      · by_contra hf
        simp only [freeSize, hf, if_false] at hle
        omega
    obtain ⟨pre, b, post, rfl, rfl⟩ | rfl := mem_headers.mp hqm
    · have hmid := layout_mid hr.layout
      have hlt := block_lt hr
      have hb : b.free = true := by rw [hmid] at hfree; exact hfree
      have hfs : freeSize h (fin dmOverhead (h.pools pool).startAddress pre) = b.size := by
        rw [freeSize_block hr, if_pos hb]
      rw [hfs] at hle ⊢
      rw [add32_of_lt (by omega)]
      by_cases hcut : add32 (add32 n dmOverhead) (h.pools pool).minAllocation ≤ b.size
      · have hfit : n + dmOverhead ≤ b.size := by
          by_cases hwrap : 2 ^ 32 ≤ n + dmOverhead + (h.pools pool).minAllocation
          · have := hsafe.2 hwrap _ ((isHeader_iff hr).mpr hqm)
            rw [hfs] at this
            omega
          · unfold add32 at hcut
            omega
        refine ⟨_, _, _, _, rfl, .take _ pre post [⟨b.size - n - dmOverhead, true⟩] b n rfl hb (Nat.le_refl n)
          (.inr ⟨_, rfl, by omega⟩) (takeBlock_split hr hb hal hfit hcut)
          (takeBlock_same ..)⟩
      · exact ⟨_, _, _, _, rfl, .take _ pre post [] b b.size rfl hb hle (.inl ⟨rfl, rfl⟩)
          (takeBlock_whole hr hb hcut) (takeBlock_same ..)⟩
    · rw [(layout_trailer hr.layout).2] at hfree
      cases hfree
  · rw [hget, if_neg (by omega)]
    exact ⟨_, _, _, _, rfl, .full fun x hx => hall x ((isHeader_iff hr).mp hx)⟩

end

end SerialNet.Dmem
