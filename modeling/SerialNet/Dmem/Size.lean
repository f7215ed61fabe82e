import SerialNet.Dmem.Invariant

/-!
# Sizes near the end of the words

Rounding a request up and multiplying the arguments of `OSMCalloc` are done
modulo 2^32. What the allocators hand out is compared with the request as a
number.
-/

namespace SerialNet.Dmem

open Blocks

/-! ## The allocators of the system pool -/

def osSystemMempool : Nat := 0

/-- `OSMMalloc`: the heap and the pointer, 0 for `NULL`. -/
def osmMalloc (h : Heap) (size : Nat) : Option (Heap × Nat) :=
  (osGetMem h osSystemMempool size).map fun (h, status, pointer) => (h, if status = errNone then pointer else 0)

abbrev Payloads := Nat → UInt8

/-- `memset(p, 0, n)` inside the payload of the block at `p`; nothing when it runs over the next header. -/
def memsetZero (h : Heap) (data : Payloads) (p n : Nat) : Option Payloads :=
  if n ≤ payloadSize h p then some fun x => if p ≤ x ∧ x < p + n then 0 else data x else none

def osmCalloc (h : Heap) (data : Payloads) (count size : Nat) : Option (Heap × Payloads × Nat) :=
  (osmMalloc h (count * size % 2 ^ 32)).bind fun (h, p) =>
    if p ≠ 0 then (memsetZero h data p (count * size % 2 ^ 32)).map fun data => (h, data, p) else some (h, data, p)

/-! ## What a request gets -/

def IsLive (h : Heap) (pool q : Nat) : Prop :=
  ∃ x, IsHeader h pool x ∧ x ≠ trailer (h.pools pool) ∧ (h.mem x).memoryFree = false ∧ q = x + dmOverhead

/-- The block at `ptr` was free, has the bytes asked for, and is apart from every live one. -/
structure Granted (h h' : Heap) (pool ptr request : Nat) : Prop where
  free : ∃ x, ptr = x + dmOverhead ∧ IsHeader h pool x ∧ (h.mem x).memoryFree = true
  large : request ≤ payloadSize h' ptr
  apart : ∀ q, IsLive h pool q → ptr + payloadSize h' ptr ≤ q ∨ q + payloadSize h q ≤ ptr

/-- No free block has that many bytes. -/
def TooLarge (h : Heap) (pool request : Nat) : Prop :=
  ∀ x, IsHeader h pool x → (h.mem x).memoryFree = true → freeSize h x < request

def GetFits (h : Heap) (pool size : Nat) : Prop :=
  ∃ h' status ptr, osGetMem h pool size = some (h', status, ptr) ∧
    (status = errNone → Granted h h' pool ptr size) ∧ (TooLarge h pool size → status ≠ errNone ∧ h' = h)

def MallocFits (h : Heap) (size : Nat) : Prop :=
  ∃ h' ptr, osmMalloc h size = some (h', ptr) ∧
    (ptr ≠ 0 → Granted h h' osSystemMempool ptr size) ∧ (TooLarge h osSystemMempool size → ptr = 0 ∧ h' = h)

def CallocFits (h : Heap) (data : Payloads) (count size : Nat) : Prop :=
  ∃ h' data' ptr, osmCalloc h data count size = some (h', data', ptr) ∧
    (ptr ≠ 0 → Granted h h' osSystemMempool ptr (count * size) ∧ ∀ i, i < count * size → data' (ptr + i) = 0) ∧
    (TooLarge h osSystemMempool (count * size) → ptr = 0 ∧ h' = h ∧ data' = data)

/-! ## The request in words -/

section
variable {h : Heap} {pool size : Nat} {bs pre post : List Blk} {b : Blk}

theorem requestSize_wraps (hp : PoolParams (h.pools pool)) (hsize : size < 2 ^ 32) (hbig : 0xFFFFFFFC < size) :
    requestSize h pool size = 0 := by
  have hov : dmOverhead = 16 := rfl
  have hfits := hp.fits
  have hroom := hp.room
  unfold requestSize
  rw [if_neg (by omega)]
  unfold roundUp add32
  omega

theorem requestSize_zero (hp : PoolParams (h.pools pool)) (hs : size ≤ 0xFFFFFFFC) :
    requestSize h pool size = 0 ↔ size = 0 ∧ (h.pools pool).minAllocation = 0 := by
  have hmax := (requestSize_spec hp hs).2
  constructor
  · intro h0
    omega
  · rintro ⟨rfl, hmin⟩
    unfold requestSize
    rw [hmin]
    rfl

theorem freeSize_header {x : Nat} (hr : PoolRep h pool bs) (hx : IsHeader h pool x) : freeSize h x ≤ 0xFFFFFFE0 := by
  have hov : dmOverhead = 16 := rfl
  obtain ⟨pre, b, post, rfl, rfl⟩ | rfl := mem_headers.mp ((isHeader_iff hr).mp hx)
  · have hlt := block_lt hr
    rw [freeSize_block hr]
    split <;> omega
  · rw [freeSize_trailer hr]
    omega

theorem tooLarge_word (hr : PoolRep h pool bs) (hbig : 0xFFFFFFFC < size) : TooLarge h pool size := fun x hx _ => by
  have := freeSize_header hr hx
  omega

/-! ## Serving from a free block -/

theorem takeBlock_next {p free n : Nat} : ((takeBlock h pool p free n).mem p).nextMemory =
    if add32 (add32 n dmOverhead) (h.pools pool).minAllocation ≤ free then add32 (add32 p n) dmOverhead
    else (h.mem p).nextMemory := by
  rw [takeBlock_mem, if_pos rfl]
  unfold cutBlock
  split
  · simp only [splitBlock, Heap.setAvailable, Heap.mem_setPool, Heap.setNext, Heap.mem_setHeader, if_true]
  · rfl

theorem live_header {q : Nat} (hr : PoolRep h pool bs) (hq : IsLive h pool q) :
    ∃ pre b post, bs = pre ++ b :: post ∧ b.free = false ∧ q = fin dmOverhead (h.pools pool).startAddress pre + dmOverhead := by
  obtain ⟨x, hx, hne, hused, rfl⟩ := hq
  obtain ⟨pre, b, post, rfl, rfl⟩ | rfl := mem_headers.mp ((isHeader_iff hr).mp hx)
  · rw [layout_mid hr.layout] at hused
    exact ⟨pre, b, post, rfl, hused, rfl⟩
  · exact absurd rfl hne

/-- A free block of `n` bytes serves any request up to `n`, whether or not it is cut. -/
theorem takeBlock_granted {n : Nat} (hr : PoolRep h pool (pre ++ b :: post)) (hb : b.free = true) (hn : n ≤ b.size)
    (hs : size ≤ n) :
    Granted h (takeBlock h pool (fin dmOverhead (h.pools pool).startAddress pre) b.size n) pool
      (fin dmOverhead (h.pools pool).startAddress pre + dmOverhead) size := by
  have hov : dmOverhead = 16 := rfl
  have hlt := block_lt hr
  have hmid := layout_mid hr.layout
  have hheader := (isHeader_iff hr).mpr (mid_mem_headers (h.pools pool) pre post b)
  set p := fin dmOverhead (h.pools pool).startAddress pre with hpdef
  have hpayload : n ≤ payloadSize (takeBlock h pool p b.size n) (p + dmOverhead) ∧
      payloadSize (takeBlock h pool p b.size n) (p + dmOverhead) ≤ b.size := by
    unfold payloadSize
    rw [Nat.add_sub_cancel, takeBlock_next, hmid]
    split
    · rw [add32_of_lt (by omega : p + n < 2 ^ 32), add32_of_lt (by omega)]
      omega
    · dsimp only
      omega
  refine ⟨⟨p, rfl, hheader, by rw [hmid]; exact hb⟩, by omega, fun q hq => ?_⟩
  obtain ⟨pre', b', post', hbs, hused, rfl⟩ := live_header hr hq
  have hsize := payloadSize_block (hbs ▸ hr)
  rw [hsize]
  obtain ⟨-, rfl, -⟩ | hbefore | hbehind := block_apart dmOverhead (a := (h.pools pool).startAddress) rfl hbs
  · rw [hb] at hused
    cases hused
  · left
    omega
  · right
    omega

theorem osGetMem_serves (hr : PoolRep h pool bs) (hs : size ≤ 0xFFFFFFFC)
    (hfirst : requestSize h pool size = 0 → (h.mem (h.pools pool).searchPtr).memoryFree = true)
    (hroom : ¬TooLarge h pool (requestSize h pool size)) :
    ∃ h' x, osGetMem h pool size = some (h', errNone, x + dmOverhead) ∧ Granted h h' pool (x + dmOverhead) size := by
  have hov : dmOverhead = 16 := rfl
  have hmax := (requestSize_spec hr.params hs).2
  obtain ⟨q, f, hq, ⟨hqm, rfl, hle⟩ | ⟨hlt, hall⟩⟩ := search_spec hr (requestSize h pool size)
  · have hget := osGetMem_search hq
    rw [if_pos hle] at hget
    have hfree : (h.mem q).memoryFree = true := by
      by_contra hused
      have h0 : requestSize h pool size = 0 := by
        rw [freeSize, if_neg hused] at hle
        omega
      rw [h0, searchLoop, if_neg (Nat.not_lt_zero _)] at hq
      obtain ⟨rfl, -⟩ := Prod.mk.inj (Option.some.inj hq)
      exact hused (hfirst h0)
    obtain ⟨pre, b, post, rfl, rfl⟩ | rfl := mem_headers.mp hqm
    · have hlt := block_lt hr
      have hb : b.free = true := by
        rwa [layout_mid hr.layout] at hfree
      have hsize : freeSize h (fin dmOverhead (h.pools pool).startAddress pre) = b.size := by
        rw [freeSize_block hr, if_pos hb]
      rw [hsize] at hle hget
      rw [add32_of_lt (by omega)] at hget
      exact ⟨_, _, hget, takeBlock_granted hr hb hle (by omega)⟩
    · rw [(layout_trailer hr.layout).2] at hfree
      cases hfree
  · exact absurd (fun x hx _ => hall x ((isHeader_iff hr).mp hx)) hroom

theorem osGetMem_refuses (hr : PoolRep h pool bs) (hpos : requestSize h pool size ≠ 0)
    (hfull : TooLarge h pool (requestSize h pool size)) : osGetMem h pool size = some (h, errMemFull, 0) := by
  obtain ⟨q, f, hq, ⟨hqm, rfl, hle⟩ | ⟨hlt, -⟩⟩ := search_spec hr (requestSize h pool size)
  · by_cases hfree : (h.mem q).memoryFree = true
    · have := hfull q ((isHeader_iff hr).mpr hqm) hfree
      omega
    · rw [freeSize, if_neg hfree] at hle
      omega
  · rw [osGetMem_search hq, if_neg (by omega)]

/-- A request for nothing is served from where the search starts, which moves on. -/
theorem osGetMem_nothing (hr : PoolRep h pool bs) (h0 : requestSize h pool size = 0) :
    ∃ h', osGetMem h pool size = some (h', errNone, add32 (h.pools pool).searchPtr dmOverhead) ∧ h' ≠ h := by
  have hov : dmOverhead = 16 := rfl
  set s := (h.pools pool).searchPtr with hsdef
  have hq : searchLoop h (requestSize h pool size) s ((h.pools pool).poolSize + 1) s = some (s, freeSize h s) := by
    rw [h0, searchLoop, if_neg (Nat.not_lt_zero _)]
  have hget := osGetMem_search hq
  rw [if_pos (by omega), h0] at hget
  refine ⟨_, hget, fun heq => ?_⟩
  have hmoved := takeBlock_pools h pool s (freeSize h s) 0
  have hcut : ((cutBlock h pool s (freeSize h s) 0).pools pool).searchPtr = s := by
    unfold cutBlock
    split
    · rw [splitBlock_pools]
    · simp only [Heap.setAvailable, Heap.pools_setPool, if_true]
      exact hsdef.symm
  have hnext := @takeBlock_next h pool s (freeSize h s) 0
  rw [takeBlock_mem, if_pos rfl] at hnext
  rw [hcut, if_pos rfl, heq] at hmoved
  have hstay : s = ((cutBlock h pool s (freeSize h s) 0).mem s).nextMemory := congrArg DmPcb.searchPtr hmoved
  rw [hnext] at hstay
  have htop := trailer_lt hr.params
  have hroom := hr.params.room
  obtain ⟨pre, b, post, rfl, hs⟩ | hs := mem_headers.mp hr.search
  · have hlt := block_lt hr
    rw [← hs, ← hsdef] at hlt
    have hmid := layout_mid hr.layout
    rw [← hs, ← hsdef] at hmid
    rw [hmid] at hstay
    split at hstay
    · unfold add32 at hstay
      omega
    · dsimp only at hstay
      omega
  · rw [← hsdef] at hs
    rw [hs, (layout_trailer hr.layout).1] at hstay
    unfold trailer at hstay htop
    split at hstay
    · unfold add32 at hstay
      omega
    · omega

end

/-! ## Each allocator -/

section
variable {h : Heap} {pool size count : Nat} {data : Payloads} {bs : List Blk}

/-- `OS_GetMem` keeps to the size exactly when rounding up does not wrap and a request for nothing, where a pool
has no minimum, meets a free block first. -/
theorem getFits_iff (hr : PoolRep h pool bs) (hsize : size < 2 ^ 32) : GetFits h pool size ↔
    size ≤ 0xFFFFFFFC ∧ (size = 0 → (h.pools pool).minAllocation = 0 →
      (h.mem (h.pools pool).searchPtr).memoryFree = true) := by
  have hov : dmOverhead = 16 := rfl
  constructor
  · rintro ⟨h', status, ptr, hget, hok, hfull⟩
    have hs : size ≤ 0xFFFFFFFC := by
      by_contra hbig
      obtain ⟨h'', hget', hne⟩ := osGetMem_nothing hr (requestSize_wraps hr.params hsize (Nat.lt_of_not_le hbig))
      rw [hget'] at hget
      cases hget
      exact hne (hfull (tooLarge_word hr (Nat.lt_of_not_le hbig))).2
    refine ⟨hs, fun h0 hmin => ?_⟩
    obtain ⟨h'', hget', -⟩ := osGetMem_nothing hr ((requestSize_zero hr.params hs).mpr ⟨h0, hmin⟩)
    rw [hget'] at hget
    cases hget
    obtain ⟨x, hx, hheader, hfree⟩ := (hok rfl).free
    have htop : (h.pools pool).searchPtr + dmOverhead ≤ 2 ^ 32 := by
      have := trailer_lt hr.params
      obtain ⟨pre, b, post, rfl, hs⟩ | hs := mem_headers.mp hr.search
      · have := block_lt hr
        omega
      · omega
    have hsame : (h.pools pool).searchPtr = x := by
      unfold add32 at hx
      omega
    rw [hsame]
    exact hfree
  · rintro ⟨hs, hfirst⟩
    have hstart : requestSize h pool size = 0 → (h.mem (h.pools pool).searchPtr).memoryFree = true := fun h0 => by
      obtain ⟨h0, hmin⟩ := (requestSize_zero hr.params hs).mp h0
      exact hfirst h0 hmin
    by_cases hroom : TooLarge h pool (requestSize h pool size)
    · have hpos : requestSize h pool size ≠ 0 := fun h0 => by
        have := hroom _ ((isHeader_iff hr).mpr hr.search) (hstart h0)
        omega
      exact ⟨h, errMemFull, 0, osGetMem_refuses hr hpos hroom, fun h => absurd h (by decide), fun _ => ⟨by decide, rfl⟩⟩
    · obtain ⟨h', x, hget, hgranted⟩ := osGetMem_serves hr hs hstart hroom
      refine ⟨h', errNone, _, hget, fun _ => hgranted, fun hlarge => absurd (fun y hy hfree => ?_) hroom⟩
      have := hlarge y hy hfree
      have := (requestSize_spec hr.params hs).2
      omega

/-- `OSMMalloc` keeps to the size exactly when rounding up does not wrap. -/
theorem mallocFits_iff (hr : PoolRep h osSystemMempool bs) (hmin : (h.pools osSystemMempool).minAllocation = 16)
    (hsize : size < 2 ^ 32) : MallocFits h size ↔ size ≤ 0xFFFFFFFC := by
  constructor
  · rintro ⟨h', ptr, hmalloc, -, hfull⟩
    by_contra hbig
    obtain ⟨h'', hget, hne⟩ := osGetMem_nothing hr (requestSize_wraps hr.params hsize (Nat.lt_of_not_le hbig))
    rw [osmMalloc, hget] at hmalloc
    cases hmalloc
    exact hne (hfull (tooLarge_word hr (Nat.lt_of_not_le hbig))).2
  · intro hs
    obtain ⟨h', status, ptr, hget, hok, hfull⟩ := (getFits_iff hr hsize).mpr ⟨hs, fun _ h0 => by omega⟩
    refine ⟨h', if status = errNone then ptr else 0, by rw [osmMalloc, hget]; rfl, fun hne => ?_, fun hlarge => ?_⟩
    · have hstatus : status = errNone := by
        by_contra h
        exact hne (if_neg h)
      rw [if_pos hstatus]
      exact hok hstatus
    · exact ⟨if_neg (hfull hlarge).1, (hfull hlarge).2⟩

/-- `OSMCalloc` keeps to the product exactly when the word it computes for it can be rounded up and, if it is not the
product, no free block holds it. -/
theorem callocFits_iff (hr : PoolRep h osSystemMempool bs) (hmin : (h.pools osSystemMempool).minAllocation = 16) :
    CallocFits h data count size ↔ count * size % 2 ^ 32 ≤ 0xFFFFFFFC ∧
      (2 ^ 32 ≤ count * size → TooLarge h osSystemMempool (requestSize h osSystemMempool (count * size % 2 ^ 32))) := by
  have hword : count * size % 2 ^ 32 < 2 ^ 32 := Nat.mod_lt _ (by decide)
  have hle : count * size % 2 ^ 32 ≤ count * size := Nat.mod_le ..
  generalize hn : count * size % 2 ^ 32 = n at hword hle ⊢
  have hpos : n ≤ 0xFFFFFFFC → requestSize h osSystemMempool n ≠ 0 := fun hs h0 => by
    have := ((requestSize_zero hr.params hs).mp h0).2
    omega
  constructor
  · rintro ⟨h', data', ptr, hcalloc, -, hfull⟩
    rw [osmCalloc, hn] at hcalloc
    obtain ⟨⟨h₁, p⟩, hmalloc, hset⟩ := Option.bind_eq_some_iff.mp hcalloc
    -- the block that `OSMMalloc` found is the one returned
    have hsame : h₁ = h' ∧ p = ptr := by
      dsimp only at hset
      split at hset
      · obtain ⟨d, -, hd⟩ := Option.map_eq_some_iff.mp hset
        cases hd
        exact ⟨rfl, rfl⟩
      · cases hset
        exact ⟨rfl, rfl⟩
    obtain ⟨rfl, rfl⟩ := hsame
    have hs : n ≤ 0xFFFFFFFC := by
      by_contra hbig
      obtain ⟨h'', hget, hne⟩ := osGetMem_nothing hr (requestSize_wraps hr.params hword (Nat.lt_of_not_le hbig))
      rw [osmMalloc, hget] at hmalloc
      cases hmalloc
      exact hne (hfull (tooLarge_word hr (by omega))).2.1
    refine ⟨hs, fun hwrap => ?_⟩
    by_contra hroom
    obtain ⟨h'', x, hget, -⟩ := osGetMem_serves hr hs (fun h0 => absurd h0 (hpos hs)) hroom
    rw [osmMalloc, hget] at hmalloc
    cases hmalloc
    exact absurd (hfull (tooLarge_word hr (by omega))).1 (Nat.succ_ne_zero _)
  · rintro ⟨hs, hwrap⟩
    by_cases hprod : 2 ^ 32 ≤ count * size
    · have hmalloc : osmMalloc h n = some (h, 0) := by
        rw [osmMalloc, osGetMem_refuses hr (hpos hs) (hwrap hprod)]
        rfl
      refine ⟨h, data, 0, ?_, fun h0 => absurd rfl h0, fun _ => ⟨rfl, rfl, rfl⟩⟩
      rw [osmCalloc, hn, hmalloc]
      rfl
    · have heq : n = count * size := by omega
      obtain ⟨h', ptr, hmalloc, hok, hfull⟩ := (mallocFits_iff hr hmin hword).mpr hs
      by_cases hnull : ptr = 0
      · refine ⟨h', data, ptr, ?_, fun hne => absurd hnull hne, fun hlarge => ?_⟩
        · rw [osmCalloc, hn, hmalloc, Option.bind_some]
          exact if_neg (not_not_intro hnull)
        · exact ⟨hnull, (hfull (heq ▸ hlarge)).2, rfl⟩
      · have hgranted := hok hnull
        refine ⟨h', fun x => if ptr ≤ x ∧ x < ptr + n then 0 else data x, ptr, ?_,
          fun _ => ⟨heq ▸ hgranted, fun i hi => ?_⟩, fun hlarge => ?_⟩
        · have hset : memsetZero h' data ptr n = some fun x => if ptr ≤ x ∧ x < ptr + n then 0 else data x :=
            if_pos hgranted.large
          rw [osmCalloc, hn, hmalloc, Option.bind_some]
          exact (if_pos hnull).trans (by rw [hset, Option.map_some])
        · exact if_pos ⟨Nat.le_add_right .., by omega⟩
        · exact absurd (hfull (heq ▸ hlarge)).1 hnull

/-- **Sizes near the end of the words.** -/
theorem allocation_size (hr : PoolRep h pool bs) (hsize : size < 2 ^ 32) :
    (GetFits h pool size ↔ size ≤ 0xFFFFFFFC ∧ (size = 0 → (h.pools pool).minAllocation = 0 →
      (h.mem (h.pools pool).searchPtr).memoryFree = true)) ∧
    (pool = osSystemMempool → (h.pools pool).minAllocation = 16 → (MallocFits h size ↔ size ≤ 0xFFFFFFFC) ∧
      ∀ data count, CallocFits h data count size ↔ count * size % 2 ^ 32 ≤ 0xFFFFFFFC ∧
        (2 ^ 32 ≤ count * size → TooLarge h pool (requestSize h pool (count * size % 2 ^ 32)))) := by
  refine ⟨getFits_iff hr hsize, ?_⟩
  rintro rfl hmin
  exact ⟨mallocFits_iff hr hmin hsize, fun data count => callocFits_iff hr hmin⟩

end

/-- The heap after `OS_DMemInit`, with the pool at the start of the RAM. -/
def osDMemInit : Heap := osCreateMemoryPool blank osSystemMempool 0x20000000 (1024 * 20) 16

theorem osDMemInit_rep : PoolRep osDMemInit osSystemMempool [⟨1024 * 20 / 4 * 4 - 2 * dmOverhead, true⟩] :=
  create_rep (by decide) (by decide) (by decide) (by decide)

theorem osDMemInit_min : (osDMemInit.pools osSystemMempool).minAllocation = 16 := by
  rw [osDMemInit, create_pools]
  rfl

theorem allocation_size_words : MallocFits osDMemInit 4 ∧ CallocFits osDMemInit (fun _ => 1) 10 4 := by
  have hsys := (@allocation_size _ _ 4 _ osDMemInit_rep (by decide)).2 rfl osDMemInit_min
  exact ⟨hsys.1.mpr (by decide), (hsys.2 (fun _ => 1) 10).mpr ⟨by decide, fun h => absurd h (by decide)⟩⟩

/-- A request for all the words is served with a block of 16 bytes, as is one for `0x10000` times `0x10000` bytes. -/
theorem allocation_size_wraps : ¬MallocFits osDMemInit 0xFFFFFFFF ∧ ¬CallocFits osDMemInit (fun _ => 1) 0x10000 0x10000 := by
  constructor
  · rw [mallocFits_iff osDMemInit_rep osDMemInit_min (by decide)]
    decide
  · rw [callocFits_iff osDMemInit_rep osDMemInit_min]
    rintro ⟨-, hfull⟩
    have hrep := osDMemInit_rep
    have hlarge := hfull (by decide) _ ((isHeader_iff hrep).mpr (mid_mem_headers _ [] [] _))
    rw [fin_nil] at hlarge
    revert hlarge
    decide

end SerialNet.Dmem
