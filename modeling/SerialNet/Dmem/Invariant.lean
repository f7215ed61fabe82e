import SerialNet.Dmem.Alloc
import SerialNet.Dmem.Free
import SerialNet.Lib.Run

/-!
# Runs of a pool

Any sequence of allocations and of frees of live blocks keeps the headers a
circular list that tiles the pool, with no two free neighbours, as long as no
allocation meets the two conditions of `SafeGet`.
-/

namespace SerialNet.Dmem

open Blocks Run

/-! ## Creation -/

section
variable (h : Heap) (pool start poolSize minAllocation : Nat)

theorem roundUp_aligned (size : Nat) : roundUp size % 4 = 0 := Nat.mul_mod_left ..

def freshPool (start poolSize minAllocation : Nat) : DmPcb where
  startAddress := start
  poolSize := poolSize / 4 * 4
  minAllocation := roundUp minAllocation
  available := sub32 (poolSize / 4 * 4) (2 * dmOverhead)
  memoryList := start
  searchPtr := start

theorem create_pools :
    (osCreateMemoryPool h pool start poolSize minAllocation).pools pool = freshPool start poolSize minAllocation := by
  simp [osCreateMemoryPool, Heap.pools_setPool, freshPool]

variable {h pool start poolSize minAllocation}

theorem create_rep (halign : start % 4 = 0) (hsize : poolSize < 2 ^ 32)
    (hroom : 2 * dmOverhead + roundUp minAllocation ≤ poolSize) (hfits : start + poolSize ≤ 2 ^ 32) :
    PoolRep (osCreateMemoryPool h pool start poolSize minAllocation) pool
      [⟨poolSize / 4 * 4 - 2 * dmOverhead, true⟩] := by
  have hov : dmOverhead = 16 := rfl
  have hmin := roundUp_aligned minAllocation
  have havail : sub32 (poolSize / 4 * 4) (2 * dmOverhead) = poolSize / 4 * 4 - 2 * dmOverhead :=
    sub32_of_le (by omega) (by omega)
  have htop : add32 (add32 start (poolSize / 4 * 4 - 2 * dmOverhead)) dmOverhead = start + poolSize / 4 * 4 - dmOverhead := by
    rw [add32_of_lt (by omega : start + (poolSize / 4 * 4 - 2 * dmOverhead) < 2 ^ 32), add32_of_lt (by omega)]; omega
  have hne : start ≠ start + poolSize / 4 * 4 - dmOverhead := by omega
  have hmem : ∀ x, (osCreateMemoryPool h pool start poolSize minAllocation).mem x =
      if x = start + poolSize / 4 * 4 - dmOverhead then
        { nextMemory := start, previousMemory := start, memoryPool := pool, memoryFree := false }
      else if x = start then
        { memoryPool := pool, memoryFree := true, nextMemory := start + poolSize / 4 * 4 - dmOverhead
          previousMemory := start + poolSize / 4 * 4 - dmOverhead }
      else h.mem x := by
    intro x
    simp only [osCreateMemoryPool, Heap.mem_setHeader, Heap.mem_setPool, havail, htop]
  have hnext : start + dmOverhead + (poolSize / 4 * 4 - 2 * dmOverhead) = start + poolSize / 4 * 4 - dmOverhead := by omega
  constructor
  · rw [create_pools]
    exact ⟨rfl, halign, Nat.mul_mod_left .., hmin, by simp only [freshPool]; omega, by simp only [freshPool]; omega⟩
  · rw [create_pools]
    refine ⟨?_, hnext, ?_⟩
    · simp only [hmem, freshPool, hnext, if_neg hne, if_true, trailer]
    · simp only [hmem, freshPool, hnext, if_true]
  · rw [create_pools]
    simp only [freshPool, havail, freeBytes_cons, freeBytes_nil, if_true, Nat.add_zero]
  · rw [create_pools]
    exact List.mem_append_left _ List.mem_cons_self
  · intro b hb
    rw [List.mem_singleton.mp hb]
    dsimp only; omega

end

/-! ## Steps -/

inductive Op where
  | get (size : Nat)
  | free (memory : Nat)

/-- The heap, and the payloads handed out and not yet freed. -/
structure PoolState where
  heap : Heap
  live : List Nat

def step (pool : Nat) (s : PoolState) : Op → PoolState
  | .get size =>
    match osGetMem s.heap pool size with
    | some (h, status, ptr) => if status = errNone then ⟨h, ptr :: s.live⟩ else ⟨h, s.live⟩
    | none => s
  | .free memory => ⟨osFreeMem s.heap memory, s.live.erase memory⟩

/-- A request is a word of at most `0xFFFFFFFC`, a freed block is live. -/
def Allowed (s : PoolState) : Op → Prop
  | .get size => size ≤ 0xFFFFFFFC
  | .free memory => memory ∈ s.live

instance : ∀ s op, Decidable (Allowed s op)
  | _, .get size => inferInstanceAs (Decidable (size ≤ 0xFFFFFFFC))
  | s, .free memory => inferInstanceAs (Decidable (memory ∈ s.live))

def Safe (pool : Nat) (s : PoolState) : Op → Prop
  | .get size => SafeGet s.heap pool size
  | .free _ => True

structure HeapInv (p₀ : DmPcb) (pool : Nat) (s : PoolState) (bs : List Blk) : Prop where
  same : SamePool p₀ (s.heap.pools pool)
  rep : PoolRep s.heap pool bs
  noAdjFree : NoAdjFree bs
  live : s.live.Perm (Blocks.live dmOverhead p₀.startAddress bs)

section
variable {p₀ : DmPcb} {pool : Nat} {s : PoolState} {bs : List Blk}

theorem get_cases {size : Nat} (hi : HeapInv p₀ pool s bs) (hs : size ≤ 0xFFFFFFFC) (hsafe : SafeGet s.heap pool size) :
    ∃ h status ptr bs', osGetMem s.heap pool size = some (h, status, ptr) ∧
      GetOutcome s.heap pool size bs h status ptr bs' ∧ HeapInv p₀ pool (step pool s (.get size)) bs' := by
  obtain ⟨h, status, ptr, bs', hget, hout⟩ := osGetMem_cases hi.rep hs hsafe
  refine ⟨h, status, ptr, bs', hget, hout, ?_⟩
  simp only [step, hget]
  cases hout with
  | full _ => exact { hi with }
  | take h pre post rest b n hbs hb hn hrest hr hsame =>
    have hfree : NoAdjFree (pre ++ ⟨n, false⟩ :: (rest ++ post)) := by
      have hno := hi.noAdjFree
      rw [hbs] at hno
      obtain ⟨rfl, _⟩ | ⟨m, rfl, _⟩ := hrest
      · exact noAdjFree_use hno rfl
      · exact noAdjFree_split hno hb rfl
    rw [if_pos rfl]
    refine ⟨hi.same.trans hsame, hr, hfree, ?_⟩
    have hlive := hi.live
    rw [hbs] at hlive
    rw [hi.same.start]
    have hrestLive : Blocks.live dmOverhead (fin dmOverhead p₀.startAddress pre + dmOverhead + n) (rest ++ post) =
        Blocks.live dmOverhead (fin dmOverhead p₀.startAddress pre + dmOverhead + b.size) post := by
      obtain ⟨rfl, rfl⟩ | ⟨m, rfl, hm⟩ := hrest
      · rfl
      · rw [← hm]
        simp only [List.singleton_append, Blocks.live, if_true, List.nil_append, Nat.add_assoc]
    rw [live_append, Blocks.live, hrestLive]
    rw [live_append, Blocks.live, hb, if_pos rfl, List.nil_append] at hlive
    exact (hlive.cons _).trans List.perm_middle.symm

theorem inv_step (hi : HeapInv p₀ pool s bs) {op : Op} (ha : Allowed s op) (hsafe : Safe pool s op) :
    ∃ bs', HeapInv p₀ pool (step pool s op) bs' := by
  cases op with
  | get size =>
    obtain ⟨_, _, _, bs', _, _, h⟩ := get_cases hi ha hsafe
    exact ⟨bs', h⟩
  | free memory =>
    obtain ⟨pre, b, post, rfl, hb, hm⟩ := (mem_live dmOverhead).mp (hi.live.mem_iff.mp ha)
    obtain ⟨bs', hr, hsame, hno, hlive⟩ := osFreeMem_rep hi.rep hb hi.noAdjFree (m := memory)
      (by rw [hm, hi.same.start])
    simp only [step]
    generalize osFreeMem s.heap memory = h' at hr hsame ⊢
    refine ⟨bs', hi.same.trans hsame, hr, hno, ?_⟩
    rw [hi.same.start] at hlive
    have herase := hi.live.erase memory
    rw [hlive, live_append, Blocks.live, if_pos rfl, List.nil_append]
    rw [live_append, Blocks.live, hb, if_neg (by decide), ← hm, List.singleton_append] at herase
    refine (herase.trans (List.perm_middle.erase memory)).trans ?_
    rw [List.erase_cons_head, hm]

end

/-! ## What an allocation returns -/

def payloadSize (h : Heap) (memory : Nat) : Nat := (h.mem (memory - dmOverhead)).nextMemory - memory

/-- The heap in the words of its headers. -/
structure HeapShape (h : Heap) (pool : Nat) (bs : List Blk) : Prop where
  rep : PoolRep h pool bs
  inverse : ∀ x, IsHeader h pool x →
    (h.mem (h.mem x).nextMemory).previousMemory = x ∧ (h.mem (h.mem x).previousMemory).nextMemory = x
  noAdjFree : NoAdjFree bs

/-- `OS_GetMem` fails exactly when no free block is large enough, and a returned
block is aligned, inside the pool, large enough and apart from every live one. -/
structure GetSpec (s : PoolState) (pool size : Nat) (h : Heap) (status ptr : Nat) : Prop where
  full : status ≠ errNone ↔ ¬∃ x, IsHeader s.heap pool x ∧ (s.heap.mem x).memoryFree = true ∧
    requestSize s.heap pool size ≤ freeSize s.heap x
  aligned : status = errNone → ptr % 4 = 0
  inside : status = errNone → (s.heap.pools pool).startAddress + dmOverhead ≤ ptr ∧
    ptr + payloadSize h ptr ≤ trailer (s.heap.pools pool)
  large : status = errNone → max size (s.heap.pools pool).minAllocation ≤ payloadSize h ptr
  apart : status = errNone → ∀ q ∈ s.live, ptr + payloadSize h ptr ≤ q ∨ q + payloadSize h q ≤ ptr

section
variable {p₀ : DmPcb} {pool : Nat} {s : PoolState} {h : Heap} {bs pre post : List Blk} {b : Blk}

theorem HeapInv.shape (hi : HeapInv p₀ pool s bs) : HeapShape s.heap pool bs where
  rep := hi.rep
  inverse := fun _ hx => links_inverse hi.rep ((isHeader_iff hi.rep).mp hx)
  noAdjFree := hi.noAdjFree

theorem payloadSize_block (hr : PoolRep h pool (pre ++ b :: post)) :
    payloadSize h (fin dmOverhead (h.pools pool).startAddress pre + dmOverhead) = b.size := by
  unfold payloadSize
  rw [Nat.add_sub_cancel, layout_mid hr.layout]
  dsimp only; omega

theorem fin_aligned (hal : ∀ b ∈ bs, b.size % 4 = 0) : ∀ {a}, a % 4 = 0 → fin dmOverhead a bs % 4 = 0 := by
  induction bs with
  | nil => intro a ha; exact ha
  | cons b bs ih =>
    intro a ha
    have hb := hal b List.mem_cons_self
    refine ih (fun c hc => hal c (List.mem_cons_of_mem b hc)) ?_
    unfold dmOverhead; omega

theorem live_block {q : Nat} (hi : HeapInv p₀ pool s bs) (hq : q ∈ s.live) :
    ∃ pre b post, bs = pre ++ b :: post ∧ b.free = false ∧ q = fin dmOverhead (s.heap.pools pool).startAddress pre + dmOverhead := by
  rw [hi.same.start]
  exact (mem_live dmOverhead).mp (hi.live.mem_iff.mp hq)

theorem live_apart {q q' : Nat} (hi : HeapInv p₀ pool s bs) (hq : q ∈ s.live) (hq' : q' ∈ s.live) (hne : q ≠ q') :
    q + payloadSize s.heap q ≤ q' ∨ q' + payloadSize s.heap q' ≤ q := by
  obtain ⟨pre, b, post, hbs, _, rfl⟩ := live_block hi hq
  obtain ⟨pre', b', post', hbs', _, rfl⟩ := live_block hi hq'
  have hsize := payloadSize_block (hbs ▸ hi.rep)
  have hsize' := payloadSize_block (hbs' ▸ hi.rep)
  rw [hsize, hsize']
  obtain ⟨rfl, _⟩ | h | h := block_apart dmOverhead (a := (s.heap.pools pool).startAddress) hbs hbs'
  · exact absurd rfl hne
  · left; omega
  · right; omega

theorem get_spec {size : Nat} (hi : HeapInv p₀ pool s bs) (hs : size ≤ 0xFFFFFFFC) (hsafe : SafeGet s.heap pool size) :
    ∃ h status ptr, osGetMem s.heap pool size = some (h, status, ptr) ∧ GetSpec s pool size h status ptr := by
  obtain ⟨h, status, ptr, bs', hget, hout, hi'⟩ := get_cases hi hs hsafe
  refine ⟨h, status, ptr, hget, ?_⟩
  have hmax := (requestSize_spec hi.rep.params hs).2
  have hrep := hi.rep
  cases hout with
  | full hall =>
    refine ⟨⟨fun _ ⟨x, hx, _, hle⟩ => absurd (hall x hx) (by omega), fun _ => by decide⟩, ?_, ?_, ?_, ?_⟩
    all_goals intro e; exact absurd e (by decide)
  | take h pre post rest b n hbs hb hn hrest hr hsame =>
    set ptr := fin dmOverhead (s.heap.pools pool).startAddress pre + dmOverhead with hptr
    have hsize : payloadSize h ptr = n := by
      rw [hptr, ← hsame.start]; exact payloadSize_block hr
    have hend : ptr + n ≤ trailer (s.heap.pools pool) := by
      have := block_end_le hr
      unfold trailer at this ⊢
      rw [hsame.start, hsame.size] at this
      exact this
    rw [hbs] at hrep
    have hfound : ∃ x, IsHeader s.heap pool x ∧ (s.heap.mem x).memoryFree = true ∧
        requestSize s.heap pool size ≤ freeSize s.heap x := by
      refine ⟨_, (isHeader_iff hrep).mpr (mid_mem_headers _ pre post b), ?_, ?_⟩
      · rw [layout_mid hrep.layout]; exact hb
      · rw [freeSize_block hrep, if_pos hb]
        obtain ⟨_, rfl⟩ | ⟨m, _, hm⟩ := hrest <;> omega
    refine ⟨⟨fun e => absurd rfl e, fun hno => absurd hfound hno⟩, fun _ => ?_, fun _ => ?_, fun _ => ?_,
      fun _ q hq => ?_⟩
    · have : fin dmOverhead (s.heap.pools pool).startAddress pre % 4 = 0 :=
        fin_aligned (fun c hc => hrep.aligned c (List.mem_append_left _ hc)) hrep.params.start_aligned
      rw [hptr]
      unfold dmOverhead at *; omega
    · have := le_fin dmOverhead pre (s.heap.pools pool).startAddress
      rw [hsize]; omega
    · rw [hsize]; omega
    · simp only [step, hget, if_true] at hi'
      have hnd := hi'.live.nodup_iff.mpr (nodup_live dmOverhead (by decide) _ _)
      have hne : ptr ≠ q := fun e => (List.nodup_cons.mp hnd).1 (e ▸ hq)
      exact live_apart (s := ⟨h, ptr :: s.live⟩) hi' List.mem_cons_self (List.mem_cons_of_mem ptr hq) hne

end

/-! ## Runs -/

def initial (h : Heap) (pool start poolSize minAllocation : Nat) : PoolState :=
  ⟨osCreateMemoryPool h pool start poolSize minAllocation, []⟩

section
variable {h : Heap} {pool start poolSize minAllocation : Nat}

theorem inv_initial (h : Heap) (pool : Nat) (halign : start % 4 = 0) (hsize : poolSize < 2 ^ 32)
    (hroom : 2 * dmOverhead + roundUp minAllocation ≤ poolSize) (hfits : start + poolSize ≤ 2 ^ 32) :
    HeapInv (freshPool start poolSize minAllocation) pool (initial h pool start poolSize minAllocation)
      [⟨poolSize / 4 * 4 - 2 * dmOverhead, true⟩] where
  same := by rw [initial, create_pools]; exact ⟨rfl, rfl, rfl, rfl⟩
  rep := create_rep halign hsize hroom hfits
  noAdjFree := List.isChain_singleton _
  live := by rw [Blocks.live, if_pos rfl]; exact List.Perm.refl _

theorem inv_run {p₀ : DmPcb} {s : PoolState} {bs : List Blk} (hi : HeapInv p₀ pool s bs) {ops : List Op}
    (hm : Meets (step pool) (fun s op => Allowed s op ∧ Safe pool s op) s ops) :
    ∃ bs', HeapInv p₀ pool (run (step pool) s ops) bs' :=
  inv_of_meets (I := fun s => ∃ bs, HeapInv p₀ pool s bs) (fun _ _ ⟨_, hi⟩ hg => inv_step hi hg.1 hg.2) s ops ⟨bs, hi⟩ hm

theorem single_of_freed {p₀ : DmPcb} {s : PoolState} {bs : List Blk} (hi : HeapInv p₀ pool s bs) (hl : s.live = []) :
    bs = [⟨p₀.poolSize - 2 * dmOverhead, true⟩] := by
  have hlive := hi.live
  rw [hl] at hlive
  have hfin := hi.rep.fin_eq
  have hroom := hi.rep.params.room
  unfold trailer dmOverhead at *
  rw [hi.same.start, hi.same.size] at hfin
  rw [hi.same.size] at hroom
  obtain rfl | ⟨n, rfl⟩ := single_of_live_nil 16 hi.noAdjFree hlive.nil_eq.symm
  · rw [fin_nil] at hfin; omega
  · rw [fin_cons, fin_nil] at hfin
    dsimp only at hfin
    rw [show n = p₀.poolSize - 2 * 16 by omega]

/-- **A pool over any run.** The headers tile the pool as a circular doubly
linked list, the next allocation fails only for want of a large enough free
block, and a pool with everything freed is the single block it started as. -/
theorem pool_run (halign : start % 4 = 0) (hsize : poolSize < 2 ^ 32)
    (hroom : 2 * dmOverhead + roundUp minAllocation ≤ poolSize) (hfits : start + poolSize ≤ 2 ^ 32) {ops : List Op}
    (hm : Meets (step pool) (fun s op => Allowed s op ∧ Safe pool s op)
      (initial h pool start poolSize minAllocation) ops) :
    (∃ bs, HeapShape (run (step pool) (initial h pool start poolSize minAllocation) ops).heap pool bs ∧
      (run (step pool) (initial h pool start poolSize minAllocation) ops).live.Perm (live dmOverhead start bs)) ∧
    (∀ size, size ≤ 0xFFFFFFFC →
      SafeGet (run (step pool) (initial h pool start poolSize minAllocation) ops).heap pool size →
      ∃ h' status ptr,
        osGetMem (run (step pool) (initial h pool start poolSize minAllocation) ops).heap pool size =
          some (h', status, ptr) ∧
        GetSpec (run (step pool) (initial h pool start poolSize minAllocation) ops) pool size h' status ptr) ∧
    ((run (step pool) (initial h pool start poolSize minAllocation) ops).live = [] →
      HeapShape (run (step pool) (initial h pool start poolSize minAllocation) ops).heap pool
        [⟨poolSize / 4 * 4 - 2 * dmOverhead, true⟩] ∧
      ((run (step pool) (initial h pool start poolSize minAllocation) ops).heap.pools pool).available =
        ((initial h pool start poolSize minAllocation).heap.pools pool).available) := by
  have hi₀ := inv_initial h pool halign hsize hroom hfits
  obtain ⟨bs, hi⟩ := inv_run hi₀ hm
  refine ⟨⟨bs, hi.shape, hi.live⟩, fun size hs hsafe => get_spec hi hs hsafe, fun hl => ?_⟩
  obtain rfl := single_of_freed hi hl
  exact ⟨hi.shape, hi.rep.available.trans hi₀.rep.available.symm⟩

end

def blank : Heap where
  pools := fun _ =>
    { startAddress := 0, poolSize := 0, minAllocation := 0, available := 0, memoryList := 0, searchPtr := 0 }
  mem := fun _ => { nextMemory := 0, previousMemory := 0, memoryFree := false, memoryPool := 0 }

theorem pool_run_sample :
    ∃ bs, HeapShape (run (step 0) (initial blank 0 0x1000 256 8)
      [.get 20, .get 4, .free 0x1010, .get 40, .free 0x1034]).heap 0 bs := by
  have hm : Meets (step 0) (fun s op => Allowed s op ∧ Safe 0 s op) (initial blank 0 0x1000 256 8)
      [.get 20, .get 4, .free 0x1010, .get 40, .free 0x1034] := by
    refine ⟨⟨by decide, ?_⟩, ⟨by decide, ?_⟩, ⟨by decide, trivial⟩, ⟨by decide, ?_⟩, ⟨by decide, trivial⟩, trivial⟩
    all_goals exact ⟨fun h => absurd h (by decide), fun h => absurd h (by decide)⟩
  exact (pool_run (by decide) (by decide) (by decide) (by decide) hm).1.imp fun _ h => h.1

/-- A request for nothing from a pool with minimum 0 is served from the trailer. -/
theorem trailer_handed_out :
    ∃ ops, Meets (step 0) Allowed (initial blank 0 0x1000 64 0) ops ∧
      ¬∃ bs, HeapShape (run (step 0) (initial blank 0 0x1000 64 0) ops).heap 0 bs := by
  refine ⟨[.get 32, .get 0, .free 0x1040], by decide, fun ⟨bs, h⟩ => ?_⟩
  have hused := (layout_trailer h.rep.layout).2
  revert hused
  decide

end SerialNet.Dmem
