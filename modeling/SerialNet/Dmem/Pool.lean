import Mathlib.Algebra.Order.Ring.Nat
import Mathlib.Logic.Function.Basic

/-!
# The dynamic memory manager

`os_dmem.c`: pools of blocks, each with a `DM_HEADER` in front. Addresses and
sizes are 32-bit words; a header is a cell of the memory at its address and a
pool control block a cell of `pools`.
-/

namespace SerialNet.Dmem

def add32 (a b : Nat) : Nat := (a + b) % 2 ^ 32
def sub32 (a b : Nat) : Nat := (2 ^ 32 + a - b % 2 ^ 32) % 2 ^ 32

/-- `DM_OVERHEAD`: the size of a header, rounded up to words. -/
abbrev dmOverhead : Nat := 16

def errNone : Nat := 0
def errMemFull : Nat := 94

structure DmHeader where
  nextMemory : Nat
  previousMemory : Nat
  memoryFree : Bool
  memoryPool : Nat
  deriving DecidableEq, Repr

structure DmPcb where
  startAddress : Nat
  poolSize : Nat
  minAllocation : Nat
  available : Nat
  memoryList : Nat
  searchPtr : Nat
  deriving DecidableEq, Repr

structure Heap where
  pools : Nat → DmPcb
  mem : Nat → DmHeader

/-! ## Writes -/

def Heap.setHeader (h : Heap) (a : Nat) (f : DmHeader → DmHeader) : Heap :=
  { h with mem := Function.update h.mem a (f (h.mem a)) }

def Heap.setPool (h : Heap) (p : Nat) (f : DmPcb → DmPcb) : Heap :=
  { h with pools := Function.update h.pools p (f (h.pools p)) }

def Heap.setNext (h : Heap) (a v : Nat) : Heap := h.setHeader a fun x => { x with nextMemory := v }
def Heap.setPrevious (h : Heap) (a v : Nat) : Heap := h.setHeader a fun x => { x with previousMemory := v }
def Heap.setFree (h : Heap) (a : Nat) (v : Bool) : Heap := h.setHeader a fun x => { x with memoryFree := v }
def Heap.setOwner (h : Heap) (a p : Nat) : Heap := h.setHeader a fun x => { x with memoryPool := p }
def Heap.setAvailable (h : Heap) (p v : Nat) : Heap := h.setPool p fun x => { x with available := v }
def Heap.setSearch (h : Heap) (p v : Nat) : Heap := h.setPool p fun x => { x with searchPtr := v }

section
variable (h : Heap) (a v p : Nat) (f : DmHeader → DmHeader) (g : DmPcb → DmPcb)

theorem Heap.mem_setHeader (y : Nat) : (h.setHeader a f).mem y = if y = a then f (h.mem a) else h.mem y :=
  Function.update_apply ..

@[simp] theorem Heap.pools_setHeader : (h.setHeader a f).pools = h.pools := rfl

theorem Heap.pools_setPool (q : Nat) : (h.setPool p g).pools q = if q = p then g (h.pools p) else h.pools q :=
  Function.update_apply ..

theorem Heap.setHeader_comm {a b : Nat} (f g : DmHeader → DmHeader) (hab : a ≠ b) :
    (h.setHeader a f).setHeader b g = (h.setHeader b g).setHeader a f := by
  simp only [Heap.setHeader, Function.update_of_ne hab, Function.update_of_ne hab.symm]
  rw [Function.update_comm hab]

@[simp] theorem Heap.mem_setPool : (h.setPool p g).mem = h.mem := rfl

end

/-! ## Creating a pool -/

def roundUp (size : Nat) : Nat := add32 size 3 / 4 * 4

/-- `OS_Create_Memory_Pool`; argument checks are compiled out
(`OS_ARG_CHK_EN` is 0). -/
def osCreateMemoryPool (h : Heap) (pool start poolSize minAllocation : Nat) : Heap :=
  let poolSize := poolSize / 4 * 4
  let available := sub32 poolSize (2 * dmOverhead)
  let h := h.setPool pool fun _ =>
    { startAddress := start
      poolSize := poolSize
      minAllocation := roundUp minAllocation
      available := available
      memoryList := start
      searchPtr := start }
  let trailer := add32 (add32 start available) dmOverhead
  let h := h.setHeader start fun _ =>
    { memoryPool := pool, memoryFree := true, nextMemory := trailer, previousMemory := trailer }
  h.setHeader trailer fun _ =>
    { nextMemory := start, previousMemory := start, memoryPool := pool, memoryFree := false }

/-! ## Allocating -/

def freeSize (h : Heap) (p : Nat) : Nat :=
  if (h.mem p).memoryFree then sub32 (sub32 (h.mem p).nextMemory p) dmOverhead else 0

/-- The search loop of `OS_GetMem` from `p`, which ends at `start` at the
latest. The result is `memory_ptr` and `free_size`, or nothing when the fuel
runs out. -/
def searchLoop (h : Heap) (size start : Nat) : Nat → Nat → Option (Nat × Nat)
  | 0, _ => none
  | n + 1, p =>
    let free := freeSize h p
    if free < size then
      let next := (h.mem p).nextMemory
      if next ≠ start then searchLoop h size start n next else some (next, free)
    else some (p, free)

def requestSize (h : Heap) (pool size : Nat) : Nat :=
  if size < (h.pools pool).minAllocation then (h.pools pool).minAllocation else roundUp size

def splitBlock (h : Heap) (pool p size : Nat) : Heap :=
  let new := add32 (add32 p size) dmOverhead
  let h := h.setFree new true
  let h := h.setOwner new pool
  let h := h.setPrevious new p
  let h := h.setNext new (h.mem p).nextMemory
  let h := h.setPrevious (h.mem new).nextMemory new
  let h := h.setNext p new
  h.setAvailable pool (sub32 (sub32 (h.pools pool).available size) dmOverhead)

/-- The block at `p` with `free` bytes is cut when the rest makes a block. -/
def cutBlock (h : Heap) (pool p free size : Nat) : Heap :=
  if add32 (add32 size dmOverhead) (h.pools pool).minAllocation ≤ free then splitBlock h pool p size
  else h.setAvailable pool (sub32 (h.pools pool).available free)

def moveSearch (h : Heap) (pool p : Nat) : Heap :=
  if (h.pools pool).searchPtr = p then h.setSearch pool (h.mem p).nextMemory else h

def takeBlock (h : Heap) (pool p free size : Nat) : Heap :=
  moveSearch ((cutBlock h pool p free size).setFree p false) pool p

/-- `OS_GetMem`: the heap, the status and the returned pointer. The fuel bounds
the search; a pool never has more headers than bytes. -/
def osGetMem (h : Heap) (pool size : Nat) : Option (Heap × Nat × Nat) :=
  let size := requestSize h pool size
  let start := (h.pools pool).searchPtr
  (searchLoop h size start ((h.pools pool).poolSize + 1) start).map fun (p, free) =>
    if size ≤ free then (takeBlock h pool p free size, errNone, add32 p dmOverhead)
    else (h, errMemFull, 0)

/-! ## Freeing -/

def mergeNext (h : Heap) (pool p : Nat) : Heap :=
  let h := h.setAvailable pool (add32 (h.pools pool).available dmOverhead)
  let new := (h.mem p).nextMemory
  let h := h.setPrevious (h.mem new).nextMemory p
  let h := h.setNext p (h.mem new).nextMemory
  h.setSearch pool p

def mergePrevious (h : Heap) (pool p : Nat) : Heap :=
  let h := h.setAvailable pool (add32 (h.pools pool).available dmOverhead)
  let h := h.setNext (h.mem p).previousMemory (h.mem p).nextMemory
  let h := h.setPrevious (h.mem p).nextMemory (h.mem p).previousMemory
  h.setSearch pool (h.mem p).previousMemory

def markFree (h : Heap) (pool p : Nat) : Heap :=
  let h := h.setFree p true
  h.setAvailable pool (sub32 (add32 (h.pools pool).available (sub32 (h.mem p).nextMemory p)) dmOverhead)

def joinPrevious (h : Heap) (pool p : Nat) : Heap × Nat :=
  if (h.mem (h.mem p).previousMemory).memoryFree then (mergePrevious h pool p, (h.mem p).previousMemory) else (h, p)

def joinNext (h : Heap) (pool p : Nat) : Heap :=
  if (h.mem (h.mem p).nextMemory).memoryFree then mergeNext h pool p else h

def osFreeMem (h : Heap) (memory : Nat) : Heap :=
  let p := sub32 memory dmOverhead
  let pool := (h.mem p).memoryPool
  let joined := joinPrevious (markFree h pool p) pool p
  joinNext joined.1 pool joined.2

end SerialNet.Dmem
