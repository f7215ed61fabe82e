import Mathlib.Algebra.Order.Ring.Nat
import SerialNet.Lib.Headers

/-!
# The heap of lwIP

`mem.c` with a heap of 8 KiB, on the bytes of the heap. A pointer is an offset
from `ram`, which is aligned; `none` is the null pointer. The mutex makes each
call one step.
-/

namespace SerialNet.Mem

open Blocks (Header)

def minSizeAligned : Nat := 12
def sizeofStructMem : Nat := 8
def memSizeAligned : Nat := 8192

/-- `LWIP_MEM_ALIGN_SIZE`, kept in a `mem_size_t`. -/
def alignSize (size : Nat) : Nat := (size + 3) / 4 * 4 % 65536

/-- The size that is looked for: a multiple of four, at least `MIN_SIZE_ALIGNED`. -/
def request (size : Nat) : Nat := if alignSize size < minSizeAligned then minSizeAligned else alignSize size

structure Heap where
  ram : Nat → UInt8
  lfree : Nat

/-! ## struct mem -/

section
variable (h : Heap) (a v : Nat)

/-- A `mem_size_t` in memory, low byte first. -/
def Heap.word : Nat := (h.ram a).toNat + 256 * (h.ram (a + 1)).toNat

def Heap.setWord : Heap :=
  { h with ram := fun x => if x = a then UInt8.ofNat v else if x = a + 1 then UInt8.ofNat (v / 256) else h.ram x }

def Heap.next : Nat := h.word a
def Heap.prev : Nat := h.word (a + 2)
def Heap.used : UInt8 := h.ram (a + 4)

def Heap.setNext : Heap := h.setWord a v
def Heap.setPrev : Heap := h.setWord (a + 2) v
def Heap.setUsed (u : UInt8) : Heap := { h with ram := fun x => if x = a + 4 then u else h.ram x }
def Heap.setLfree : Heap := { h with lfree := v }

def Heap.header : Header := ⟨h.next a, h.prev a, h.used a == 0⟩

end

/-! ## plug_holes -/

section
variable (h : Heap) (mem : Nat)

/-- `mem` takes over `nmem`, the struct after it. -/
def absorb (nmem : Nat) : Heap :=
  let h := h.setNext mem (h.next nmem)
  h.setPrev (h.next nmem) mem

def plugForward : Heap :=
  let nmem := h.next mem
  if mem ≠ nmem ∧ h.used nmem = 0 ∧ nmem ≠ memSizeAligned then
    absorb (if h.lfree = nmem then h.setLfree mem else h) mem nmem
  else h

def plugBackward : Heap :=
  let pmem := h.prev mem
  if pmem ≠ mem ∧ h.used pmem = 0 then absorb (if h.lfree = mem then h.setLfree pmem else h) pmem mem else h

def plugHoles : Heap := plugBackward (plugForward h mem) mem

end

/-! ## The interface -/

def memInit (ram : Nat → UInt8) : Heap :=
  let h : Heap := ⟨ram, 0⟩
  let h := ((h.setNext 0 memSizeAligned).setPrev 0 0).setUsed 0 0
  ((h.setUsed memSizeAligned 1).setNext memSizeAligned memSizeAligned).setPrev memSizeAligned memSizeAligned

section
variable (h : Heap)

def memFree (rmem : Option Nat) : Heap :=
  match rmem with
  | none => h
  | some rmem =>
    if memSizeAligned ≤ rmem then h
    else
      let mem := rmem - sizeofStructMem
      let h := h.setUsed mem 0
      plugHoles (if mem < h.lfree then h.setLfree mem else h) mem

def newMem (mem2 next prev : Nat) : Heap := ((h.setUsed mem2 0).setNext mem2 next).setPrev mem2 prev

/-- The struct after `mem2` learns where it is; `ram_end` does not. -/
def linkBack (mem2 : Nat) : Heap := if h.next mem2 ≠ memSizeAligned then h.setPrev (h.next mem2) mem2 else h

def memTrim (rmem newsize : Nat) : Heap × Option Nat :=
  let newsize := request newsize
  if memSizeAligned < newsize then (h, none)
  else if memSizeAligned ≤ rmem then (h, some rmem)
  else
    let ptr := rmem - sizeofStructMem
    let size := (h.next ptr + 65536 - ptr - sizeofStructMem) % 65536
    if size < newsize then (h, none)
    else if newsize = size then (h, some rmem)
    else
      let mem2 := h.next ptr
      let ptr2 := (ptr + sizeofStructMem + newsize) % 65536
      if h.used mem2 = 0 then
        let next := h.next mem2
        let h := if h.lfree = mem2 then h.setLfree ptr2 else h
        (linkBack ((newMem h ptr2 next ptr).setNext ptr ptr2) ptr2, some rmem)
      else if newsize + sizeofStructMem + minSizeAligned ≤ size then
        let h := if ptr2 < h.lfree then h.setLfree ptr2 else h
        (linkBack ((newMem h ptr2 (h.next ptr) ptr).setNext ptr ptr2) ptr2, some rmem)
      else (h, some rmem)

def userSize (ptr : Nat) : Nat := (h.next ptr + 2 ^ 32 - (ptr + sizeofStructMem)) % 2 ^ 32

/-- The scan of `mem_malloc`: `none` when it does not end. -/
def findMem (size : Nat) : Nat → Nat → Option (Option Nat)
  | 0, _ => none
  | n + 1, ptr =>
    if ptr < memSizeAligned - size then
      if h.used ptr = 0 ∧ size ≤ userSize h ptr then some (some ptr) else findMem size n (h.next ptr)
    else some none

/-- The walk to the next unused struct: `none` when it does not end. -/
def findFree : Nat → Nat → Option Nat
  | 0, _ => none
  | n + 1, cur => if h.used cur ≠ 0 ∧ cur ≠ memSizeAligned then findFree n (h.next cur) else some cur

/-- Split the struct at `ptr` or take it whole. -/
def takeMem (ptr size : Nat) : Heap :=
  if size + sizeofStructMem + minSizeAligned ≤ userSize h ptr then
    let ptr2 := (ptr + sizeofStructMem + size) % 65536
    linkBack (((newMem h ptr2 (h.next ptr) ptr).setNext ptr ptr2).setUsed ptr 1) ptr2
  else h.setUsed ptr 1

def adjustLfree (mem : Nat) : Option (Heap × Option Nat) :=
  if mem = h.lfree then
    (findFree h (memSizeAligned + 1) h.lfree).map fun cur => (h.setLfree cur, some (mem + sizeofStructMem))
  else some (h, some (mem + sizeofStructMem))

/-- The heap and the pointer, `none` when a walk does not end. -/
def memMalloc (size : Nat) : Option (Heap × Option Nat) :=
  if size = 0 then some (h, none)
  else
    let size := request size
    if memSizeAligned < size then some (h, none)
    else
      (findMem h size (memSizeAligned + 1) h.lfree).bind fun found =>
        match found with
        | none => some (h, none)
        | some mem => adjustLfree (takeMem h mem size) mem

end

/-! ## Headers in bytes -/

section
variable {h : Heap} {a b v : Nat} {u : UInt8}

@[simp] theorem setWord_lfree : (h.setWord a v).lfree = h.lfree := rfl
@[simp] theorem setNext_lfree : (h.setNext a v).lfree = h.lfree := rfl
@[simp] theorem setPrev_lfree : (h.setPrev a v).lfree = h.lfree := rfl
@[simp] theorem setUsed_lfree : (h.setUsed a u).lfree = h.lfree := rfl
@[simp] theorem setLfree_lfree : (h.setLfree v).lfree = v := rfl
@[simp] theorem setLfree_ram : (h.setLfree v).ram = h.ram := rfl
@[simp] theorem setLfree_header : (h.setLfree v).header = h.header := rfl

@[simp] theorem word_setWord_same : (h.setWord a v).word a = v % 65536 := by
  simp [Heap.word, Heap.setWord]
  omega

theorem word_setWord_ne (hne : a + 2 ≤ b ∨ b + 2 ≤ a) : (h.setWord a v).word b = h.word b := by
  have h1 : b ≠ a := by omega
  have h2 : b ≠ a + 1 := by omega
  have h3 : b + 1 ≠ a := by omega
  simp [Heap.word, Heap.setWord, h1, h2, h3]

theorem ram_setWord_ne (h1 : b ≠ a) (h2 : b ≠ a + 1) : (h.setWord a v).ram b = h.ram b := by
  simp [Heap.setWord, h1, h2]

theorem word_setUsed_ne (h1 : b ≠ a + 4) (h2 : b + 1 ≠ a + 4) : (h.setUsed a u).word b = h.word b := by
  unfold Heap.word Heap.setUsed
  dsimp only
  rw [if_neg h1, if_neg h2]

def Apart (a b : Nat) : Prop := a + 8 ≤ b ∨ b + 8 ≤ a

theorem header_setNext : (h.setNext a v).header a = { h.header a with next := v % 65536 } := by
  have hprev : (h.setWord a v).word (a + 2) = h.word (a + 2) := word_setWord_ne (by omega)
  have hused : (h.setWord a v).ram (a + 4) = h.ram (a + 4) := ram_setWord_ne (by omega) (by omega)
  simp [Heap.header, Heap.setNext, Heap.next, Heap.prev, Heap.used, hprev, hused]

theorem header_setPrev : (h.setPrev a v).header a = { h.header a with prev := v % 65536 } := by
  have hnext : (h.setWord (a + 2) v).word a = h.word a := word_setWord_ne (by omega)
  have hused : (h.setWord (a + 2) v).ram (a + 4) = h.ram (a + 4) := ram_setWord_ne (by omega) (by omega)
  simp [Heap.header, Heap.setPrev, Heap.next, Heap.prev, Heap.used, hnext, hused]

theorem header_setUsed : (h.setUsed a u).header a = { h.header a with free := u == 0 } := by
  have hnext : (h.setUsed a u).word a = h.word a := word_setUsed_ne (by omega) (by omega)
  have hprev : (h.setUsed a u).word (a + 2) = h.word (a + 2) := word_setUsed_ne (by omega) (by omega)
  have hused : (h.setUsed a u).ram (a + 4) = u := if_pos rfl
  simp [Heap.header, Heap.next, Heap.prev, Heap.used, hnext, hprev, hused]

theorem header_setNext_apart (hab : Apart a b) : (h.setNext a v).header b = h.header b := by
  unfold Apart at hab
  have hnext : (h.setWord a v).word b = h.word b := word_setWord_ne (by omega)
  have hprev : (h.setWord a v).word (b + 2) = h.word (b + 2) := word_setWord_ne (by omega)
  have hused : (h.setWord a v).ram (b + 4) = h.ram (b + 4) := ram_setWord_ne (by omega) (by omega)
  simp [Heap.header, Heap.setNext, Heap.next, Heap.prev, Heap.used, hnext, hprev, hused]

theorem header_setPrev_apart (hab : Apart a b) : (h.setPrev a v).header b = h.header b := by
  unfold Apart at hab
  have hnext : (h.setWord (a + 2) v).word b = h.word b := word_setWord_ne (by omega)
  have hprev : (h.setWord (a + 2) v).word (b + 2) = h.word (b + 2) := word_setWord_ne (by omega)
  have hused : (h.setWord (a + 2) v).ram (b + 4) = h.ram (b + 4) := ram_setWord_ne (by omega) (by omega)
  simp [Heap.header, Heap.setPrev, Heap.next, Heap.prev, Heap.used, hnext, hprev, hused]

theorem header_setUsed_apart (hab : Apart a b) : (h.setUsed a u).header b = h.header b := by
  unfold Apart at hab
  have hnext : (h.setUsed a u).word b = h.word b := word_setUsed_ne (by omega) (by omega)
  have hprev : (h.setUsed a u).word (b + 2) = h.word (b + 2) := word_setUsed_ne (by omega) (by omega)
  have hne : b + 4 ≠ a + 4 := by omega
  have hused : (h.setUsed a u).ram (b + 4) = h.ram (b + 4) := if_neg hne
  simp [Heap.header, Heap.next, Heap.prev, Heap.used, hnext, hprev, hused]

theorem next_eq (h : Heap) (a : Nat) : h.next a = (h.header a).next := rfl
theorem prev_eq (h : Heap) (a : Nat) : h.prev a = (h.header a).prev := rfl

theorem used_iff : h.used a = 0 ↔ (h.header a).free = true := by simp [Heap.header]

/-! ## The compound writes -/

theorem header_newMem {m n p : Nat} : (newMem h m n p).header m = ⟨n % 65536, p % 65536, true⟩ := by
  unfold newMem
  rw [header_setPrev, header_setNext, header_setUsed]
  rfl

theorem header_newMem_apart {m n p : Nat} (hab : Apart m b) : (newMem h m n p).header b = h.header b := by
  unfold newMem
  rw [header_setPrev_apart hab, header_setNext_apart hab, header_setUsed_apart hab]

end

end SerialNet.Mem
