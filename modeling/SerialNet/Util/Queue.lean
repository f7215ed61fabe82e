import Mathlib.Data.Fintype.Card
import SerialNet.Lib.Ring
import SerialNet.Lib.Run

/-!
# Intrusive queues

The list heads of `util.h` and the cell queues of `task_util.h`. A head is a
node of its own ring, a cell carries its links, and the number of cells is kept
next to the head in 16 bits.
-/

namespace SerialNet.Queue

open Ring Run

/-! ## Nodes and memory -/

/-- What an `NST_linked_list` pointer points to. -/
inductive Ptr (Q C : Type*) where
  | null
  | que (q : Q)
  | cell (c : C)
  deriving DecidableEq, Repr

structure Mem (Q C : Type*) where
  pprev : Ptr Q C → Ptr Q C
  pnext : Ptr Q C → Ptr Q C
  count : Q → UInt16
  lockRequired : Q → Bool

section
variable {Q C : Type*} [DecidableEq Q] [DecidableEq C]

/-- `p->pprev = v`, which `NULL` does not survive. -/
def Mem.setPrev (m : Mem Q C) (p v : Ptr Q C) : Option (Mem Q C) :=
  if p = .null then none else some { m with pprev := Function.update m.pprev p v }

def Mem.setNext (m : Mem Q C) (p v : Ptr Q C) : Option (Mem Q C) :=
  if p = .null then none else some { m with pnext := Function.update m.pnext p v }

def Mem.setCount (m : Mem Q C) (q : Q) (n : UInt16) : Mem Q C := { m with count := Function.update m.count q n }

variable {m : Mem Q C} {p v : Ptr Q C} {q : Q} {c : C} {n : UInt16}

theorem Mem.setPrev_eq (hp : p ≠ .null) : m.setPrev p v = some { m with pprev := Function.update m.pprev p v } :=
  if_neg hp

/-! ## util.h -/

def utilInitList (m : Mem Q C) (phead : Ptr Q C) : Option (Mem Q C) := do
  let m ← m.setNext phead phead
  m.setPrev phead phead

def utilInitListHead (m : Mem Q C) (phead : Q) (lockRequired : Bool) : Option (Mem Q C) := do
  let m ← utilInitList m (.que phead)
  let m := m.setCount phead 0
  return { m with lockRequired := Function.update m.lockRequired phead lockRequired }

def utilPeekList (m : Mem Q C) (phead : Q) : Ptr Q C :=
  if m.pnext (.que phead) ≠ .que phead then m.pnext (.que phead) else .null

def utilEnqueueListTail (m : Mem Q C) (phead : Q) (pnode : Ptr Q C) : Option (Mem Q C) := do
  let poldLast := m.pprev (.que phead)
  let m ← m.setPrev pnode poldLast
  let m ← m.setNext pnode (.que phead)
  let m ← m.setNext poldLast pnode
  let m ← m.setPrev (.que phead) pnode
  return m.setCount phead (m.count phead + 1)

def utilEnqueueListHead (m : Mem Q C) (phead : Q) (pnode : Ptr Q C) : Option (Mem Q C) := do
  let poldFirst := m.pnext (.que phead)
  let m ← m.setPrev pnode (.que phead)
  let m ← m.setNext pnode poldFirst
  let m ← m.setPrev poldFirst pnode
  let m ← m.setNext (.que phead) pnode
  return m.setCount phead (m.count phead + 1)

def utilUnlinkList (m : Mem Q C) (phead : Q) (pnode : Ptr Q C) : Option (Mem Q C) := do
  let pmyPrev := m.pprev pnode
  let pmyNext := m.pnext pnode
  let m ← m.setPrev pmyNext pmyPrev
  let m ← m.setNext pmyPrev pmyNext
  let m := m.setCount phead (m.count phead - 1)
  let m ← m.setPrev pnode .null
  m.setNext pnode .null

def utilDequeueList (m : Mem Q C) (phead : Q) : Option (Mem Q C × Ptr Q C) :=
  let pnode := m.pnext (.que phead)
  if pnode ≠ .null ∧ pnode ≠ .que phead then (utilUnlinkList m phead pnode).map fun m => (m, pnode)
  else some (m, .null)

def utilIsListEmpty (m : Mem Q C) (phead : Q) : Bool := m.count phead == 0

/-! ## task_util.h -/

/-- A cell with a link missing is left alone, with a warning. -/
def nstRemoveCell (m : Mem Q C) (pQueHead : Q) (pCell : Ptr Q C) : Option (Mem Q C) :=
  if pCell ≠ .null ∧ m.pnext pCell ≠ .null ∧ m.pprev pCell ≠ .null then utilUnlinkList m pQueHead pCell else some m

def nstInsertCellQue (m : Mem Q C) (pQueHead pInsertedQueHead : Q) (addTail : Bool) : Option (Mem Q C) := do
  if m.count pInsertedQueHead = 0 then return m
  let pInsertedQueFirstCell := m.pnext (.que pInsertedQueHead)
  let pInsertedQueLastCell := m.pprev (.que pInsertedQueHead)
  let m ←
    if addTail then do
      let pQueLastCell := m.pprev (.que pQueHead)
      let m ← m.setNext pQueLastCell pInsertedQueFirstCell
      let m ← m.setPrev pInsertedQueFirstCell pQueLastCell
      let m ← m.setPrev (.que pQueHead) pInsertedQueLastCell
      m.setNext pInsertedQueLastCell (.que pQueHead)
    else do
      let pQueFirstCell := m.pnext (.que pQueHead)
      let m ← m.setNext pInsertedQueLastCell pQueFirstCell
      let m ← m.setPrev pQueFirstCell pInsertedQueLastCell
      let m ← m.setNext (.que pQueHead) pInsertedQueFirstCell
      m.setPrev pInsertedQueFirstCell (.que pQueHead)
  let m := m.setCount pQueHead (m.count pQueHead + m.count pInsertedQueHead)
  let m ← m.setPrev (.que pInsertedQueHead) (.que pInsertedQueHead)
  let m ← m.setNext (.que pInsertedQueHead) (.que pInsertedQueHead)
  return m.setCount pInsertedQueHead 0

/-! ## Operations -/

inductive Op (Q C : Type*) where
  | init (q : Q) (lockRequired : Bool)
  | enqueueHead (q : Q) (c : C)
  | enqueueTail (q : Q) (c : C)
  | dequeue (q : Q)
  | unlink (q : Q) (c : C)
  | removeCell (q : Q) (c : C)
  | insertQue (q r : Q) (addTail : Bool)

/-- An operation and the pointer it returns, `NULL` if it returns none. -/
def exec (m : Mem Q C) : Op Q C → Option (Mem Q C × Ptr Q C)
  | .init q lockRequired => (utilInitListHead m q lockRequired).map (·, .null)
  | .enqueueHead q c => (utilEnqueueListHead m q (.cell c)).map (·, .null)
  | .enqueueTail q c => (utilEnqueueListTail m q (.cell c)).map (·, .null)
  | .dequeue q => utilDequeueList m q
  | .unlink q c => (utilUnlinkList m q (.cell c)).map (·, .null)
  | .removeCell q c => (nstRemoveCell m q (.cell c)).map (·, .null)
  | .insertQue q r addTail => (nstInsertCellQue m q r addTail).map (·, .null)

def execAll : Mem Q C → List (Op Q C) → Option (Mem Q C × List (Ptr Q C))
  | m, [] => some (m, [])
  | m, op :: ops => do
    let (m, out) ← exec m op
    let (m, outs) ← execAll m ops
    return (m, out :: outs)

/-! ## Lists of cells -/

/-- The contents of the queues; a head that was never initialised has none. -/
abbrev Lists (Q C : Type*) := Q → Option (List C)

def listStep (A : Lists Q C) : Op Q C → Lists Q C
  | .init q _ => Function.update A q (some [])
  | .enqueueHead q c => Function.update A q ((A q).map (c :: ·))
  | .enqueueTail q c => Function.update A q ((A q).map (· ++ [c]))
  | .dequeue q => Function.update A q ((A q).map List.tail)
  | .unlink q c | .removeCell q c => Function.update A q ((A q).map (·.erase c))
  | .insertQue q r addTail =>
    Function.update
      (Function.update A q ((A q).bind fun l => (A r).map fun k => if addTail then l ++ k else k ++ l))
      r ((A r).map fun _ => [])

def listOut (A : Lists Q C) : Op Q C → Ptr Q C
  | .dequeue q => (((A q).bind List.head?).map Ptr.cell).getD .null
  | _ => .null

def listOuts : Lists Q C → List (Op Q C) → List (Ptr Q C)
  | _, [] => []
  | A, op :: ops => listOut A op :: listOuts (listStep A op) ops

/-- Heads are initialised first, a cell is put in while it is in no queue and
taken out of the queue it is in, and a queue is not put into itself. -/
def Allowed (A : Lists Q C) : Op Q C → Prop
  | .init _ _ => True
  | .enqueueHead q c | .enqueueTail q c => (A q).isSome ∧ ∀ r, ∀ l ∈ A r, c ∉ l
  | .dequeue q => (A q).isSome
  | .unlink q c | .removeCell q c => ∃ l ∈ A q, c ∈ l
  | .insertQue q r _ => q ≠ r ∧ (A q).isSome ∧ (A r).isSome

instance [Fintype Q] (A : Lists Q C) : ∀ op, Decidable (Allowed A op)
  | .init _ _ => isTrue trivial
  | .enqueueHead q c => inferInstanceAs (Decidable ((A q).isSome ∧ ∀ r, ∀ l ∈ A r, c ∉ l))
  | .enqueueTail q c => inferInstanceAs (Decidable ((A q).isSome ∧ ∀ r, ∀ l ∈ A r, c ∉ l))
  | .dequeue q => inferInstanceAs (Decidable ((A q).isSome = true))
  | .unlink q c => inferInstanceAs (Decidable (∃ l ∈ A q, c ∈ l))
  | .removeCell q c => inferInstanceAs (Decidable (∃ l ∈ A q, c ∈ l))
  | .insertQue q r _ => inferInstanceAs (Decidable (q ≠ r ∧ (A q).isSome ∧ (A r).isSome))

structure Holds (m : Mem Q C) (q : Q) (l : List C) : Prop where
  forward : Path m.pnext (.que q) (l.map .cell) (.que q)
  backward : Path m.pprev (.que q) (l.map .cell).reverse (.que q)
  count : (m.count q).toNat = l.length
  empty : utilIsListEmpty m q = l.isEmpty
  peek : utilPeekList m q = (l.head?.map Ptr.cell).getD .null
  nodup : l.Nodup
  fresh : l = [] → utilInitListHead m q (m.lockRequired q) = some m

/-- The memory refines the lists, no cell being in two of them. -/
structure Refines (m : Mem Q C) (A : Lists Q C) : Prop where
  holds : ∀ q l, A q = some l → Holds m q l
  apart : ∀ q r l k, q ≠ r → A q = some l → A r = some k → l.Disjoint k

end

/-! ## One ring -/

section
variable {Q C : Type*} {m m' : Mem Q C} {q : Q} {l : List C}

def nodes (q : Q) (l : List C) : List (Ptr Q C) := .que q :: l.map .cell

def Mem.flip (m : Mem Q C) : Mem Q C := { m with pprev := m.pnext, pnext := m.pprev }

structure Ringed (m : Mem Q C) (q : Q) (l : List C) : Prop where
  links : Linked m.pnext m.pprev (.que q) (l.map .cell)
  count : (m.count q).toNat = l.length

/-- Outside the nodes `S` no link changed, and no count but those of `qs`. -/
structure Touches (m m' : Mem Q C) (S : List (Ptr Q C)) (qs : List Q) : Prop where
  next : ∀ x, x ∉ S → m'.pnext x = m.pnext x
  prev : ∀ x, x ∉ S → m'.pprev x = m.pprev x
  count : ∀ r, r ∉ qs → m'.count r = m.count r

theorem ne_null_of_mem_nodes {x : Ptr Q C} (hx : x ∈ nodes q l) : x ≠ .null := by
  rintro rfl
  simp [nodes] at hx

theorem Ringed.flip (h : Ringed m q l) : Ringed m.flip q l.reverse :=
  ⟨by rw [List.map_reverse]; exact h.links.flip, by rw [List.length_reverse]; exact h.count⟩

theorem Touches.flip {S : List (Ptr Q C)} {qs : List Q} (h : Touches m m' S qs) : Touches m.flip m'.flip S qs :=
  ⟨h.prev, h.next, h.count⟩

theorem Ringed.frame {r : Q} {k : List C} {S : List (Ptr Q C)} {qs : List Q} (h : Ringed m r k) (htouch : Touches m m' S qs) (hr : r ∉ qs)
    (hS : ∀ x ∈ nodes r k, x ∉ S) : Ringed m' r k :=
  ⟨h.links.congr (fun x hx => htouch.next x (hS x hx)) fun x hx => htouch.prev x (hS x hx), by
    rw [htouch.count r hr]; exact h.count⟩

theorem Ringed.nodup (h : Ringed m q l) : l.Nodup := (List.nodup_cons.mp h.links.nodup).2.of_map

theorem Ringed.prev_mem (h : Ringed m q l) {x : Ptr Q C} (hx : x ∈ nodes q l) : m.pprev x ∈ nodes q l := by
  have hmem := next_mem h.links.prev (x := x) (by simpa [nodes] using hx)
  simpa [nodes] using hmem

theorem Ringed.next_mem (h : Ringed m q l) {x : Ptr Q C} (hx : x ∈ nodes q l) : m.pnext x ∈ nodes q l :=
  Ring.next_mem h.links.next hx

theorem nodes_disjoint {r : Q} {k : List C} (hqr : q ≠ r) (hlk : l.Disjoint k) {x y : Ptr Q C} (hx : x ∈ nodes q l) (hy : y ∈ nodes r k) :
    x ≠ y := by
  rintro rfl
  simp only [nodes, List.mem_cons, List.mem_map] at hx hy
  obtain rfl | ⟨c, hc, rfl⟩ := hx
  · obtain heq | ⟨d, -, heq⟩ := hy
    · exact hqr (Ptr.que.inj heq)
    · cases heq
  · obtain heq | ⟨d, hd, heq⟩ := hy
    · cases heq
    · exact hlk hc (Ptr.cell.inj heq ▸ hd)

theorem Ringed.prev_cell (h : Ringed m q l) (hne : l ≠ []) : ∃ c ∈ l, m.pprev (.que q) = .cell c := by
  obtain ⟨l', c, rfl⟩ := (List.eq_nil_or_concat' l).resolve_left hne
  have hprev := h.links.prev
  rw [List.map_append, List.reverse_append] at hprev
  exact ⟨c, by simp, hprev.1⟩

theorem Ringed.next_cell (h : Ringed m q l) (hne : l ≠ []) : ∃ c ∈ l, m.pnext (.que q) = .cell c := by
  cases l with
  | nil => exact absurd rfl hne
  | cons c l => exact ⟨c, List.mem_cons_self, h.links.next.1⟩

theorem succ_toNat {n : UInt16} {len : Nat} (hn : n.toNat = len) (hroom : len + 1 < 65536) : (n + 1).toNat = len + 1 := by
  rw [UInt16.toNat_add, hn]
  exact Nat.mod_eq_of_lt hroom

theorem pred_toNat {n : UInt16} {len : Nat} (hn : n.toNat = len + 1) : (n - 1).toNat = len := by
  have hone : (1 : UInt16) ≤ n := UInt16.le_iff_toNat_le.mpr (by rw [hn]; exact Nat.le_add_left 1 len)
  rw [UInt16.toNat_sub_of_le n 1 hone, hn]
  rfl

end

/-! ## Enqueueing -/

section
variable {Q C : Type*} [DecidableEq Q] [DecidableEq C] {m : Mem Q C} {q : Q} {c : C} {l : List C}

theorem utilEnqueueListTail_eq (hlast : m.pprev (.que q) ≠ .null) :
    utilEnqueueListTail m q (.cell c) = some
      { pprev := Function.update (Function.update m.pprev (.cell c) (m.pprev (.que q))) (.que q) (.cell c)
        pnext := Function.update (Function.update m.pnext (.cell c) (.que q)) (m.pprev (.que q)) (.cell c)
        count := Function.update m.count q (m.count q + 1)
        lockRequired := m.lockRequired } := by
  simp only [utilEnqueueListTail, Mem.setPrev, Mem.setNext, Mem.setCount, hlast, reduceCtorEq, if_false,
    Option.bind_eq_bind, Option.bind_some, Option.pure_def]

theorem utilEnqueueListTail_spec (h : Ringed m q l) (hc : c ∉ l) (hroom : l.length + 1 < 65536) :
    ∃ m', utilEnqueueListTail m q (.cell c) = some m' ∧ Ringed m' q (l ++ [c]) ∧
      Touches m m' (nodes q (c :: l)) [q] := by
  have hlast : m.pprev (.que q) ∈ nodes q l := h.prev_mem List.mem_cons_self
  have hnew : (.cell c : Ptr Q C) ∉ nodes q l := by simpa [nodes] using hc
  have hlastNew : (.cell c : Ptr Q C) ≠ m.pprev (.que q) := fun heq => hnew (heq ▸ hlast)
  refine ⟨_, utilEnqueueListTail_eq (ne_null_of_mem_nodes hlast), ⟨?_, ?_⟩, ⟨fun x hx => ?_, fun x hx => ?_, fun r hr => ?_⟩⟩
  · rw [List.map_append]
    refine h.links.snoc hnew (fun x hx hxl => ?_) (fun x hx => ?_) ?_ ?_ ?_ ?_
    · have hxc : x ≠ .cell c := fun heq => hnew (heq ▸ hx)
      simp only [Function.update_of_ne hxl, Function.update_of_ne hxc]
    · have hxq : x ≠ .que q := fun heq => (List.nodup_cons.mp h.links.nodup).1 (heq ▸ hx)
      have hxc : x ≠ .cell c := fun heq => hnew (heq ▸ List.mem_cons_of_mem _ hx)
      simp only [Function.update_of_ne hxq, Function.update_of_ne hxc]
    · simp
    · simp [Function.update_of_ne hlastNew]
    · simp
    · simp
  · rw [List.length_append, List.length_singleton]
    simpa using succ_toNat h.count hroom
  · have hxl : x ≠ m.pprev (.que q) := fun heq => hx (by
      rw [heq]
      simp only [nodes, List.map_cons, List.mem_cons] at hlast ⊢
      tauto)
    have hxc : x ≠ .cell c := fun heq => hx (by simp [heq, nodes])
    simp only [Function.update_of_ne hxl, Function.update_of_ne hxc]
  · have hxq : x ≠ .que q := fun heq => hx (by simp [heq, nodes])
    have hxc : x ≠ .cell c := fun heq => hx (by simp [heq, nodes])
    simp only [Function.update_of_ne hxq, Function.update_of_ne hxc]
  · exact Function.update_of_ne (by simpa using hr) _ _

/-- The head end is the tail end with the links exchanged. -/
theorem utilEnqueueListHead_eq (hfirst : m.pnext (.que q) ≠ .null) :
    utilEnqueueListHead m q (.cell c) = (utilEnqueueListTail m.flip q (.cell c)).map Mem.flip := by
  rw [utilEnqueueListTail_eq (m := m.flip) hfirst]
  simp only [utilEnqueueListHead, Mem.setPrev, Mem.setNext, Mem.setCount, hfirst, reduceCtorEq, if_false,
    Option.bind_eq_bind, Option.bind_some, Option.pure_def]
  rfl

theorem utilEnqueueListHead_spec (h : Ringed m q l) (hc : c ∉ l) (hroom : l.length + 1 < 65536) :
    ∃ m', utilEnqueueListHead m q (.cell c) = some m' ∧ Ringed m' q (c :: l) ∧
      Touches m m' (nodes q (c :: l)) [q] := by
  obtain ⟨m', hm', hring, htouch⟩ := utilEnqueueListTail_spec h.flip (c := c) (by simpa using hc) (by simpa using hroom)
  refine ⟨m'.flip, ?_, by simpa using hring.flip, ?_⟩
  · rw [utilEnqueueListHead_eq (ne_null_of_mem_nodes (h.next_mem List.mem_cons_self)), hm']
    rfl
  · have hnodes : ∀ x, x ∉ nodes q (c :: l) → x ∉ nodes q (c :: l.reverse) := fun x hx => by simpa [nodes] using hx
    exact ⟨fun x hx => htouch.prev x (hnodes x hx), fun x hx => htouch.next x (hnodes x hx), htouch.count⟩

/-! ## Unlinking -/

theorem utilUnlinkList_eq (hprev : m.pprev (.cell c) ≠ .null) (hnext : m.pnext (.cell c) ≠ .null) :
    utilUnlinkList m q (.cell c) = some
      { pprev := Function.update (Function.update m.pprev (m.pnext (.cell c)) (m.pprev (.cell c))) (.cell c) .null
        pnext := Function.update (Function.update m.pnext (m.pprev (.cell c)) (m.pnext (.cell c))) (.cell c) .null
        count := Function.update m.count q (m.count q - 1)
        lockRequired := m.lockRequired } := by
  simp only [utilUnlinkList, Mem.setPrev, Mem.setNext, Mem.setCount, hprev, hnext, reduceCtorEq, if_false,
    Option.bind_eq_bind, Option.bind_some]

theorem utilUnlinkList_spec (h : Ringed m q l) (hc : c ∈ l) :
    ∃ m', utilUnlinkList m q (.cell c) = some m' ∧ Ringed m' q (l.erase c) ∧ Touches m m' (nodes q l) [q] := by
  have hmem : (.cell c : Ptr Q C) ∈ nodes q l := by simpa [nodes] using hc
  have hprev := h.prev_mem hmem
  have hnext := h.next_mem hmem
  obtain ⟨a, b, hca, rfl, herase⟩ := List.exists_erase_eq hc
  have hcb : c ∉ b := fun hcb => (List.nodup_append.mp h.nodup).2.1.notMem hcb
  refine ⟨_, utilUnlinkList_eq (ne_null_of_mem_nodes hprev) (ne_null_of_mem_nodes hnext), ⟨?_, ?_⟩,
    ⟨fun x hx => ?_, fun x hx => ?_, fun r hr => ?_⟩⟩
  · have hlinks := h.links
    rw [List.map_append, List.map_cons] at hlinks
    rw [herase, List.map_append]
    have hkeep : ∀ x ∈ Ptr.que q :: (a.map Ptr.cell ++ b.map Ptr.cell), x ≠ (.cell c : Ptr Q C) := by
      rintro x hx rfl
      simp [hca, hcb] at hx
    obtain ⟨hprevNe, hnextNe⟩ := hlinks.neighbours_ne
    refine hlinks.unlink (fun x hx hxp => ?_) (fun x hx hxn => ?_) ?_ ?_
    · simp only [Function.update_of_ne (hkeep x hx), Function.update_of_ne hxp]
    · simp only [Function.update_of_ne (hkeep x hx), Function.update_of_ne hxn]
    · simp only [Function.update_of_ne hprevNe, Function.update_self]
    · simp only [Function.update_of_ne hnextNe, Function.update_self]
  · have hcount : (m.count q).toNat = (a ++ b).length + 1 := by
      rw [h.count, List.length_append, List.length_append, List.length_cons, Nat.add_assoc]
    rw [herase]
    simpa using pred_toNat hcount
  · have hxp : x ≠ m.pprev (.cell c) := fun heq => hx (heq ▸ hprev)
    have hxc : x ≠ .cell c := fun heq => hx (heq ▸ hmem)
    simp only [Function.update_of_ne hxp, Function.update_of_ne hxc]
  · have hxn : x ≠ m.pnext (.cell c) := fun heq => hx (heq ▸ hnext)
    have hxc : x ≠ .cell c := fun heq => hx (heq ▸ hmem)
    simp only [Function.update_of_ne hxn, Function.update_of_ne hxc]
  · exact Function.update_of_ne (by simpa using hr) _ _

/-! ## Splicing -/

variable {r : Q} {k : List C}

theorem nstInsertCellQue_tail (hcount : m.count r ≠ 0) (hlast : m.pprev (.que q) ≠ .null)
    (hfirst : m.pnext (.que r) ≠ .null) (hinserted : m.pprev (.que r) ≠ .null) :
    nstInsertCellQue m q r true = some
      { pprev := Function.update (Function.update (Function.update m.pprev (m.pnext (.que r)) (m.pprev (.que q)))
          (.que q) (m.pprev (.que r))) (.que r) (.que r)
        pnext := Function.update (Function.update (Function.update m.pnext (m.pprev (.que q)) (m.pnext (.que r)))
          (m.pprev (.que r)) (.que q)) (.que r) (.que r)
        count := Function.update (Function.update m.count q (m.count q + m.count r)) r 0
        lockRequired := m.lockRequired } := by
  simp only [nstInsertCellQue, Mem.setPrev, Mem.setNext, Mem.setCount, hcount, hlast, hfirst, hinserted, reduceCtorEq,
    if_false, if_true, Option.bind_eq_bind, Option.bind_some, Option.pure_def]

theorem nstInsertCellQue_head (hcount : m.count r ≠ 0) (hlast : m.pnext (.que q) ≠ .null)
    (hfirst : m.pprev (.que r) ≠ .null) (hinserted : m.pnext (.que r) ≠ .null) :
    nstInsertCellQue m q r false = (nstInsertCellQue m.flip q r true).map Mem.flip := by
  rw [nstInsertCellQue_tail (m := m.flip) hcount hlast hfirst hinserted]
  simp only [nstInsertCellQue, Mem.setPrev, Mem.setNext, Mem.setCount, hcount, hlast, hfirst, hinserted, reduceCtorEq,
    if_false, Bool.false_eq_true, Option.bind_eq_bind, Option.bind_some, Option.pure_def]
  rfl

theorem nstInsertCellQue_empty (hcount : m.count r = 0) (addTail : Bool) : nstInsertCellQue m q r addTail = some m := by
  unfold nstInsertCellQue
  rw [if_pos hcount]
  rfl

theorem insertTail_spec (h : Ringed m q l) (hr : Ringed m r k) (hqr : q ≠ r) (hlk : l.Disjoint k) (hne : k ≠ [])
    (hroom : l.length + k.length < 65536) :
    ∃ m', nstInsertCellQue m q r true = some m' ∧ Ringed m' q (l ++ k) ∧ Ringed m' r [] ∧
      Touches m m' (nodes q l ++ nodes r k) [q, r] := by
  have hlast := h.prev_mem (x := .que q) List.mem_cons_self
  have hfirst := hr.next_mem (x := .que r) List.mem_cons_self
  have hinserted := hr.prev_mem (x := .que r) List.mem_cons_self
  have hcount : m.count r ≠ 0 := fun hzero => hne (List.eq_nil_of_length_eq_zero (by rw [← hr.count, hzero]; rfl))
  have hdisj : ∀ x ∈ nodes q l, ∀ y ∈ nodes r k, x ≠ y := fun x hx y hy => nodes_disjoint hqr hlk hx hy
  refine ⟨_, nstInsertCellQue_tail hcount (ne_null_of_mem_nodes hlast) (ne_null_of_mem_nodes hfirst)
    (ne_null_of_mem_nodes hinserted), ⟨?_, ?_⟩, ⟨?_, ?_⟩, ⟨fun x hx => ?_, fun x hx => ?_, fun p hp => ?_⟩⟩
  · have hqueR : ∀ x ∈ Ptr.que q :: (l.map Ptr.cell ++ k.map Ptr.cell), x ≠ (.que r : Ptr Q C) := by
      rintro x hx rfl
      simp [hqr.symm] at hx
    rw [List.map_append]
    refine h.links.splice hr.links (by simpa using hne) (fun x hx y hy => hdisj x hx y (List.mem_cons_of_mem _ hy))
      (fun x hx hxq hxr => ?_) (fun x hx hxf => ?_) ?_ ?_ ?_ ?_
    · simp only [Function.update_of_ne (hqueR x hx), Function.update_of_ne hxr, Function.update_of_ne hxq]
    · have hxq : x ≠ .que q := by
        rintro rfl
        simp at hx
      simp only [Function.update_of_ne (hqueR x (List.mem_cons_of_mem _ hx)), Function.update_of_ne hxq,
        Function.update_of_ne hxf]
    · simp only [Function.update_of_ne (hdisj _ hlast _ List.mem_cons_self), Function.update_of_ne (hdisj _ hlast _ hinserted),
        Function.update_self]
    · obtain ⟨c, -, hc⟩ := hr.prev_cell hne
      simp [hc]
    · obtain ⟨c, -, hc⟩ := hr.next_cell hne
      simp [hc]
    · simp [hqr]
  · simp only [Function.update_of_ne hqr, Function.update_self, List.length_append, UInt16.toNat_add, h.count, hr.count]
    exact Nat.mod_eq_of_lt hroom
  · exact ⟨Function.update_self .., Function.update_self .., List.nodup_singleton _⟩
  · simp
  · rw [List.mem_append, not_or] at hx
    have hxr : x ≠ .que r := fun heq => hx.2 (heq ▸ List.mem_cons_self)
    have hxi : x ≠ m.pprev (.que r) := fun heq => hx.2 (heq ▸ hinserted)
    have hxl : x ≠ m.pprev (.que q) := fun heq => hx.1 (heq ▸ hlast)
    simp only [Function.update_of_ne hxr, Function.update_of_ne hxi, Function.update_of_ne hxl]
  · rw [List.mem_append, not_or] at hx
    have hxr : x ≠ .que r := fun heq => hx.2 (heq ▸ List.mem_cons_self)
    have hxf : x ≠ m.pnext (.que r) := fun heq => hx.2 (heq ▸ hfirst)
    have hxq : x ≠ .que q := fun heq => hx.1 (heq ▸ List.mem_cons_self)
    simp only [Function.update_of_ne hxr, Function.update_of_ne hxq, Function.update_of_ne hxf]
  · obtain ⟨hpq, hpr⟩ : p ≠ q ∧ p ≠ r := by simpa using hp
    simp only [Function.update_of_ne hpq, Function.update_of_ne hpr]

theorem nstInsertCellQue_spec (h : Ringed m q l) (hr : Ringed m r k) (hqr : q ≠ r) (hlk : l.Disjoint k)
    (hroom : l.length + k.length < 65536) (addTail : Bool) :
    ∃ m', nstInsertCellQue m q r addTail = some m' ∧ Ringed m' q (if addTail then l ++ k else k ++ l) ∧ Ringed m' r [] ∧
      Touches m m' (nodes q l ++ nodes r k) [q, r] := by
  by_cases hne : k = []
  · subst hne
    have hzero : m.count r = 0 := UInt16.toNat_inj.mp hr.count
    refine ⟨m, nstInsertCellQue_empty hzero addTail, ?_, hr, ⟨fun _ _ => rfl, fun _ _ => rfl, fun _ _ => rfl⟩⟩
    cases addTail with
    | true => simpa using h
    | false => simpa using h
  · cases addTail with
    | true => exact insertTail_spec h hr hqr hlk hne hroom
    | false =>
      have hcount : m.count r ≠ 0 := fun hzero => hne (List.eq_nil_of_length_eq_zero (by rw [← hr.count, hzero]; rfl))
      obtain ⟨m', hm', hring, hring', htouch⟩ := insertTail_spec h.flip hr.flip hqr (by simpa using hlk)
        (by simpa using hne) (by simpa using hroom)
      have hnodes : ∀ x, x ∉ nodes q l ++ nodes r k → x ∉ nodes q l.reverse ++ nodes r k.reverse := fun x hx => by
        simpa [nodes] using hx
      refine ⟨m'.flip, ?_, by simpa using hring.flip, hring'.flip,
        ⟨fun x hx => htouch.prev x (hnodes x hx), fun x hx => htouch.next x (hnodes x hx), htouch.count⟩⟩
      rw [nstInsertCellQue_head hcount (ne_null_of_mem_nodes (h.next_mem List.mem_cons_self))
        (ne_null_of_mem_nodes (hr.prev_mem List.mem_cons_self)) (ne_null_of_mem_nodes (hr.next_mem List.mem_cons_self)), hm']
      rfl

/-! ## The other operations -/

theorem utilInitListHead_eq (lockRequired : Bool) :
    utilInitListHead m q lockRequired = some
      { pprev := Function.update m.pprev (.que q) (.que q)
        pnext := Function.update m.pnext (.que q) (.que q)
        count := Function.update m.count q 0
        lockRequired := Function.update m.lockRequired q lockRequired } := by
  simp only [utilInitListHead, utilInitList, Mem.setPrev, Mem.setNext, Mem.setCount, reduceCtorEq, if_false,
    Option.bind_eq_bind, Option.bind_some, Option.pure_def]

theorem utilInitListHead_spec (lockRequired : Bool) :
    ∃ m', utilInitListHead m q lockRequired = some m' ∧ Ringed m' q [] ∧ Touches m m' (nodes q []) [q] := by
  refine ⟨_, utilInitListHead_eq lockRequired, ⟨⟨Function.update_self .., Function.update_self .., List.nodup_singleton _⟩, ?_⟩,
    ⟨fun x hx => ?_, fun x hx => ?_, fun r hr => ?_⟩⟩
  · simp
  · exact Function.update_of_ne (by simpa [nodes] using hx) _ _
  · exact Function.update_of_ne (by simpa [nodes] using hx) _ _
  · exact Function.update_of_ne (by simpa using hr) _ _

theorem utilDequeueList_spec (h : Ringed m q l) :
    ∃ m', utilDequeueList m q = some (m', (l.head?.map Ptr.cell).getD .null) ∧ Ringed m' q l.tail ∧
      Touches m m' (nodes q l) [q] := by
  unfold utilDequeueList
  cases l with
  | nil =>
    have hself : m.pnext (.que q) = .que q := h.links.next
    refine ⟨m, ?_, h, ⟨fun _ _ => rfl, fun _ _ => rfl, fun _ _ => rfl⟩⟩
    simp [hself]
  | cons c l =>
    have hfirst : m.pnext (.que q) = .cell c := h.links.next.1
    obtain ⟨m', hm', hring, htouch⟩ := utilUnlinkList_spec h (c := c) List.mem_cons_self
    refine ⟨m', ?_, by simpa using hring, htouch⟩
    simp [hfirst, hm']

theorem nstRemoveCell_eq (h : Ringed m q l) (hc : c ∈ l) : nstRemoveCell m q (.cell c) = utilUnlinkList m q (.cell c) := by
  have hmem : (.cell c : Ptr Q C) ∈ nodes q l := by simpa [nodes] using hc
  unfold nstRemoveCell
  rw [if_pos ⟨by simp, ne_null_of_mem_nodes (h.next_mem hmem), ne_null_of_mem_nodes (h.prev_mem hmem)⟩]

end

/-! ## Refinement -/

section
variable {Q C : Type*} [DecidableEq Q] {A : Lists Q C} {q : Q} {l : List C}

theorem length_lt [Fintype C] (hcard : Fintype.card C < 65536) (hnd : l.Nodup) : l.length < 65536 :=
  Nat.lt_of_le_of_lt hnd.length_le_card hcard

def Apart (A : Lists Q C) : Prop := ∀ q r l k, q ≠ r → A q = some l → A r = some k → l.Disjoint k

theorem Apart.update (h : Apart A) (hfree : ∀ r k, r ≠ q → A r = some k → l.Disjoint k) :
    Apart (Function.update A q (some l)) := by
  intro r p k n hrp hk hn
  by_cases hr : r = q
  · subst hr
    rw [Function.update_self] at hk
    rw [Function.update_of_ne (Ne.symm hrp)] at hn
    exact Option.some.inj hk ▸ hfree p n (Ne.symm hrp) hn
  · rw [Function.update_of_ne hr] at hk
    by_cases hp : p = q
    · subst hp
      rw [Function.update_self] at hn
      exact Option.some.inj hn ▸ (hfree r k hr hk).symm
    · rw [Function.update_of_ne hp] at hn
      exact h r p k n hrp hk hn

variable {m m' : Mem Q C} {r : Q} {k : List C}

structure Rep (m : Mem Q C) (A : Lists Q C) : Prop where
  ring : ∀ q l, A q = some l → Ringed m q l
  apart : Apart A

/-- A change of one queue that uses its own cells and free ones. -/
theorem Rep.update {l' : List C} (h : Rep m A) (hring : Ringed m' q l') (htouch : Touches m m' (nodes q l) [q])
    (hfree : ∀ r k, r ≠ q → A r = some k → l.Disjoint k) (hsub : l' ⊆ l) : Rep m' (Function.update A q (some l')) := by
  refine ⟨fun r k hk => ?_, h.apart.update fun r k hr hk => List.disjoint_of_subset_left hsub (hfree r k hr hk)⟩
  by_cases hr : r = q
  · subst hr
    rw [Function.update_self] at hk
    exact Option.some.inj hk ▸ hring
  · rw [Function.update_of_ne hr] at hk
    refine (h.ring r k hk).frame htouch (by simpa using hr) fun x hx hmem => ?_
    exact nodes_disjoint (Ne.symm hr) (hfree r k hr hk) hmem hx rfl

/-- The contents of one queue move into another. -/
theorem Rep.splice {l' : List C} (h : Rep m A) (hq : A q = some l) (hk : A r = some k) (hqr : q ≠ r)
    (hring : Ringed m' q l') (hempty : Ringed m' r []) (htouch : Touches m m' (nodes q l ++ nodes r k) [q, r])
    (hsub : l' ⊆ l ++ k) : Rep m' (Function.update (Function.update A q (some l')) r (some [])) := by
  refine ⟨fun p n hn => ?_, ?_⟩
  · by_cases hpr : p = r
    · subst hpr
      rw [Function.update_self] at hn
      exact Option.some.inj hn ▸ hempty
    · rw [Function.update_of_ne hpr] at hn
      by_cases hpq : p = q
      · subst hpq
        rw [Function.update_self] at hn
        exact Option.some.inj hn ▸ hring
      · rw [Function.update_of_ne hpq] at hn
        refine (h.ring p n hn).frame htouch (by simp [hpq, hpr]) fun x hx hmem => ?_
        obtain hmem | hmem := List.mem_append.mp hmem
        · exact nodes_disjoint (Ne.symm hpq) (h.apart q p l n (Ne.symm hpq) hq hn) hmem hx rfl
        · exact nodes_disjoint (Ne.symm hpr) (h.apart r p k n (Ne.symm hpr) hk hn) hmem hx rfl
  · -- the cells of `r` are free before `q` takes them
    rw [Function.update_comm hqr]
    refine (h.apart.update fun p n _ _ => List.disjoint_nil_left n).update fun p n hpq hn => ?_
    by_cases hpr : p = r
    · subst hpr
      rw [Function.update_self] at hn
      exact Option.some.inj hn ▸ List.disjoint_nil_right _
    · rw [Function.update_of_ne hpr] at hn
      refine List.disjoint_of_subset_left hsub (List.disjoint_append_left.mpr ⟨?_, ?_⟩)
      · exact h.apart q p l n (Ne.symm hpq) hq hn
      · exact h.apart r p k n (Ne.symm hpr) hk hn

end

section
variable {Q C : Type*} [DecidableEq Q] [DecidableEq C] {m : Mem Q C} {A : Lists Q C} {q : Q} {l : List C}

theorem exec_spec [Fintype C] (hcard : Fintype.card C < 65536) (h : Rep m A) {op : Op Q C} (hop : Allowed A op) :
    ∃ m', exec m op = some (m', listOut A op) ∧ Rep m' (listStep A op) := by
  have hown : ∀ {q l}, A q = some l → ∀ r k, r ≠ q → A r = some k → l.Disjoint k := fun hq r k hr hk =>
    h.apart _ r _ k (Ne.symm hr) hq hk
  have hnew : ∀ {q c l}, (∀ r k, A r = some k → c ∉ k) → A q = some l → ∀ r k, r ≠ q → A r = some k →
      (c :: l).Disjoint k := fun hc hq r k hr hk => List.disjoint_cons_left.mpr ⟨hc r k hk, hown hq r k hr hk⟩
  cases op with
  | init q lockRequired =>
    obtain ⟨m', hm', hring, htouch⟩ := utilInitListHead_spec (m := m) (q := q) lockRequired
    refine ⟨m', by simp [exec, hm', listOut], ?_⟩
    exact h.update hring htouch (fun _ _ _ _ => List.disjoint_nil_left _) (List.Subset.refl _)
  | enqueueHead q c =>
    obtain ⟨l, hq⟩ := Option.isSome_iff_exists.mp hop.1
    have hc := hop.2 q l hq
    have hroom : (c :: l).length < 65536 := length_lt hcard (List.nodup_cons.mpr ⟨hc, (h.ring q l hq).nodup⟩)
    obtain ⟨m', hm', hring, htouch⟩ := utilEnqueueListHead_spec (h.ring q l hq) hc hroom
    refine ⟨m', by simp [exec, hm', listOut], ?_⟩
    simp only [listStep, hq, Option.map_some]
    exact h.update hring htouch (hnew hop.2 hq) (List.Subset.refl _)
  | enqueueTail q c =>
    obtain ⟨l, hq⟩ := Option.isSome_iff_exists.mp hop.1
    have hc := hop.2 q l hq
    have hroom : (c :: l).length < 65536 := length_lt hcard (List.nodup_cons.mpr ⟨hc, (h.ring q l hq).nodup⟩)
    obtain ⟨m', hm', hring, htouch⟩ := utilEnqueueListTail_spec (h.ring q l hq) hc hroom
    refine ⟨m', by simp [exec, hm', listOut], ?_⟩
    simp only [listStep, hq, Option.map_some]
    exact h.update hring htouch (hnew hop.2 hq) (by intro x hx; simpa [or_comm] using hx)
  | dequeue q =>
    obtain ⟨l, hq⟩ := Option.isSome_iff_exists.mp hop
    obtain ⟨m', hm', hring, htouch⟩ := utilDequeueList_spec (h.ring q l hq)
    refine ⟨m', by simp [exec, hm', listOut, hq], ?_⟩
    simp only [listStep, hq, Option.map_some]
    exact h.update hring htouch (hown hq) (List.tail_subset l)
  | unlink q c =>
    obtain ⟨l, hmem, hc⟩ := hop
    have hq : A q = some l := hmem
    obtain ⟨m', hm', hring, htouch⟩ := utilUnlinkList_spec (h.ring q l hq) hc
    refine ⟨m', by simp [exec, hm', listOut], ?_⟩
    simp only [listStep, hq, Option.map_some]
    exact h.update hring htouch (hown hq) List.erase_subset
  | removeCell q c =>
    obtain ⟨l, hmem, hc⟩ := hop
    have hq : A q = some l := hmem
    obtain ⟨m', hm', hring, htouch⟩ := utilUnlinkList_spec (h.ring q l hq) hc
    refine ⟨m', by simp [exec, nstRemoveCell_eq (h.ring q l hq) hc, hm', listOut], ?_⟩
    simp only [listStep, hq, Option.map_some]
    exact h.update hring htouch (hown hq) List.erase_subset
  | insertQue q r addTail =>
    obtain ⟨hqr, hq, hr⟩ := hop
    obtain ⟨l, hq⟩ := Option.isSome_iff_exists.mp hq
    obtain ⟨k, hk⟩ := Option.isSome_iff_exists.mp hr
    have hlk := h.apart q r l k hqr hq hk
    have hroom : (l ++ k).length < 65536 :=
      length_lt hcard ((h.ring q l hq).nodup.append (h.ring r k hk).nodup hlk)
    obtain ⟨m', hm', hring, hempty, htouch⟩ := nstInsertCellQue_spec (h.ring q l hq) (h.ring r k hk) hqr hlk
      (by simpa using hroom) addTail
    refine ⟨m', by simp [exec, hm', listOut], ?_⟩
    simp only [listStep, hq, hk, Option.map_some, Option.bind_some]
    refine h.splice hq hk hqr hring hempty htouch ?_
    cases addTail with
    | true => exact List.Subset.refl _
    | false =>
      intro x hx
      simpa [or_comm] using hx

/-- An empty ring is the one `util_init_list_head` makes. -/
theorem Ringed.fresh (h : Ringed m q []) : utilInitListHead m q (m.lockRequired q) = some m := by
  have hprev : Function.update m.pprev (.que q) (.que q) = m.pprev :=
    Function.update_eq_self_iff.mpr (Eq.symm h.links.prev)
  have hnext : Function.update m.pnext (.que q) (.que q) = m.pnext :=
    Function.update_eq_self_iff.mpr (Eq.symm h.links.next)
  have hcount : Function.update m.count q 0 = m.count :=
    Function.update_eq_self_iff.mpr (UInt16.toNat_inj.mp h.count).symm
  rw [utilInitListHead_eq, hprev, hnext, hcount, Function.update_eq_self]

theorem Ringed.holds (h : Ringed m q l) : Holds m q l where
  forward := h.links.next
  backward := h.links.prev
  count := h.count
  empty := by
    unfold utilIsListEmpty
    cases l with
    | nil =>
      have hzero : m.count q = 0 := UInt16.toNat_inj.mp h.count
      rw [hzero]
      rfl
    | cons c l =>
      have hne : m.count q ≠ 0 := fun hzero => by
        have hlen := h.count
        rw [hzero] at hlen
        cases hlen
      simpa using hne
  peek := by
    unfold utilPeekList
    cases l with
    | nil => rw [show m.pnext (.que q) = .que q from h.links.next]; simp
    | cons c l => rw [show m.pnext (.que q) = .cell c from h.links.next.1]; simp
  nodup := h.nodup
  fresh hl := by
    subst hl
    exact h.fresh

variable [Fintype C]

theorem execAll_spec (hcard : Fintype.card C < 65536) :
    ∀ {m : Mem Q C} {A : Lists Q C} (ops : List (Op Q C)), Rep m A → Meets listStep Allowed A ops →
      ∃ m', execAll m ops = some (m', listOuts A ops) ∧ Rep m' (run listStep A ops)
  | m, _, [], h, _ => ⟨m, rfl, h⟩
  | m, A, op :: ops, h, hallowed => by
    obtain ⟨m₁, hm₁, h₁⟩ := exec_spec hcard h hallowed.1
    obtain ⟨m₂, hm₂, h₂⟩ := execAll_spec hcard ops h₁ hallowed.2
    exact ⟨m₂, by simp [execAll, hm₁, hm₂, listOuts], h₂⟩

/-- **Intrusive queues are lists.** Every allowed sequence of operations runs
without following a null pointer, returns the cells the lists return and leaves
every queue with the cells of its list, in both directions and by its count. -/
theorem queues_refine (hcard : Fintype.card C < 65536) (m : Mem Q C) (ops : List (Op Q C))
    (hallowed : Meets listStep Allowed (fun _ => none) ops) :
    ∃ m', execAll m ops = some (m', listOuts (fun _ => none) ops) ∧ Refines m' (run listStep (fun _ => none) ops) := by
  have hstart : Rep m (fun _ => none) := ⟨fun _ _ hq => (nomatch hq), fun _ _ _ _ _ hq => (nomatch hq)⟩
  obtain ⟨m', hm', h⟩ := execAll_spec hcard ops hstart hallowed
  exact ⟨m', hm', ⟨fun q l hq => (h.ring q l hq).holds, h.apart⟩⟩

end

def zeroMem : Mem Bool (Fin 4) := ⟨fun _ => .null, fun _ => .null, fun _ => 0, fun _ => false⟩

theorem queues_refine_spliced :
    ∃ m', execAll zeroMem
        [.init false true, .init true true, .enqueueTail false 0, .enqueueHead true 1, .enqueueTail true 2,
          .insertQue false true false, .removeCell false 2, .dequeue false] =
        some (m', [.null, .null, .null, .null, .null, .null, .null, .cell 1]) ∧
      Holds m' false [0] ∧ Holds m' true [] := by
  obtain ⟨m', hm', h⟩ := queues_refine (C := Fin 4) (by decide) zeroMem
    [.init false true, .init true true, .enqueueTail false 0, .enqueueHead true 1, .enqueueTail true 2,
      .insertQue false true false, .removeCell false 2, .dequeue false] (by decide)
  exact ⟨m', hm', h.holds false [0] (by decide), h.holds true [] (by decide)⟩

end SerialNet.Queue
