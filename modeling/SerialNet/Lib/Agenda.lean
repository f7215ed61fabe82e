import Mathlib.Data.List.Sort
import Mathlib.Data.Multiset.Filter

/-!
# An agenda

Entries with the time at which they are due, the next one first. Time passes
only up to the next entry, and entries of the same time are due in the order in
which they were set.
-/

structure Agenda (H : Type*) where
  now : ℕ
  pending : List (ℕ × H)
  called : List (ℕ × H)

namespace Agenda

variable {H : Type*}

/-- In front of the first entry that is due later. -/
def insert (p : ℕ × H) (l : List (ℕ × H)) : List (ℕ × H) := l.orderedInsert (fun a b => a.1 < b.1) p

/-- A new entry, as long as there are fewer than `cap`. -/
def set (cap : ℕ) (a : Agenda H) (d : ℕ) (h : H) : Agenda H :=
  if a.pending.length < cap then { a with pending := insert (a.now + d, h) a.pending } else a

def cancel [DecidableEq H] (a : Agenda H) (h : H) : Agenda H :=
  { a with pending := a.pending.eraseP fun p => p.2 = h }

def wait (a : Agenda H) (w : ℕ) : Agenda H :=
  match a.pending with
  | [] => { a with now := a.now + w }
  | p :: _ => { a with now := min (a.now + w) p.1 }

def expire (a : Agenda H) : Agenda H :=
  match a.pending with
  | [] => a
  | p :: rest => ⟨p.1, rest, a.called ++ [p]⟩

/-- The entries are in order, and none is overdue. -/
structure Good (a : Agenda H) : Prop where
  sorted : a.pending.Pairwise fun p q => p.1 ≤ q.1
  later : ∀ p ∈ a.pending, a.now ≤ p.1

section
variable {a : Agenda H} {p : ℕ × H} {l : List (ℕ × H)} {cap d w : ℕ} {h h' : H}

theorem perm_insert (p : ℕ × H) (l : List (ℕ × H)) : (insert p l).Perm (p :: l) := List.perm_orderedInsert _ p l

theorem mem_insert {q : ℕ × H} : q ∈ insert p l ↔ q = p ∨ q ∈ l := by
  rw [(perm_insert p l).mem_iff, List.mem_cons]

theorem sorted_insert : ∀ {l : List (ℕ × H)}, (l.Pairwise fun p q => p.1 ≤ q.1) →
    (insert p l).Pairwise fun p q => p.1 ≤ q.1
  | [], _ => by simp [insert]
  | q :: l, hl => by
    rw [List.pairwise_cons] at hl
    unfold insert
    rw [List.orderedInsert_cons]
    split
    · next hlt =>
      refine List.pairwise_cons.mpr ⟨fun r hr => ?_, List.pairwise_cons.mpr hl⟩
      rcases List.mem_cons.mp hr with rfl | hr
      · exact hlt.le
      · exact hlt.le.trans (hl.1 r hr)
    · next hle =>
      refine List.pairwise_cons.mpr ⟨fun r hr => ?_, sorted_insert hl.2⟩
      rcases mem_insert.mp hr with rfl | hr
      · exact not_lt.mp hle
      · exact hl.1 r hr

@[simp] theorem now_set : (a.set cap d h).now = a.now := by
  unfold Agenda.set
  split <;> rfl

@[simp] theorem called_set : (a.set cap d h).called = a.called := by
  unfold Agenda.set
  split <;> rfl

theorem Good.set (hg : a.Good) : (a.set cap d h).Good := by
  unfold Agenda.set
  split
  · refine ⟨sorted_insert hg.sorted, fun q hq => ?_⟩
    rcases mem_insert.mp hq with rfl | hq
    · exact Nat.le_add_right _ _
    · exact hg.later q hq
  · exact hg

theorem Good.cancel [DecidableEq H] (hg : a.Good) : (a.cancel h).Good :=
  ⟨hg.sorted.sublist List.eraseP_sublist, fun q hq => hg.later q (List.mem_of_mem_eraseP hq)⟩

theorem wait_pending (a : Agenda H) (w : ℕ) : (a.wait w).pending = a.pending := by
  unfold wait
  split <;> rfl

theorem wait_called (a : Agenda H) (w : ℕ) : (a.wait w).called = a.called := by
  unfold wait
  split <;> rfl

theorem Good.wait (hg : a.Good) : (a.wait w).Good := by
  refine ⟨by rw [wait_pending]; exact hg.sorted, fun r hr => ?_⟩
  rw [wait_pending] at hr
  have hsorted := hg.sorted
  unfold Agenda.wait
  cases hp : a.pending with
  | nil =>
    rw [hp] at hr
    cases hr
  | cons q rest =>
    rw [hp, List.pairwise_cons] at hsorted
    rw [hp] at hr
    refine (min_le_right _ _).trans ?_
    rcases List.mem_cons.mp hr with rfl | hr
    · exact le_rfl
    · exact hsorted.1 r hr

theorem Good.expire (hg : a.Good) : a.expire.Good := by
  unfold Agenda.expire
  cases hp : a.pending with
  | nil => exact hg
  | cons q rest =>
    have hsorted := hg.sorted
    rw [hp, List.pairwise_cons] at hsorted
    exact ⟨hsorted.2, hsorted.1⟩

theorem le_now_wait (hg : a.Good) : a.now ≤ (a.wait w).now := by
  unfold wait
  cases hp : a.pending with
  | nil => exact Nat.le_add_right _ _
  | cons q rest => exact le_min (Nat.le_add_right _ _) (hg.later q (by rw [hp]; exact List.mem_cons_self))

def Within (n : ℕ) (a : Agenda H) : Prop := ∀ p ∈ a.pending, p.1 < a.now + n

theorem Within.set {n : ℕ} (hw : a.Within n) (hd : d < n) : (a.set cap d h).Within n := by
  unfold Agenda.set
  split
  · intro q hq
    rcases mem_insert.mp hq with rfl | hq
    · exact Nat.add_lt_add_left hd a.now
    · exact hw q hq
  · exact hw

theorem Within.cancel [DecidableEq H] {n : ℕ} (hw : a.Within n) : (a.cancel h).Within n :=
  fun q hq => hw q (List.mem_of_mem_eraseP hq)

theorem Within.wait {n : ℕ} (hw : a.Within n) (hg : a.Good) : (a.wait w).Within n := by
  intro q hq
  rw [wait_pending] at hq
  exact (hw q hq).trans_le (Nat.add_le_add_right (le_now_wait hg) n)

theorem Within.expire {n : ℕ} (hw : a.Within n) (hg : a.Good) : a.expire.Within n := by
  unfold Agenda.expire
  cases hp : a.pending with
  | nil => exact hw
  | cons p rest =>
    intro q hq
    have hqa : q ∈ a.pending := by rw [hp]; exact List.mem_cons_of_mem p hq
    have hpa : p ∈ a.pending := by rw [hp]; exact List.mem_cons_self
    exact (hw q hqa).trans_le (Nat.add_le_add_right (hg.later p hpa) n)

/-! ## The entries of one handler -/

variable [DecidableEq H]

def times (a : Agenda H) (h : H) : Multiset ℕ := (a.pending.filter fun p => p.2 = h).map Prod.fst

def calledAt (a : Agenda H) (h : H) : List ℕ := (a.called.filter fun p => p.2 = h).map Prod.fst

theorem times_insert (p : ℕ × H) (h : H) : ({ a with pending := insert p a.pending } : Agenda H).times h =
    if p.2 = h then p.1 ::ₘ a.times h else a.times h := by
  have hperm := ((perm_insert p a.pending).filter fun q => q.2 = h).map Prod.fst
  have heq : ({ a with pending := insert p a.pending } : Agenda H).times h =
      (((p :: a.pending).filter fun q => q.2 = h).map Prod.fst : List ℕ) := Multiset.coe_eq_coe.mpr hperm
  rw [heq]
  by_cases hp : p.2 = h
  · simp [hp, times]
  · simp [hp, times]

theorem times_set_other (hne : h' ≠ h) : (a.set cap d h').times h = a.times h := by
  unfold set
  split
  · rw [times_insert, if_neg hne]
  · rfl

theorem times_set (hcap : a.pending.length < cap) : (a.set cap d h).times h = (a.now + d) ::ₘ a.times h := by
  rw [set, if_pos hcap, times_insert, if_pos rfl]

theorem times_cancel_other (hne : h' ≠ h) : (a.cancel h').times h = a.times h := by
  have hfilter : ∀ l : List (ℕ × H), (l.eraseP fun p => p.2 = h').filter (fun p => p.2 = h) =
      l.filter fun p => p.2 = h := by
    intro l
    induction l with
    | nil => rfl
    | cons p l ih =>
      by_cases hp : p.2 = h'
      · simp [hp, hne]
      · simp [List.filter_cons, hp, ih]
  rw [times, cancel, hfilter]
  rfl

theorem times_expire {rest : List (ℕ × H)} (hp : a.pending = p :: rest) :
    a.times p.2 = p.1 ::ₘ a.expire.times p.2 ∧ ∀ h, h ≠ p.2 → a.expire.times h = a.times h := by
  unfold times expire
  rw [hp]
  refine ⟨by simp, fun h hne => ?_⟩
  simp [Ne.symm hne]

theorem calledAt_expire {rest : List (ℕ × H)} (hp : a.pending = p :: rest) (h : H) :
    a.expire.calledAt h = a.calledAt h ++ if p.2 = h then [p.1] else [] := by
  unfold calledAt expire
  rw [hp]
  by_cases hh : p.2 = h <;> simp [hh]

end

end Agenda
