import SerialNet.Ucos.Timer
import Mathlib.Data.Fintype.Card

/-!
# The lists behind the timer wheel

`Rep s spokes free`: in state `s` the spokes of the wheel are the doubly linked
lists `spokes` and the free list is `free`. A timer that runs is on the spoke of
its expiry, one that is unused is free, and any other is on no list. Every
operation on the wheel keeps such lists and follows no null pointer.
-/

namespace SerialNet.Tmr

open Chain Function

def Timers.next (s : Timers) (ptmr : TmrPtr) : Option TmrPtr := (s.OSTmrTbl ptmr).OSTmrNext

def Timers.prev (s : Timers) (ptmr : TmrPtr) : Option TmrPtr := (s.OSTmrTbl ptmr).OSTmrPrev

def OS_TMR.bare (tmr : OS_TMR) : OS_TMR := { tmr with OSTmrNext := none, OSTmrPrev := none }

def Timers.bare (s : Timers) (ptmr : TmrPtr) : OS_TMR := (s.OSTmrTbl ptmr).bare

def Timers.first (s : Timers) (i : Fin OS_TMR_CFG_WHEEL_SIZE) : Option TmrPtr := (s.OSTmrWheelTbl i).OSTmrFirst

structure Rep (s : Timers) (spokes : Fin OS_TMR_CFG_WHEEL_SIZE → List TmrPtr) (free : List TmrPtr) : Prop where
  links : ∀ i, Links s.next (s.first i) (spokes i)
  backs : ∀ i, Backs s.prev none (spokes i)
  nodup : ∀ i, (spokes i).Nodup
  mem : ∀ i t, t ∈ spokes i ↔ (s.bare t).OSTmrState = OS_TMR_STATE_RUNNING ∧ spokeOf (s.bare t).OSTmrMatch = i
  entries : ∀ i, (s.OSTmrWheelTbl i).OSTmrEntries = (spokes i).length
  freeLinks : Links s.next s.OSTmrFreeList free
  freeNodup : free.Nodup
  freeMem : ∀ t, t ∈ free ↔ (s.bare t).OSTmrState = OS_TMR_STATE_UNUSED
  counts : s.OSTmrFree = free.length ∧ s.OSTmrUsed + s.OSTmrFree = OS_TMR_CFG_MAX

section
variable {s : Timers} {spokes : Fin OS_TMR_CFG_WHEEL_SIZE → List TmrPtr} {free : List TmrPtr} {t : TmrPtr}

/-! ## Single writes -/

theorem bare_setTmr (s : Timers) (t : TmrPtr) (tmr : OS_TMR) : (s.setTmr t tmr).bare = update s.bare t tmr.bare := by
  funext q
  by_cases hq : q = t
  · subst hq; simp [Timers.bare, Timers.setTmr]
  · simp [Timers.bare, Timers.setTmr, hq]

theorem next_setTmr (s : Timers) (t : TmrPtr) (tmr : OS_TMR) :
    (s.setTmr t tmr).next = update s.next t tmr.OSTmrNext := by
  funext q
  by_cases hq : q = t
  · subst hq; simp [Timers.next, Timers.setTmr]
  · simp [Timers.next, Timers.setTmr, hq]

theorem prev_setTmr (s : Timers) (t : TmrPtr) (tmr : OS_TMR) :
    (s.setTmr t tmr).prev = update s.prev t tmr.OSTmrPrev := by
  funext q
  by_cases hq : q = t
  · subst hq; simp [Timers.prev, Timers.setTmr]
  · simp [Timers.prev, Timers.setTmr, hq]

@[simp] theorem bare_setSpoke (s : Timers) (i) (w : OS_TMR_WHEEL) : (s.setSpoke i w).bare = s.bare := rfl

@[simp] theorem next_setSpoke (s : Timers) (i) (w : OS_TMR_WHEEL) : (s.setSpoke i w).next = s.next := rfl

@[simp] theorem prev_setSpoke (s : Timers) (i) (w : OS_TMR_WHEEL) : (s.setSpoke i w).prev = s.prev := rfl

@[simp] theorem bare_setNext (s : Timers) (t : TmrPtr) (p : Option TmrPtr) : (s.setNext t p).bare = s.bare := by
  rw [Timers.setNext, bare_setTmr]
  exact update_eq_self t s.bare

@[simp] theorem next_setNext (s : Timers) (t : TmrPtr) (p : Option TmrPtr) :
    (s.setNext t p).next = update s.next t p := next_setTmr ..

@[simp] theorem prev_setNext (s : Timers) (t : TmrPtr) (p : Option TmrPtr) : (s.setNext t p).prev = s.prev := by
  rw [Timers.setNext, prev_setTmr]
  exact update_eq_self t s.prev

@[simp] theorem bare_setPrev (s : Timers) (t p : Option TmrPtr) : (s.setPrev t p).bare = s.bare := by
  cases t with
  | none => rfl
  | some t =>
    rw [Timers.setPrev, bare_setTmr]
    exact update_eq_self t s.bare

@[simp] theorem next_setPrev (s : Timers) (t p : Option TmrPtr) : (s.setPrev t p).next = s.next := by
  cases t with
  | none => rfl
  | some t =>
    rw [Timers.setPrev, next_setTmr]
    exact update_eq_self t s.next

theorem prev_setPrev (s : Timers) (t p : Option TmrPtr) (q : TmrPtr) :
    (s.setPrev t p).prev q = if t = some q then p else s.prev q := by
  cases t with
  | none => rfl
  | some t =>
    rw [Timers.setPrev, prev_setTmr, update_apply]
    simp only [Option.some.injEq, eq_comm]

/-! ## Linking -/

/-- `OSTmr_Link`, seen field by field. -/
structure Linked (s s' : Timers) (t : TmrPtr) (time : BitVec 32) : Prop where
  bare : s'.bare = update s.bare t { s.bare t with OSTmrState := OS_TMR_STATE_RUNNING, OSTmrMatch := time }
  next : s'.next = update s.next t (s.first (spokeOf time))
  prev : ∀ q, s'.prev q = if q = t then none else if s.first (spokeOf time) = some q then some t else s.prev q
  wheel : s'.OSTmrWheelTbl = update s.OSTmrWheelTbl (spokeOf time) ⟨some t,
    if s.first (spokeOf time) = none then 1 else (s.OSTmrWheelTbl (spokeOf time)).OSTmrEntries + 1⟩
  freeList : s'.OSTmrFreeList = s.OSTmrFreeList
  used : s'.OSTmrUsed = s.OSTmrUsed
  free : s'.OSTmrFree = s.OSTmrFree
  time : s'.OSTmrTime = s.OSTmrTime
  called : s'.called = s.called

theorem OSTmr_Link_spec (s : Timers) (t : TmrPtr) (type : LinkType) :
    Linked s (OSTmr_Link s t type) t (s.expires t type) := by
  unfold OSTmr_Link
  generalize s.expires t type = time
  dsimp only
  cases hf : ((s.setTmr t { s.OSTmrTbl t with OSTmrState := OS_TMR_STATE_RUNNING, OSTmrMatch := time }).OSTmrWheelTbl
      (spokeOf time)).OSTmrFirst with
  | none =>
    have hfirst : s.first (spokeOf time) = none := hf
    refine ⟨?_, ?_, fun q => ?_, ?_, rfl, rfl, rfl, rfl, rfl⟩
    · simp [bare_setTmr, OS_TMR.bare, Timers.bare]
    · rw [hfirst]; simp [next_setTmr]
    · rw [hfirst, prev_setPrev]
      by_cases hq : q = t
      · simp [hq]
      · simp [hq, Ne.symm hq, prev_setTmr]
    · rw [if_pos hfirst]; rfl
  | some ptmr1 =>
    have hfirst : s.first (spokeOf time) = some ptmr1 := hf
    refine ⟨?_, ?_, fun q => ?_, ?_, rfl, rfl, rfl, rfl, rfl⟩
    · simp [bare_setTmr, OS_TMR.bare, Timers.bare]
    · rw [hfirst]; simp [next_setTmr]
    · rw [hfirst, prev_setPrev, prev_setPrev]
      by_cases hq : q = t
      · simp [hq]
      · simp [hq, Ne.symm hq, prev_setTmr]
    · rw [if_neg (by simp [hfirst])]; rfl

theorem Rep.link {s' : Timers} {time : BitVec 32} (h : Rep s spokes free) (hl : Linked s s' t time)
    (hrun : (s.bare t).OSTmrState ≠ OS_TMR_STATE_RUNNING) (hun : (s.bare t).OSTmrState ≠ OS_TMR_STATE_UNUSED) :
    Rep s' (update spokes (spokeOf time) (t :: spokes (spokeOf time))) free := by
  have hnot : ∀ i, t ∉ spokes i := fun i hi => hrun ((h.mem i t).mp hi).1
  have hfree : t ∉ free := fun hf => hun ((h.freeMem t).mp hf)
  have hne : ∀ {i q}, q ∈ spokes i → q ≠ t := fun hq he => hnot _ (he ▸ hq)
  have hnext : ∀ {i q}, q ∈ spokes i → s'.next q = s.next q := by
    intro i q hq
    rw [hl.next, update_of_ne (hne hq)]
  constructor
  · intro i
    by_cases hi : i = spokeOf time
    · subst hi
      rw [update_self, Timers.first, hl.wheel, update_self]
      exact (h.links _).push (by rw [hl.next, update_self]) fun q hq => hnext hq
    · rw [update_of_ne hi, Timers.first, hl.wheel, update_of_ne hi]
      exact (h.links i).congr fun q hq => hnext hq
  · intro i
    by_cases hi : i = spokeOf time
    · subst hi
      rw [update_self]
      have hhead := (h.links (spokeOf time)).head
      refine ⟨by rw [hl.prev, if_pos rfl], (h.backs _).rebase (h.nodup _) (fun q hq => ?_) fun q hq hq' => ?_⟩
      · have hm : q ∈ spokes (spokeOf time) := List.mem_of_head? hq
        rw [hl.prev, if_neg (hne hm), if_pos (by rw [hhead]; exact hq)]
      · rw [hl.prev, if_neg (hne hq), if_neg (by rw [hhead]; exact fun he => hq' he.symm)]
    · rw [update_of_ne hi]
      refine (h.backs i).congr fun q hq => ?_
      rw [hl.prev, if_neg (hne hq), if_neg]
      intro hf
      have hm : q ∈ spokes (spokeOf time) := by
        rw [(h.links _).head] at hf
        exact List.mem_of_head? hf
      exact hi (((h.mem i q).mp hq).2.symm.trans ((h.mem _ q).mp hm).2)
  · intro i
    by_cases hi : i = spokeOf time
    · subst hi
      rw [update_self]
      exact List.nodup_cons.mpr ⟨hnot _, h.nodup _⟩
    · rw [update_of_ne hi]
      exact h.nodup i
  · intro i q
    rw [hl.bare]
    by_cases hq : q = t
    · subst hq
      by_cases hi : i = spokeOf time
      · subst hi; simp
      · simp [hi, hnot i, Ne.symm hi]
    · rw [update_of_ne hq, ← h.mem i q]
      by_cases hi : i = spokeOf time
      · subst hi; simp [hq]
      · rw [update_of_ne hi]
  · intro i
    rw [hl.wheel]
    by_cases hi : i = spokeOf time
    · subst hi
      rw [update_self, update_self, List.length_cons, h.entries, (h.links _).head]
      cases spokes (spokeOf time) <;> simp
    · rw [update_of_ne hi, update_of_ne hi, h.entries]
  · rw [hl.freeList]
    refine h.freeLinks.congr fun q hq => ?_
    have hqt : q ≠ t := fun he => hfree (by rwa [← he])
    rw [hl.next, update_of_ne hqt]
  · exact h.freeNodup
  · intro q
    rw [hl.bare]
    by_cases hq : q = t
    · subst hq; simpa using hfree
    · rw [update_of_ne hq]; exact h.freeMem q
  · rw [hl.used, hl.free]; exact h.counts

/-! ## Unlinking -/

/-- `OSTmr_Unlink`, seen field by field. -/
structure Unlinked (s s' : Timers) (t : TmrPtr) (i : Fin OS_TMR_CFG_WHEEL_SIZE) : Prop where
  bare : s'.bare = update s.bare t { s.bare t with OSTmrState := OS_TMR_STATE_STOPPED }
  next : ∀ q, s'.next q = if q = t then none
    else if s.first i ≠ some t ∧ s.prev t = some q then s.next t else s.next q
  prev : ∀ q, s'.prev q = if q = t then none
    else if s.next t = some q then if s.first i = some t then none else s.prev t else s.prev q
  first : ∀ j, s'.first j = if j = i ∧ s.first i = some t then s.next t else s.first j
  entries : ∀ j, (s'.OSTmrWheelTbl j).OSTmrEntries =
    if j = i then (s.OSTmrWheelTbl i).OSTmrEntries - 1 else (s.OSTmrWheelTbl j).OSTmrEntries
  freeList : s'.OSTmrFreeList = s.OSTmrFreeList
  used : s'.OSTmrUsed = s.OSTmrUsed
  free : s'.OSTmrFree = s.OSTmrFree
  time : s'.OSTmrTime = s.OSTmrTime
  called : s'.called = s.called

@[simp] theorem wheel_setPrev (s : Timers) (t p : Option TmrPtr) : (s.setPrev t p).OSTmrWheelTbl = s.OSTmrWheelTbl := by
  cases t <;> rfl

theorem setPrev_eq (s : Timers) (t p : Option TmrPtr) : s.setPrev t p = { s with OSTmrTbl := (s.setPrev t p).OSTmrTbl } := by
  cases t <;> rfl

/-- The end of `OSTmr_Unlink`, once the links around the timer are joined. -/
theorem Unlinked.of_joined {s s₁ : Timers} {i : Fin OS_TMR_CFG_WHEEL_SIZE} (hbare : s₁.bare = s.bare)
    (hnext : ∀ q, s₁.next q = if s.first i ≠ some t ∧ s.prev t = some q then s.next t else s.next q)
    (hprev : ∀ q, s₁.prev q = if s.next t = some q then if s.first i = some t then none else s.prev t else s.prev q)
    (hwheel : s₁.OSTmrWheelTbl = update s.OSTmrWheelTbl i
      { s.OSTmrWheelTbl i with OSTmrFirst := if s.first i = some t then s.next t else s.first i })
    (hrest : s₁ = { s with OSTmrTbl := s₁.OSTmrTbl, OSTmrWheelTbl := s₁.OSTmrWheelTbl }) :
    Unlinked s ((s₁.setTmr t { s₁.OSTmrTbl t with
      OSTmrState := OS_TMR_STATE_STOPPED
      OSTmrNext := none
      OSTmrPrev := none }).setSpoke i
        { s₁.OSTmrWheelTbl i with OSTmrEntries := (s₁.OSTmrWheelTbl i).OSTmrEntries - 1 }) t i := by
  refine ⟨?_, fun q => ?_, fun q => ?_, fun j => ?_, fun j => ?_, ?_, ?_, ?_, ?_, ?_⟩
  · rw [bare_setSpoke, bare_setTmr, ← hbare]
    rfl
  · rw [next_setSpoke, next_setTmr, update_apply, hnext]
  · rw [prev_setSpoke, prev_setTmr, update_apply, hprev]
  · by_cases hj : j = i
    · subst hj
      simp only [Timers.first, Timers.setSpoke, update_self, hwheel, true_and]
      rfl
    · simp [Timers.first, Timers.setSpoke, Timers.setTmr, hwheel, hj]
  · by_cases hj : j = i
    · subst hj
      simp [Timers.setSpoke, hwheel]
    · simp [Timers.setSpoke, Timers.setTmr, hwheel, hj]
  all_goals rw [hrest]; rfl

theorem OSTmr_Unlink_spec (s : Timers) (t : TmrPtr)
    (hlink : s.first (spokeOf (s.bare t).OSTmrMatch) ≠ some t → s.prev t ≠ none) :
    ∃ s', OSTmr_Unlink s t = some s' ∧ Unlinked s s' t (spokeOf (s.bare t).OSTmrMatch) := by
  unfold OSTmr_Unlink
  dsimp only
  rw [show (s.OSTmrTbl t).OSTmrMatch = (s.bare t).OSTmrMatch from rfl]
  generalize spokeOf (s.bare t).OSTmrMatch = i at hlink ⊢
  by_cases hf : s.first i = some t
  · rw [if_pos (show (s.OSTmrWheelTbl i).OSTmrFirst = some t from hf)]
    refine ⟨_, rfl, Unlinked.of_joined (by simp) (fun q => ?_) (fun q => ?_) ?_ ?_⟩
    · simp [hf]
    · rw [prev_setPrev, if_pos hf]; rfl
    · rw [wheel_setPrev, if_pos hf]; rfl
    · cases hn : (s.OSTmrTbl t).OSTmrNext <;> rfl
  · rw [if_neg (show (s.OSTmrWheelTbl i).OSTmrFirst ≠ some t from hf)]
    obtain ⟨a, ha⟩ := Option.ne_none_iff_exists'.mp (hlink hf)
    rw [show (s.OSTmrTbl t).OSTmrPrev = some a from ha]
    refine ⟨_, rfl, Unlinked.of_joined (by simp) (fun q => ?_) (fun q => ?_) ?_ ?_⟩
    · rw [next_setPrev, next_setNext, update_apply, ha]
      by_cases hq : q = a
      · subst hq; simp [hf]; rfl
      · simp [hf, hq, Ne.symm hq]
    · rw [prev_setPrev, prev_setNext, if_neg hf, ha]; rfl
    · rw [wheel_setPrev, if_neg hf]; exact (update_eq_self i s.OSTmrWheelTbl).symm
    · cases hn : (s.OSTmrTbl t).OSTmrNext <;> rfl

/-- The timer on its spoke, between `l` and `r`. -/
structure Between (s : Timers) (spokes : Fin OS_TMR_CFG_WHEEL_SIZE → List TmrPtr) (t : TmrPtr)
    (i : Fin OS_TMR_CFG_WHEEL_SIZE) (l r : List TmrPtr) : Prop where
  split : spokes i = l ++ t :: r
  nodup : (l ++ t :: r).Nodup
  next : s.next t = r.head?
  prev : s.prev t = l.getLast?
  first : s.first i = some t ↔ l = []

theorem Rep.between {i : Fin OS_TMR_CFG_WHEEL_SIZE} (h : Rep s spokes free) (hmem : t ∈ spokes i) :
    ∃ l r, Between s spokes t i l r := by
  obtain ⟨l, r, hlr⟩ := List.append_of_mem hmem
  have hnd : (l ++ t :: r).Nodup := by rw [← hlr]; exact h.nodup i
  have hlinks : Links s.next (s.first i) (l ++ t :: r) := by rw [← hlr]; exact h.links i
  have hbacks : Backs s.prev none (l ++ t :: r) := by rw [← hlr]; exact h.backs i
  refine ⟨l, r, hlr, hnd, hlinks.next_eq, by rw [hbacks.prev_eq]; simp, ?_⟩
  rw [hlinks.head]
  cases l with
  | nil => simp
  | cons a l =>
    have hat : a ≠ t := by
      rintro rfl
      exact (List.nodup_cons.mp hnd).1 (by simp)
    simp [hat]

namespace Between

variable {s' : Timers} {i : Fin OS_TMR_CFG_WHEEL_SIZE} {l r : List TmrPtr}

theorem mem (hb : Between s spokes t i l r) : t ∈ spokes i := by
  rw [hb.split]
  simp

theorem ne (hb : Between s spokes t i l r) {q : TmrPtr} (hq : q ∈ l ++ r) : q ≠ t := by
  rintro rfl
  rcases List.mem_append.mp hq with hl | hr
  · exact (List.nodup_append.mp hb.nodup).2.2 q hl q List.mem_cons_self rfl
  · exact (List.nodup_cons.mp (List.nodup_append.mp hb.nodup).2.1).1 hr

theorem erase (hb : Between s spokes t i l r) : (spokes i).erase t = l ++ r := by
  have htl : t ∉ l := fun hm => hb.ne (List.mem_append_left r hm) rfl
  rw [hb.split, List.erase_append_right _ htl, List.erase_cons_head]

/-- The neighbours of the timer are on its own spoke. -/
theorem away (hb : Between s spokes t i l r) (hu : Unlinked s s' t i) {q : TmrPtr} (hq : q ∉ spokes i) :
    s'.next q = s.next q ∧ s'.prev q = s.prev q := by
  have hqt : q ≠ t := fun he => hq (by rw [he]; exact hb.mem)
  rw [hb.split] at hq
  constructor
  · rw [hu.next, if_neg hqt, if_neg]
    rintro ⟨-, hp⟩
    rw [hb.prev] at hp
    exact hq (List.mem_append_left _ (List.mem_of_getLast? hp))
  · rw [hu.prev, if_neg hqt, if_neg]
    intro hp
    rw [hb.next] at hp
    exact hq (List.mem_append_right _ (List.mem_cons_of_mem t (List.mem_of_head? hp)))

theorem links (hb : Between s spokes t i l r) (hu : Unlinked s s' t i) (h : Links s.next (s.first i) (spokes i)) :
    Links s'.next (s'.first i) (l ++ r) := by
  rw [hb.split] at h
  have hunl : Links s'.next (if l = [] then s.next t else s.first i) (l ++ r) := by
    refine h.unlink hb.nodup (fun y hy => ?_) fun y hy hlast => ?_
    · have hl : l ≠ [] := by rintro rfl; cases hy
      rw [hu.next, if_neg (hb.ne (List.mem_append_left r (List.mem_of_getLast? hy))),
        if_pos ⟨fun hf => hl (hb.first.mp hf), by rw [hb.prev]; exact hy⟩]
    · rw [hu.next, if_neg (hb.ne hy), if_neg fun hp => hlast (by rw [← hb.prev]; exact hp.2.symm)]
  rw [hu.first]
  by_cases hl : l = []
  · rw [if_pos ⟨rfl, hb.first.mpr hl⟩]
    rwa [if_pos hl] at hunl
  · rw [if_neg fun hp => hl (hb.first.mp hp.2)]
    rwa [if_neg hl] at hunl

theorem backs (hb : Between s spokes t i l r) (hu : Unlinked s s' t i) (h : Backs s.prev none (spokes i)) :
    Backs s'.prev none (l ++ r) := by
  rw [hb.split] at h
  refine h.unlink hb.nodup (fun y hy => ?_) fun y hy hhead => ?_
  · have hyr : y ∈ r := List.mem_of_head? hy
    rw [hu.prev, if_neg (hb.ne (List.mem_append_right l hyr)), if_pos (by rw [hb.next]; exact hy)]
    by_cases hl : l = []
    · rw [if_pos (hb.first.mpr hl), hb.prev, hl]; rfl
    · rw [if_neg fun hf => hl (hb.first.mp hf)]
  · rw [hu.prev, if_neg (hb.ne hy), if_neg fun hp => hhead (by rw [← hb.next]; exact hp.symm)]

end Between

/-- A running timer that is taken off its spoke leaves the other lists as they were. -/
theorem Rep.unlinked {s' : Timers} {i : Fin OS_TMR_CFG_WHEEL_SIZE} (h : Rep s spokes free) (hmem : t ∈ spokes i)
    (hu : Unlinked s s' t i) : Rep s' (fun j => (spokes j).erase t) free := by
  obtain ⟨l, r, hb⟩ := h.between hmem
  have hrun := ((h.mem i t).mp hmem).1
  have hother : ∀ j, j ≠ i → (spokes j).erase t = spokes j := fun j hj =>
    List.erase_of_not_mem fun hm => hj (((h.mem j t).mp hm).2.symm.trans ((h.mem i t).mp hmem).2)
  have hapart : ∀ j, j ≠ i → ∀ q ∈ spokes j, q ∉ spokes i := fun j hj q hq hm =>
    hj (((h.mem j q).mp hq).2.symm.trans ((h.mem i q).mp hm).2)
  have hfree : ∀ q ∈ spokes i, q ∉ free := fun q hq hf => by
    have hst := (h.freeMem q).mp hf
    rw [((h.mem i q).mp hq).1] at hst
    cases hst
  constructor
  · intro j
    by_cases hj : j = i
    · subst hj
      rw [hb.erase]
      exact hb.links hu (h.links j)
    · rw [hother j hj, hu.first, if_neg fun hp => hj hp.1]
      exact (h.links j).congr fun q hq => (hb.away hu (hapart j hj q hq)).1
  · intro j
    by_cases hj : j = i
    · subst hj
      rw [hb.erase]
      exact hb.backs hu (h.backs j)
    · rw [hother j hj]
      exact (h.backs j).congr fun q hq => (hb.away hu (hapart j hj q hq)).2
  · exact fun j => (h.nodup j).erase t
  · intro j q
    rw [hu.bare, (h.nodup j).mem_erase_iff, h.mem j q]
    by_cases hq : q = t
    · subst hq; simp
    · simp [hq]
  · intro j
    rw [hu.entries, h.entries]
    by_cases hj : j = i
    · subst hj
      rw [if_pos rfl, List.length_erase_of_mem hmem]
    · rw [if_neg hj, hother j hj, h.entries]
  · rw [hu.freeList]
    exact h.freeLinks.congr fun q hq => (hb.away hu fun hm => hfree q hm hq).1
  · exact h.freeNodup
  · intro q
    rw [hu.bare]
    by_cases hq : q = t
    · subst hq; simpa using hfree q hmem
    · rw [update_of_ne hq]; exact h.freeMem q
  · rw [hu.used, hu.free]; exact h.counts

theorem Rep.unlink (h : Rep s spokes free) (hrun : (s.bare t).OSTmrState = OS_TMR_STATE_RUNNING) :
    ∃ s', OSTmr_Unlink s t = some s' ∧ Unlinked s s' t (spokeOf (s.bare t).OSTmrMatch) ∧
      Rep s' (fun i => (spokes i).erase t) free := by
  have hmem : t ∈ spokes (spokeOf (s.bare t).OSTmrMatch) := (h.mem _ t).mpr ⟨hrun, rfl⟩
  obtain ⟨l, r, hb⟩ := h.between hmem
  obtain ⟨s', hs', hu⟩ := OSTmr_Unlink_spec s t (by
    rw [hb.prev]
    intro hf hl
    exact hf (hb.first.mpr (List.getLast?_eq_none_iff.mp hl)))
  exact ⟨s', hs', hu, h.unlinked hmem hu⟩

/-! ## The other writes -/

/-- A write that keeps the links of a timer and the list it is on. -/
theorem Rep.setTmr (h : Rep s spokes free) {tmr : OS_TMR} (hnext : tmr.OSTmrNext = s.next t)
    (hprev : tmr.OSTmrPrev = s.prev t) (hmatch : tmr.OSTmrMatch = (s.bare t).OSTmrMatch)
    (hrun : tmr.OSTmrState = OS_TMR_STATE_RUNNING ↔ (s.bare t).OSTmrState = OS_TMR_STATE_RUNNING)
    (hun : tmr.OSTmrState = OS_TMR_STATE_UNUSED ↔ (s.bare t).OSTmrState = OS_TMR_STATE_UNUSED) :
    Rep (s.setTmr t tmr) spokes free := by
  have hn : (s.setTmr t tmr).next = s.next := by rw [next_setTmr, hnext]; exact update_eq_self t s.next
  have hp : (s.setTmr t tmr).prev = s.prev := by rw [prev_setTmr, hprev]; exact update_eq_self t s.prev
  refine ⟨by rw [hn]; exact h.links, by rw [hp]; exact h.backs, h.nodup, fun i q => ?_, h.entries,
    by rw [hn]; exact h.freeLinks, h.freeNodup, fun q => ?_, h.counts⟩
  · rw [bare_setTmr, h.mem i q]
    by_cases hq : q = t
    · subst hq
      rw [update_self]
      change _ ↔ tmr.OSTmrState = _ ∧ spokeOf tmr.OSTmrMatch = i
      rw [hrun, hmatch]
    · rw [update_of_ne hq]
  · rw [bare_setTmr, h.freeMem q]
    by_cases hq : q = t
    · subst hq
      rw [update_self]
      exact hun.symm
    · rw [update_of_ne hq]

theorem Rep.release (h : Rep s spokes free) (hrun : (s.bare t).OSTmrState ≠ OS_TMR_STATE_RUNNING)
    (hun : (s.bare t).OSTmrState ≠ OS_TMR_STATE_UNUSED) : Rep (OSTmr_Free s t) spokes (t :: free) := by
  have hnot : ∀ {i q}, q ∈ spokes i → q ≠ t := by
    rintro i q hq rfl
    exact hrun ((h.mem i q).mp hq).1
  have hfree : t ∉ free := fun hf => hun ((h.freeMem t).mp hf)
  have hn : (OSTmr_Free s t).next = update s.next t s.OSTmrFreeList := next_setTmr ..
  have hp : (OSTmr_Free s t).prev = update s.prev t none := prev_setTmr ..
  have hb : ∀ q, ((OSTmr_Free s t).bare q).OSTmrState = if q = t then OS_TMR_STATE_UNUSED else (s.bare q).OSTmrState := by
    intro q
    rw [show (OSTmr_Free s t).bare = _ from bare_setTmr .., update_apply]
    split <;> rfl
  have hm : ∀ q, q ≠ t → ((OSTmr_Free s t).bare q).OSTmrMatch = (s.bare q).OSTmrMatch := by
    intro q hq
    rw [show (OSTmr_Free s t).bare = _ from bare_setTmr .., update_of_ne hq]
  refine ⟨fun i => ?_, fun i => ?_, h.nodup, fun i q => ?_, h.entries, ?_, ?_, fun q => ?_, ?_⟩
  · exact (h.links i).congr fun q hq => by rw [hn, update_of_ne (hnot hq)]
  · exact (h.backs i).congr fun q hq => by rw [hp, update_of_ne (hnot hq)]
  · rw [hb]
    by_cases hq : q = t
    · subst hq
      simpa using fun hq => hnot hq rfl
    · rw [if_neg hq, hm q hq, h.mem i q]
  · refine h.freeLinks.push (by rw [hn, update_self]) fun q hq => ?_
    have hqt : q ≠ t := fun he => hfree (by rwa [← he])
    rw [hn, update_of_ne hqt]
  · exact List.nodup_cons.mpr ⟨hfree, h.freeNodup⟩
  · rw [hb, List.mem_cons, h.freeMem q]
    by_cases hq : q = t <;> simp [hq]
  · have hc := h.counts
    have hpos : 0 < s.OSTmrUsed := by
      by_contra hz
      have hall : free.length = Fintype.card TmrPtr := by simp only [Fintype.card_fin]; omega
      have : t ∈ free.toFinset := by
        rw [Finset.eq_univ_of_card _ ((List.toFinset_card_of_nodup h.freeNodup).trans hall)]
        exact Finset.mem_univ t
      exact hfree (List.mem_toFinset.mp this)
    refine ⟨?_, ?_⟩
    · change s.OSTmrFree + 1 = _
      rw [hc.1, List.length_cons]
    · change s.OSTmrUsed - 1 + (s.OSTmrFree + 1) = _
      omega

/-- A block comes from the free list as long as there is one. -/
theorem OSTmrCreate_spec (h : Rep s spokes free) (dly period : BitVec 32) (opt : TmrOpt) (callback : Option ℕ)
    (callback_arg : ℕ) :
    (free = [] ∧ OSTmrCreate 0 s dly period opt callback callback_arg = (s, none, OS_ERR_TMR_NON_AVAIL)) ∨
    ∃ t rest s', free = t :: rest ∧
      OSTmrCreate 0 s dly period opt callback callback_arg = (s', some t, OS_ERR_NONE) ∧ Rep s' spokes rest ∧
      s'.bare = update s.bare t { s.bare t with
        OSTmrState := OS_TMR_STATE_STOPPED
        OSTmrDly := dly
        OSTmrPeriod := period
        OSTmrOpt := opt
        OSTmrCallback := callback
        OSTmrCallbackArg := callback_arg } ∧ s'.OSTmrTime = s.OSTmrTime ∧ s'.called = s.called := by
  unfold OSTmrCreate OSTmr_Alloc
  cases free with
  | nil => exact .inl ⟨rfl, by rw [h.freeLinks.head]; rfl⟩
  | cons t rest =>
    obtain ⟨hfl, hrest⟩ := h.freeLinks
    have hnd := List.nodup_cons.mp h.freeNodup
    have hst : (s.bare t).OSTmrState = OS_TMR_STATE_UNUSED := (h.freeMem t).mp List.mem_cons_self
    have hnot : ∀ {i q}, q ∈ spokes i → q ≠ t := by
      rintro i q hq rfl
      have hr := ((h.mem i q).mp hq).1
      rw [hst] at hr
      cases hr
    rw [hfl]
    refine .inr ⟨t, rest, _, rfl, rfl, ?_, ?_, rfl, rfl⟩
    · generalize hs' : Timers.setTmr _ t _ = s'
      have hn : ∀ q, s'.next q = if q = t then none else s.next q := by
        intro q
        by_cases hq : q = t <;> simp [← hs', Timers.next, Timers.setTmr, hq]
      have hp : ∀ q, s'.prev q = if q = t then none else s.prev q := by
        intro q
        by_cases hq : q = t <;> simp [← hs', Timers.prev, Timers.setTmr, hq]
      have hb : ∀ q, q ≠ t → s'.bare q = s.bare q := by
        intro q hq
        simp [← hs', Timers.bare, Timers.setTmr, hq]
      have ht : (s'.bare t).OSTmrState = OS_TMR_STATE_STOPPED := by
        simp [← hs', Timers.bare, Timers.setTmr, OS_TMR.bare]
      have hw : s'.OSTmrWheelTbl = s.OSTmrWheelTbl := by rw [← hs']; rfl
      refine ⟨fun i => ?_, fun i => ?_, h.nodup, fun i q => ?_, fun i => by rw [hw, h.entries], ?_, hnd.2,
        fun q => ?_, ?_⟩
      · rw [show s'.first i = s.first i by rw [Timers.first, hw]; rfl]
        exact (h.links i).congr fun q hq => by rw [hn, if_neg (hnot hq)]
      · exact (h.backs i).congr fun q hq => by rw [hp, if_neg (hnot hq)]
      · by_cases hq : q = t
        · rw [hq, ht]
          simpa using fun hm => hnot hm rfl
        · rw [hb q hq, h.mem i q]
      · rw [show s'.OSTmrFreeList = s.next t by rw [← hs']; rfl]
        refine hrest.congr fun q hq => ?_
        have hqt : q ≠ t := fun he => hnd.1 (by rwa [← he])
        rw [hn, if_neg hqt]
      · by_cases hq : q = t
        · rw [hq, ht]
          simpa using hnd.1
        · rw [hb q hq, ← h.freeMem q]
          simp [hq]
      · have hc := h.counts
        rw [List.length_cons] at hc
        rw [← hs']
        change s.OSTmrFree - 1 = _ ∧ s.OSTmrUsed + 1 + (s.OSTmrFree - 1) = _
        omega
    · funext q
      by_cases hq : q = t
      · subst hq; simp [Timers.bare, Timers.setTmr, OS_TMR.bare]
      · simp [Timers.bare, Timers.setTmr, hq]

end

end SerialNet.Tmr
