import SerialNet.Ucos.Section

/-!
# The invariant of the scheduler

Every task fits one situation, the running task is the highest that is ready,
and no task waits for an event whose store has something to take. Each change
of `Prim` keeps it, and with them every action.
-/

namespace SerialNet.Ucos

open BitIndex Circ

section
variable {α : Type} {k k' : Kernel α} {p q : Prio} {s : Situation α} {susp : Bool} {e : ℕ} {m : Option α}

namespace Kernel

@[simp] theorem setTcb_OSTCBTbl (t : OS_TCB α) : (k.setTcb p t).OSTCBTbl = Function.update k.OSTCBTbl p t := rfl
@[simp] theorem setTcb_OSTCBPrioTbl (t : OS_TCB α) : (k.setTcb p t).OSTCBPrioTbl = k.OSTCBPrioTbl := rfl
@[simp] theorem setTcb_OSRdy (t : OS_TCB α) : (k.setTcb p t).OSRdy = k.OSRdy := rfl
@[simp] theorem setTcb_events (t : OS_TCB α) : (k.setTcb p t).events = k.events := rfl
@[simp] theorem setTcb_pc (t : OS_TCB α) : (k.setTcb p t).pc = k.pc := rfl
@[simp] theorem setTcb_type (t : OS_TCB α) : (k.setTcb p t).type = k.type := rfl
@[simp] theorem setTcb_OSPrioCur (t : OS_TCB α) : (k.setTcb p t).OSPrioCur = k.OSPrioCur := rfl

theorem OS_EventTaskRdy_eq (msk : BitVec 8) (st : PendStat) : k.OS_EventTaskRdy e m msk st = { k with
    OSTCBTbl := Function.update k.OSTCBTbl (k.eventHPT e)
      ⟨(k.OSTCBTbl (k.eventHPT e)).OSTCBStat &&& ~~~msk, st, 0, m⟩
    OSRdy := if (k.OSTCBTbl (k.eventHPT e)).OSTCBStat &&& ~~~msk &&& OS_STAT_SUSPEND = OS_STAT_RDY then
      k.OSRdy.add (k.eventHPT e) else k.OSRdy
    events := Function.update k.events e
      { k.events e with waits := (k.events e).waits.remove (k.eventHPT e) } } := by
  unfold OS_EventTaskRdy
  dsimp only
  split <;> rfl

end Kernel

theorem type_setEvent (ev : OS_EVENT α) (h : ev.store.type = k.type e) (e' : ℕ) : (k.setEvent e ev).type e' = k.type e' := by
  unfold Kernel.type Kernel.setEvent
  by_cases he : e' = e
  · subst he; simpa [Kernel.type] using h
  · simp [he]

theorem Fits.canRun_of_settled (h : s.settled = true) : s.canRun = true := by
  cases s <;> simp_all [Situation.settled, Situation.canRun]

/-! ## Tasks that are not concerned -/

theorem same_setTcb (t : OS_TCB α) (h : q ≠ p) : SameTask k (k.setTcb p t) q where
  created := rfl
  tcb := by simp [h]
  ready := rfl
  waits _ := rfl
  pc := rfl
  type _ := rfl

theorem same_store {st : Store α} (h : st.type = k.type e) : SameTask k (k.setStore e st) q where
  created := rfl
  tcb := rfl
  ready := rfl
  waits e' := by
    unfold Kernel.setStore Kernel.setEvent
    by_cases he : e' = e
    · subst he; simp
    · simp [he]
  pc := rfl
  type := type_setEvent _ h

theorem same_rdy (msk : BitVec 8) (st : PendStat) (h : q ≠ k.eventHPT e) :
    SameTask k (k.OS_EventTaskRdy e m msk st) q where
  created := by simp [Kernel.OS_EventTaskRdy_eq]
  tcb := by simp [Kernel.OS_EventTaskRdy_eq, h]
  ready := by
    rw [Kernel.OS_EventTaskRdy_eq]
    dsimp only
    split <;> simp [h]
  waits e' := by
    rw [Kernel.OS_EventTaskRdy_eq]
    by_cases he : e' = e
    · subst he; simp [h]
    · simp [he]
  pc := by simp [Kernel.OS_EventTaskRdy_eq]
  type := type_OS_EventTaskRdy _ _

/-! ## The task that is concerned -/

theorem hpt_waits (hw : (k.events e).waits.isEmpty = false) : (k.events e).waits.has (k.eventHPT e) = true :=
  Index.has_first unMap_findsLow unMap_findsLow hw

theorem hpt_le (hw : (k.events e).waits.has p = true) : k.eventHPT e ≤ p :=
  Index.first_le unMap_findsLow unMap_findsLow hw

/-- A task in a wait list waits, or its time is out. -/
theorem Fits.of_waits (h : Fits k p s susp) (hw : (k.events e).waits.has p = true) :
    s = .waiting e ∨ s = .timedOut e := by
  have := (h.waits e).symm.trans hw
  cases s <;> simp_all [Situation.waitsFor]

theorem fits_rdy {st : PendStat} {s' : Situation α} (hw : (k.events e).waits.isEmpty = false)
    (h : Fits k (k.eventHPT e) s susp) (hs' : s'.settled = true) (hst : s'.statPend = st) (hpend : s'.pendsOn = some e)
    (hno : ∀ e, s'.waitsFor e = false)
    (hm : ∀ e' m', s' = .given e' m' → m = m' ∧ (k.type e' = OS_EVENT_TYPE_SEM → m' = none)) :
    Fits (k.OS_EventTaskRdy e m (k.type e).msk st) (k.eventHPT e) s' susp := by
  have hne : s ≠ .absent := by rcases h.of_waits (hpt_waits hw) with rfl | rfl <;> simp
  have hne' : s' ≠ .absent := by rintro rfl; cases hs'
  have hnw : s'.isWaiting = none := by cases s' <;> first | rfl | cases hs'
  have hstat : (k.OSTCBTbl (k.eventHPT e)).OSTCBStat &&& ~~~(k.type e).msk = statOf none susp := by
    rw [h.stat hne]
    rcases h.of_waits (hpt_waits hw) with rfl | rfl
    · exact statOf_some_clear_msk
    · exact statOf_clear_msk
  rw [Kernel.OS_EventTaskRdy_eq]
  constructor
  · exact h.created.trans (iff_of_true hne hne')
  · intro _; simp [hstat, hnw]
  · intro _; simp [hst]
  · intro _; simp
  · intro e' m' heq
    obtain ⟨hmm, hsem⟩ := hm e' m' heq
    refine ⟨by simp [hmm], fun hty => hsem ?_⟩
    rw [← hty]
    exact ((type_OS_EventTaskRdy (m := m) (k.type e).msk st e').symm.trans (by rw [Kernel.OS_EventTaskRdy_eq]))
  · simp only [hstat, statOf_suspended, Function.update_self, decide_true, Bool.and_true,
      Fits.canRun_of_settled hs', Bool.true_and]
    cases susp
    · simp
    · simp [h.ready]
  · intro e'
    rw [hno]
    by_cases he : e' = e
    · subst he; simp
    · simp only [Function.update_of_ne he, h.waits]
      rcases h.of_waits (hpt_waits hw) with rfl | rfl <;> simp [Situation.waitsFor, he]
  · have hpends : s.pendsOn = some e := by rcases h.of_waits (hpt_waits hw) with rfl | rfl <;> rfl
    exact (Situation.at_iff hpend).mpr ((Situation.at_iff hpends).mp h.pc)

theorem fits_suspend (h : Fits k p s susp) : Fits (k.suspend p) p s true where
  created := h.created
  stat hne := by
    simp only [Kernel.suspend, Kernel.setTcb_OSTCBTbl, Function.update_self, h.stat hne]
    exact statOf_suspend
  statPend hne := by simp [Kernel.suspend, h.statPend hne]
  dly hset := by simp [Kernel.suspend, h.dly hset]
  msg e m hg := by
    simp only [Kernel.suspend, Kernel.setTcb_OSTCBTbl, Function.update_self]
    exact h.msg e m hg
  ready := by simp [Kernel.suspend, Kernel.makeUnready]
  waits := h.waits
  pc := h.pc

theorem fits_resume {ready : Bool} (h : Fits k p s susp) (hc : k.OSTCBPrioTbl p = true)
    (hs : (k.OSTCBTbl p).OSTCBStat &&& OS_STAT_SUSPEND ≠ OS_STAT_RDY)
    (hr : ready = true ↔ (k.OSTCBTbl p).OSTCBStat &&& ~~~OS_STAT_SUSPEND = OS_STAT_RDY ∧ (k.OSTCBTbl p).OSTCBDly = 0) :
    Fits (k.resume p ready) p s false := by
  have hne := h.created.mp hc
  rw [h.stat hne, Ne, statOf_suspended, Bool.not_eq_false] at hs
  subst hs
  rw [h.stat hne, statOf_resume, statOf_eq_rdy] at hr
  have htcb : (k.resume p ready).OSTCBTbl p =
      { k.OSTCBTbl p with OSTCBStat := (k.OSTCBTbl p).OSTCBStat &&& ~~~OS_STAT_SUSPEND } := by
    cases ready <;> simp [Kernel.resume, Kernel.makeReady]
  have hev : (k.resume p ready).events = k.events := by cases ready <;> rfl
  constructor
  · exact (by cases ready <;> rfl : (k.resume p ready).OSTCBPrioTbl = k.OSTCBPrioTbl) ▸ h.created
  · intro _
    rw [htcb]
    dsimp only
    rw [h.stat hne, statOf_resume]
    exact (by cases ready <;> rfl : (k.resume p ready).type = k.type) ▸ rfl
  · intro _; rw [htcb]; exact h.statPend hne
  · intro hset; rw [htcb]; exact h.dly hset
  · intro e m hg
    rw [htcb]
    exact (by cases ready <;> rfl : (k.resume p ready).type = k.type) ▸ h.msg e m hg
  · rw [htcb]
    have hwait : s.isWaiting.map k.type = none ↔ s.canRun = true := by
      cases s <;> simp_all [Situation.isWaiting, Situation.canRun, Situation.settled]
    have hready := h.ready
    simp only [Bool.not_true, Bool.and_false, Bool.false_and] at hready
    cases ready
    · have hno := (not_congr hr).mp Bool.false_ne_true
      simp only [Kernel.resume, Bool.false_eq_true, if_false, Kernel.setTcb_OSRdy, hready, hwait, and_true] at hno ⊢
      symm
      simpa [Bool.and_eq_true] using hno
    · have hyes := hr.mp rfl
      simp only [hwait, and_true] at hyes
      simp [Kernel.resume, Kernel.makeReady, hyes.1, hyes.2]
  · intro e; rw [hev]; exact h.waits e
  · exact (by cases ready <;> rfl : (k.resume p ready).pc = k.pc) ▸ h.pc

theorem fits_delay {n : ℕ} (hn : 0 < n) (h : Fits k k.OSPrioCur .awake false) :
    Fits (k.delay n) k.OSPrioCur .awake false where
  created := h.created
  stat hne := by simpa [Kernel.delay, Situation.isWaiting] using h.stat hne
  statPend hne := by simpa [Kernel.delay] using h.statPend hne
  dly hset := by cases hset
  msg e m hg := by cases hg
  ready := by
    have : ¬n = 0 := by omega
    simp [Kernel.delay, Kernel.makeUnready, this]
  waits := h.waits
  pc := h.pc

theorem fits_create (h : Fits k p .absent susp) : Fits (k.create p) p .awake false where
  created := by simp [Kernel.create, Kernel.makeReady, Kernel.setPc]
  stat _ := by simp [Kernel.create, Kernel.makeReady, Kernel.setPc, statOf, Situation.isWaiting, OS_STAT_RDY]
  statPend _ := by simp [Kernel.create, Kernel.makeReady, Kernel.setPc, Situation.statPend]
  dly hset := by cases hset
  msg e m hg := by cases hg
  ready := by simp [Kernel.create, Kernel.makeReady, Kernel.setPc, Situation.canRun]
  waits e := by
    rw [show (k.create p).events = k.events from rfl, h.waits]
    rfl
  pc := by simp [Kernel.create, Kernel.makeReady, Kernel.setPc, Situation.At]

theorem fits_waitOn {timeout : ℕ} (h : Fits k k.OSPrioCur .awake false) :
    Fits ((k.waitOn e timeout).setPc k.OSPrioCur (.pendSched e)) k.OSPrioCur (.waiting e) false where
  created := h.created.trans (by simp)
  stat _ := by
    simp only [Kernel.waitOn, Kernel.OS_EventTaskWait, Kernel.makeUnready, Kernel.setPc, Kernel.setEvent,
      Kernel.setTcb_OSTCBTbl, Function.update_self, Situation.isWaiting, Option.map_some]
    rw [h.stat (by simp)]
    refine Eq.trans statOf_or_msk ?_
    congr 2
    exact (type_setEvent (k := k) (e := e) { k.events e with waits := (k.events e).waits.add k.OSPrioCur } rfl e).symm
  statPend _ := by simp [Kernel.waitOn, Kernel.OS_EventTaskWait, Kernel.makeUnready, Kernel.setPc, Kernel.setEvent,
    Situation.statPend]
  dly hset := by cases hset
  msg e m hg := by cases hg
  ready := by simp [Kernel.waitOn, Kernel.OS_EventTaskWait, Kernel.makeUnready, Kernel.setPc, Kernel.setEvent,
    Situation.canRun, Situation.settled]
  waits e' := by
    have := h.waits e'
    by_cases he : e' = e
    · subst he
      simp [Kernel.waitOn, Kernel.OS_EventTaskWait, Kernel.makeUnready, Kernel.setPc, Kernel.setEvent, Situation.waitsFor]
    · rw [Situation.waitsFor, beq_eq_false_iff_ne.mpr he]
      simpa [Kernel.waitOn, Kernel.OS_EventTaskWait, Kernel.makeUnready, Kernel.setPc, Kernel.setEvent,
        Situation.waitsFor, he] using this
  pc := by simp [Kernel.setPc, Situation.At]

theorem pendWake_eq (k : Kernel α) (e : ℕ) : ∃ msg, (k.pendWake e).k = { k with
    OSTCBTbl := Function.update k.OSTCBTbl k.OSPrioCur
      ⟨OS_STAT_RDY, OS_STAT_PEND_OK, (k.OSTCBTbl k.OSPrioCur).OSTCBDly, msg⟩
    events := if (k.OSTCBTbl k.OSPrioCur).OSTCBStatPend = OS_STAT_PEND_TO then
      Function.update k.events e { k.events e with waits := (k.events e).waits.remove k.OSPrioCur } else k.events } := by
  refine ⟨if (k.events e).store.type = OS_EVENT_TYPE_SEM then (k.OSTCBTbl k.OSPrioCur).OSTCBMsg else none, ?_⟩
  unfold Kernel.pendWake
  dsimp only
  split <;> simp [*, Kernel.setTcb, Kernel.OS_EventTaskRemove, Kernel.setEvent]

theorem fits_pendWake (h : Fits k k.OSPrioCur s false) (hset : s.settled = true) (hp : s.pendsOn = some e) :
    Fits ((k.pendWake e).k.setPc k.OSPrioCur .run) k.OSPrioCur .awake false := by
  have hne : s ≠ .absent := by rintro rfl; cases hset
  obtain ⟨msg, heq⟩ := pendWake_eq k e
  rw [heq]
  constructor
  · exact h.created.trans (iff_of_true hne (by simp))
  · intro _; simp [Kernel.setPc, statOf, Situation.isWaiting, OS_STAT_RDY]
  · intro _; simp [Kernel.setPc, Situation.statPend]
  · intro h0; cases h0
  · intro e m hg; cases hg
  · have hd := h.dly hset
    have hr := h.ready
    rw [Fits.canRun_of_settled hset] at hr
    simpa [Kernel.setPc, Situation.canRun, hd] using hr
  · intro e'
    have hw := h.waits e'
    simp only [Kernel.setPc, h.statPend hne]
    cases s with
    | timedOut e₁ =>
      obtain rfl := Option.some.inj hp
      by_cases he : e' = e₁
      · subst he; simp [Situation.statPend, Situation.waitsFor]
      · rw [Situation.waitsFor, beq_eq_false_iff_ne.mpr he] at hw
        simpa [Situation.statPend, Situation.waitsFor, he] using hw
    | given e₁ m₁ => simpa [Situation.statPend, Situation.waitsFor] using hw
    | aborted e₁ => simpa [Situation.statPend, Situation.waitsFor] using hw
    | absent => cases hset
    | awake => cases hset
    | waiting e₁ => cases hset
  · simp [Kernel.setPc, Situation.At]

/-- The control block after a tick that ends its delay. -/
def expired (t : OS_TCB α) : OS_TCB α :=
  if t.OSTCBStat &&& OS_STAT_PEND_ANY ≠ OS_STAT_RDY then
    ⟨t.OSTCBStat &&& ~~~OS_STAT_PEND_ANY, OS_STAT_PEND_TO, 0, t.OSTCBMsg⟩
  else ⟨t.OSTCBStat, OS_STAT_PEND_OK, 0, t.OSTCBMsg⟩

theorem tickTcb_eq (k : Kernel α) (p : Prio) : k.tickTcb p =
    if (k.OSTCBTbl p).OSTCBDly = 0 then k
    else if (k.OSTCBTbl p).OSTCBDly = 1 then
      { k with
        OSTCBTbl := Function.update k.OSTCBTbl p (expired (k.OSTCBTbl p))
        OSRdy := if (expired (k.OSTCBTbl p)).OSTCBStat &&& OS_STAT_SUSPEND = OS_STAT_RDY then k.OSRdy.add p else k.OSRdy }
    else k.setTcb p { k.OSTCBTbl p with OSTCBDly := (k.OSTCBTbl p).OSTCBDly - 1 } := by
  unfold Kernel.tickTcb expired
  by_cases h0 : (k.OSTCBTbl p).OSTCBDly = 0
  · simp [h0]
  by_cases h1 : (k.OSTCBTbl p).OSTCBDly = 1
  · simp only [h1]
    by_cases hst : (k.OSTCBTbl p).OSTCBStat &&& OS_STAT_PEND_ANY ≠ OS_STAT_RDY
    · simp only [if_pos hst]
      simp [Kernel.makeReady, Kernel.setTcb, apply_ite]
      split <;> rfl
    · simp only [if_neg hst]
      simp [Kernel.makeReady, Kernel.setTcb]
      split <;> rfl
  · have hd : (k.OSTCBTbl p).OSTCBDly - 1 ≠ 0 := by omega
    simp [h0, h1, hd]

/-- A tick takes a task out of its delay, or out of its wait when the time is out. -/
theorem fits_tickTcb (h : Fits k p s susp) (hc : k.OSTCBPrioTbl p = true) :
    ∃ s', Fits (k.tickTcb p) p s' susp ∧ s'.slot = s.slot := by
  have hne := h.created.mp hc
  rw [tickTcb_eq]
  split
  · exact ⟨s, h, rfl⟩
  · next h0 =>
    have hns : s.settled = false := Bool.eq_false_iff.mpr fun hset => h0 (h.dly hset)
    have hstat := h.stat hne
    split
    · cases s with
      | absent => exact absurd rfl hne
      | timedOut e => cases hns
      | given e m => cases hns
      | aborted e => cases hns
      | awake =>
        have hexp : expired (k.OSTCBTbl p) = ⟨statOf none susp, OS_STAT_PEND_OK, 0, (k.OSTCBTbl p).OSTCBMsg⟩ := by
          rw [expired, hstat, if_neg (by rw [statOf_pends]; exact Bool.false_ne_true)]
          rfl
        refine ⟨.awake, ?_, rfl⟩
        simp only [hexp, statOf_suspended]
        constructor
        · exact h.created
        · intro _; simp [Situation.isWaiting]
        · intro _; simp [Situation.statPend]
        · intro hset; cases hset
        · intro e m hg; cases hg
        · cases susp <;> simp [Situation.canRun, h.ready]
        · exact h.waits
        · exact h.pc
      | waiting e =>
        have hexp : expired (k.OSTCBTbl p) = ⟨statOf none susp, OS_STAT_PEND_TO, 0, (k.OSTCBTbl p).OSTCBMsg⟩ := by
          rw [expired, hstat, if_pos (by rw [statOf_pends]; rfl), statOf_clear_any]
        refine ⟨.timedOut e, ?_, rfl⟩
        simp only [hexp, statOf_suspended]
        constructor
        · exact h.created.trans (by simp)
        · intro _; simp [Situation.isWaiting]
        · intro _; simp [Situation.statPend]
        · intro _; simp
        · intro e m hg; cases hg
        · cases susp <;> simp [Situation.canRun, Situation.settled, h.ready]
        · exact h.waits
        · exact h.pc
    · next h1 =>
      refine ⟨s, ?_, rfl⟩
      constructor
      · exact h.created
      · intro hne; simpa using hstat
      · intro hne; simpa using h.statPend hne
      · intro hset; exact absurd hset (by simp [hns])
      · intro e m hg; subst hg; cases hns
      · have hd : ¬(k.OSTCBTbl p).OSTCBDly - 1 = 0 := by omega
        simp [h.ready, h0, hd]
      · exact h.waits
      · exact h.pc

end

end SerialNet.Ucos
