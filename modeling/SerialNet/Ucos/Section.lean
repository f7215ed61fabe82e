import Mathlib.Data.Fintype.Card
import SerialNet.Ucos.Task

/-!
# What one critical section does

`Prim` lists the changes a service can make to the system, `Called` says of
each service which of them it makes and where its caller goes on. What holds of
runs is shown change by change.
-/

namespace SerialNet.Ucos

open BitIndex Circ

section
variable {α : Type} {k k' : Kernel α}

/-- A service has used the store of event `e`, as it notes. -/
inductive Used (k : Kernel α) (e : ℕ) : Store α → Obs α → Prop
  | put {m st} (hw : (k.events e).waits.isEmpty = true) (hm : k.type e = OS_EVENT_TYPE_MBOX → m ≠ none)
    (hs : k.type e = OS_EVENT_TYPE_SEM → m = none) (h : (k.events e).store.put m = some st) : Used k e st (.put e m)
  | lost (h : (k.events e).store = .mbox none) : Used k e (.mbox none) (.lost e)
  | putFront {m st} (hw : (k.events e).waits.isEmpty = true) (h : (k.events e).store.putFront m = some st) :
    Used k e st (.putFront e m)
  | take {c m st} (hc : c = k.caller) (h : (k.events e).store.take = some (m, st)) : Used k e st (.take e c m)
  | flush {b} (h : (k.events e).store = .q b) : Used k e (.q b.flush) (.flush e)
  | set {c n} (h : (k.events e).store = .sem c) (hw : 0 < c ∨ (k.events e).waits.isEmpty = true) :
    Used k e (.sem n) (.set e n)

/-- A service has found the store of event `e` full or empty. -/
inductive Found (k : Kernel α) : Obs α → Prop
  | full {e m} (h : (k.events e).store.put m = none) : Found k (.full e)
  | fullFront {e m b} (hq : (k.events e).store = .q b) (h : (k.events e).store.putFront m = none) : Found k (.full e)
  | empty {e c} (h : (k.events e).store.take = none) : Found k (.empty e c)

namespace Kernel

/-- The current task is put to wait for event `e`. -/
def waitOn (k : Kernel α) (e timeout : ℕ) : Kernel α :=
  (k.setTcb k.OSPrioCur ⟨(k.OSTCBTbl k.OSPrioCur).OSTCBStat ||| (k.type e).msk, OS_STAT_PEND_OK, timeout,
    (k.OSTCBTbl k.OSPrioCur).OSTCBMsg⟩).OS_EventTaskWait e

def delay (k : Kernel α) (ticks : ℕ) : Kernel α :=
  (k.makeUnready k.OSPrioCur).setTcb k.OSPrioCur { k.OSTCBTbl k.OSPrioCur with OSTCBDly := ticks }

def suspend (k : Kernel α) (p : Prio) : Kernel α :=
  (k.makeUnready p).setTcb p { k.OSTCBTbl p with OSTCBStat := (k.OSTCBTbl p).OSTCBStat ||| OS_STAT_SUSPEND }

/-- The suspension is removed; `ready` tells whether the task can run again. -/
def resume (k : Kernel α) (p : Prio) (ready : Bool) : Kernel α :=
  let k' := k.setTcb p { k.OSTCBTbl p with OSTCBStat := (k.OSTCBTbl p).OSTCBStat &&& ~~~OS_STAT_SUSPEND }
  if ready then k'.makeReady p else k'

def create (k : Kernel α) (p : Prio) : Kernel α :=
  (({ k with OSTCBPrioTbl := Function.update k.OSTCBPrioTbl p true }.setTcb p
    ⟨OS_STAT_RDY, OS_STAT_PEND_OK, 0, none⟩).setPc p .run).makeReady p

end Kernel

/-- The changes that services are made of, with what is noted of them. -/
inductive Prim (k : Kernel α) : Kernel α → List (Obs α) → Prop
  | found {o} (h : Found k o) : Prim k k [o]
  | used {e st o} (h : Used k e st o) : Prim k (k.setStore e st) [o]
  | give {e m} (hw : (k.events e).waits.isEmpty = false) (hm : k.type e = OS_EVENT_TYPE_SEM → m = none) :
    Prim k (k.OS_EventTaskRdy e m (k.type e).msk OS_STAT_PEND_OK) [.give e (k.eventHPT e) m]
  | delay {n} (hi : k.OSIntNesting = 0) (hl : k.OSLockNesting = 0) (hn : 0 < n) : Prim k (k.delay n) []
  | suspend {p} (hc : k.OSTCBPrioTbl p = true) (hp : p ≠ OS_TASK_IDLE_PRIO) : Prim k (k.suspend p) []
  | resume {p ready} (hc : k.OSTCBPrioTbl p = true)
    (hs : (k.OSTCBTbl p).OSTCBStat &&& OS_STAT_SUSPEND ≠ OS_STAT_RDY)
    (hr : ready = true ↔ (k.OSTCBTbl p).OSTCBStat &&& ~~~OS_STAT_SUSPEND = OS_STAT_RDY ∧ (k.OSTCBTbl p).OSTCBDly = 0) :
    Prim k (k.resume p ready) []
  | create {p} (hi : k.OSIntNesting = 0) (hc : k.OSTCBPrioTbl p = false) : Prim k (k.create p) []
  | lock {n} (hn : n ≤ k.OSLockNesting ∨ k.OSIntNesting = 0) : Prim k { k with OSLockNesting := n } []

/-- The pends of tasks that wait for event `e` are aborted, highest priority first. -/
inductive Aborts (e : ℕ) : Kernel α → Kernel α → List (Obs α) → Prop
  | nil {a} : Aborts e a a []
  | cons {a b os} (hw : (a.events e).waits.isEmpty = false)
    (t : Aborts e (a.OS_EventTaskRdy e none (a.type e).msk OS_STAT_PEND_ABORT) b os) :
    Aborts e a b (.abort e (a.eventHPT e) :: os)

inductive Did (k : Kernel α) : Kernel α → List (Obs α) → Prop
  | rest : Did k k []
  | prim {b os} (h : Prim k b os) : Did k b os
  | aborts {e b os} (h : Aborts e k b os) : Did k b os

theorem Prim.did {o : List (Obs α)} (h : Prim k k' o) : Did k k' o := .prim h

/-- The current task keeps its place: it cannot be replaced now, or no other task was made ready. -/
def Quiet (k k' : Kernel α) : Prop :=
  0 < k.OSIntNesting ∨ 0 < k'.OSLockNesting ∨ k.OSLockNesting = 0 ∧
    (k'.OSRdy = k.OSRdy ∨ ∃ p, p ≠ k.OSPrioCur ∧ k'.OSRdy = k.OSRdy.remove p)

theorem Quiet.of_eq (hl : k'.OSLockNesting = k.OSLockNesting) (hr : k'.OSRdy = k.OSRdy) : Quiet k k' := by
  rcases Nat.eq_zero_or_pos k.OSLockNesting with h | h
  · exact .inr (.inr ⟨h, .inl hr⟩)
  · exact .inr (.inl (hl ▸ h))

/-- What a service does: its caller waits for an event, or it makes its changes
and returns, with the scheduler called first where a task was made ready. -/
inductive Called (k : Kernel α) (c : Call α) : Prop
  | waits {e timeout} (hi : k.OSIntNesting = 0) (hl : k.OSLockNesting = 0)
    (he : (k.events e).store.take = none) (hk : c.k = k.waitOn e timeout)
    (hn : c.next = .pendSched e) (hlog : c.log = [.block e k.OSPrioCur])
  | did (hd : Did k c.k c.log) (hn : c.next = .sched ∨ c.next = .run ∧ Quiet k c.k)

theorem Called.rest {c : Call α} (hk : c.k = k) (hn : c.next = .run) (hlog : c.log = []) : Called k c := by
  refine .did ?_ (.inr ⟨hn, ?_⟩)
  · rw [hk, hlog]; exact .rest
  · rw [hk]; exact .of_eq rfl rfl

theorem Called.one {c : Call α} (hp : Prim k c.k c.log) (hn : c.next = .run)
    (hl : c.k.OSLockNesting = k.OSLockNesting) (hr : c.k.OSRdy = k.OSRdy) : Called k c :=
  .did hp.did (.inr ⟨hn, .of_eq hl hr⟩)

/-! ## Each service -/

theorem pend_called (ty : EventType) (e timeout : ℕ) : Called k (k.pend ty e timeout) := by
  unfold Kernel.pend
  split
  · exact .rest rfl rfl rfl
  · next hty =>
    split
    · exact .rest rfl rfl rfl
    · split
      · exact .rest rfl rfl rfl
      · split
        · next hst => exact .one (.used (.take (if_pos (by omega)).symm hst)) rfl rfl rfl
        · next hst =>
          refine @Called.waits _ _ _ e timeout (by omega) (by omega) hst ?_ rfl rfl
          have hty : (k.events e).store.type = ty := by simpa using hty
          simp [Kernel.waitOn, Kernel.type, hty]

section
variable {ty : EventType} {put : Store α → Option α → Option (Store α)} {stored : ℕ → Option α → Obs α}
  {e : ℕ} {m : Option α}

theorem post_called (hput : ∀ st, k.type e = ty → (k.events e).waits.isEmpty = true →
      put (k.events e).store m = some st → Used k e st (stored e m))
    (hfull : k.type e = ty → put (k.events e).store m = none → Found k (.full e))
    (hm : ty = OS_EVENT_TYPE_SEM → m = none) : Called k (k.post ty put stored e m) := by
  unfold Kernel.post
  split
  · exact .rest rfl rfl rfl
  · next hty =>
    have hty : k.type e = ty := by simpa [Kernel.type] using hty
    subst hty
    split
    · next hw => exact .did (Prim.give hw hm).did (.inl rfl)
    · next hw =>
      have hw : (k.events e).waits.isEmpty = true := by simpa using hw
      split
      · next hst => exact .one (.found (hfull rfl hst)) rfl rfl rfl
      · next st hst => exact .one (.used (hput st rfl hw hst)) rfl rfl rfl

theorem OSQPost_called : Called k (k.OSQPost e m) :=
  post_called (fun _ hty hw h => .put hw (fun hmbox => absurd (hty.symm.trans hmbox) (by decide))
    (fun hsem => absurd (hty.symm.trans hsem) (by decide)) h) (fun _ h => .full h) fun h => absurd h (by decide)

theorem OSSemPost_called : Called k (k.OSSemPost e) :=
  post_called (fun _ hty hw h => .put hw (fun hmbox => absurd (hty.symm.trans hmbox) (by decide)) (fun _ => rfl) h)
    (fun _ h => .full h) fun _ => rfl

theorem OSMboxPost_called : Called k (k.OSMboxPost e m) := by
  refine post_called (fun st hty hw h => ?_) (fun _ h => .full h) fun h => absurd h (by decide)
  unfold Kernel.type at hty
  cases m with
  | some m => exact .put hw (fun _ => Option.some_ne_none m) (fun hsem => absurd (hty.symm.trans hsem) (by decide)) h
  | none =>
    cases hst : (k.events e).store with
    | sem cnt => rw [hst] at hty; cases hty
    | q pq => rw [hst] at hty; cases hty
    | mbox pmsg =>
      rw [hst] at h
      cases pmsg with
      | none => cases h; exact .lost hst
      | some _ => cases h

theorem OSQPostFront_called : Called k (k.OSQPostFront e m) := by
  refine post_called (fun _ _ hw h => .putFront hw h) (fun hty h => ?_) fun h => absurd h (by decide)
  unfold Kernel.type at hty
  cases hst : (k.events e).store with
  | sem cnt => rw [hst] at hty; cases hty
  | mbox pmsg => rw [hst] at hty; cases hty
  | q pq => exact .fullFront hst h

theorem accept_called (ty : EventType) (err : Err) : Called k (k.accept ty err e) := by
  unfold Kernel.accept
  split
  · exact .rest rfl rfl rfl
  · split
    · next hst => exact .one (.used (.take rfl hst)) rfl rfl rfl
    · next hst => exact .one (.found (.empty hst)) rfl rfl rfl

theorem Called.of_eq {c c' : Call α} (h : Called k c) (hk : c'.k = c.k) (hn : c'.next = c.next) (hl : c'.log = c.log) :
    Called k c' := by
  cases h with
  | waits hi hl' he hk' hn' hlog => exact .waits hi hl' he (hk.trans hk') (hn.trans hn') (hl.trans hlog)
  | did hd hq => exact .did (by rw [hk, hl]; exact hd) (by rw [hn, hk]; exact hq)

theorem type_OS_EventTaskRdy (msk : BitVec 8) (st : PendStat) (e' : ℕ) :
    (k.OS_EventTaskRdy e m msk st).type e' = k.type e' := by
  unfold Kernel.OS_EventTaskRdy Kernel.OS_EventTaskRemove Kernel.setEvent Kernel.type
  by_cases he : e' = e
  · subst he; dsimp only; split <;> simp [Kernel.makeReady, Kernel.setTcb]
  · dsimp only; split <;> simp [Kernel.makeReady, Kernel.setTcb, he]

theorem abortAll_aborts (fuel : ℕ) : Aborts e k (Kernel.abortAll (k.type e).msk e fuel k).1
    (Kernel.abortAll (k.type e).msk e fuel k).2.2 := by
  induction fuel generalizing k with
  | zero => exact .nil
  | succ fuel ih =>
    unfold Kernel.abortAll
    split
    · exact .nil
    · next hw =>
      have hw : (k.events e).waits.isEmpty = false := by simpa using hw
      have ih := ih (k := k.OS_EventTaskRdy e none (k.type e).msk OS_STAT_PEND_ABORT)
      rw [type_OS_EventTaskRdy] at ih
      exact .cons hw ih

theorem pendAbort_called (broadcast : Bool) : Called k (k.pendAbort ty e broadcast) := by
  unfold Kernel.pendAbort
  split
  · exact .rest rfl rfl rfl
  · next hty =>
    have hty : k.type e = ty := by simpa [Kernel.type] using hty
    subst hty
    split
    · exact .did (.aborts (abortAll_aborts _)) (.inl rfl)
    · exact .rest rfl rfl rfl

theorem OSQFlush_called : Called k (k.OSQFlush e) := by
  unfold Kernel.OSQFlush
  split
  · next hst => exact .one (.used (.flush hst)) rfl rfl rfl
  · exact .rest rfl rfl rfl

theorem OSSemSet_called (cnt : ℕ) : Called k (k.OSSemSet e cnt) := by
  unfold Kernel.OSSemSet
  split
  · next hst =>
    split
    · next hc => exact .one (.used (.set hst (.inl hc))) rfl rfl rfl
    · split
      · next hw => exact .one (.used (.set hst (.inr hw))) rfl rfl rfl
      · exact .rest rfl rfl rfl
  · exact .rest rfl rfl rfl

end

section
variable {p : Prio}

theorem OSTimeDly_called (ticks : ℕ) : Called k (k.OSTimeDly ticks) := by
  unfold Kernel.OSTimeDly
  split
  · exact .rest rfl rfl rfl
  · split
    · exact .rest rfl rfl rfl
    · split
      · exact .did (Prim.delay (by omega) (by omega) ‹_›).did (.inl rfl)
      · exact .rest rfl rfl rfl

theorem OSTaskSuspend_called (hp : p ≠ OS_TASK_IDLE_PRIO) : Called k (k.OSTaskSuspend p) := by
  unfold Kernel.OSTaskSuspend
  split
  · exact .rest rfl rfl rfl
  · next hc =>
    refine .did (Prim.suspend (by simpa using hc) hp).did ?_
    dsimp only
    split
    · exact .inl rfl
    · next hcur =>
      refine .inr ⟨rfl, ?_⟩
      rcases Nat.eq_zero_or_pos k.OSLockNesting with h | h
      · exact .inr (.inr ⟨h, .inr ⟨p, hcur, rfl⟩⟩)
      · exact .inr (.inl h)

theorem OSTaskResume_called : Called k (k.OSTaskResume p) := by
  unfold Kernel.OSTaskResume
  split
  · exact .rest rfl rfl rfl
  · next hc =>
    have hc : k.OSTCBPrioTbl p = true := by simpa using hc
    dsimp only
    split
    · next hs =>
      split
      · next hr => exact .did (@Prim.resume _ _ _ true hc hs (by simpa using hr)).did (.inl rfl)
      · next hr => exact .one (@Prim.resume _ _ _ false hc hs (by simpa using hr)) rfl rfl rfl
    · exact .rest rfl rfl rfl

theorem OSTaskCreate_called : Called k (k.OSTaskCreate p) := by
  unfold Kernel.OSTaskCreate
  split
  · exact .rest rfl rfl rfl
  · split
    · exact .rest rfl rfl rfl
    · next hc => exact .did (Prim.create (by omega) (by simpa using hc)).did (.inl rfl)

theorem OSSchedLock_called : Called k k.OSSchedLock := by
  unfold Kernel.OSSchedLock
  split
  · next h => exact .did (Prim.lock (.inr h.1)).did (.inr ⟨rfl, .inr (.inl (Nat.succ_pos _))⟩)
  · exact .rest rfl rfl rfl

theorem OSSchedUnlock_called : Called k k.OSSchedUnlock := by
  unfold Kernel.OSSchedUnlock
  split
  · have hprim : Prim k { k with OSLockNesting := k.OSLockNesting - 1 } [] := .lock (.inl (Nat.sub_le _ _))
    dsimp only
    split
    · exact .did hprim.did (.inl rfl)
    · refine .did hprim.did (.inr ⟨rfl, ?_⟩)
      rcases Nat.eq_zero_or_pos k.OSIntNesting with hi | hi
      · exact .inr (.inl (by dsimp only; omega))
      · exact .inl hi
  · exact .rest rfl rfl rfl

end

/-- The service is not the suspension of the idle task. -/
def Service.SparesIdle : Service α → Prop
  | .OSTaskSuspend p => p ≠ OS_TASK_IDLE_PRIO
  | _ => True

instance (s : Service α) : Decidable s.SparesIdle := by
  cases s <;> unfold Service.SparesIdle <;> infer_instance

theorem Service.called (s : Service α) (hs : s.SparesIdle) : Called k (s.call k) := by
  cases s with
  | OSQPend e timeout => exact pend_called _ e timeout
  | OSQPost e pmsg => exact OSQPost_called
  | OSQPostFront e pmsg => exact OSQPostFront_called
  | OSQAccept e => exact accept_called _ _
  | OSQPendAbort e broadcast => exact pendAbort_called broadcast
  | OSQFlush e => exact OSQFlush_called
  | OSMboxPend e timeout => exact pend_called _ e timeout
  | OSMboxPost e pmsg => exact OSMboxPost_called
  | OSMboxAccept e => exact (accept_called OS_EVENT_TYPE_MBOX OS_ERR_NONE).of_eq rfl rfl rfl
  | OSMboxPendAbort e broadcast => exact pendAbort_called broadcast
  | OSSemPend e timeout => exact pend_called _ e timeout
  | OSSemPost e => exact OSSemPost_called
  | OSSemAccept e => exact (accept_called OS_EVENT_TYPE_SEM OS_ERR_NONE).of_eq rfl rfl rfl
  | OSSemPendAbort e broadcast => exact pendAbort_called broadcast
  | OSSemSet e cnt => exact OSSemSet_called cnt
  | OSTimeDly ticks => exact OSTimeDly_called ticks
  | OSTaskSuspend prio => exact OSTaskSuspend_called hs
  | OSTaskResume prio => exact OSTaskResume_called
  | OSTaskCreate prio => exact OSTaskCreate_called
  | OSSchedLock => exact OSSchedLock_called
  | OSSchedUnlock => exact OSSchedUnlock_called

end

end SerialNet.Ucos
