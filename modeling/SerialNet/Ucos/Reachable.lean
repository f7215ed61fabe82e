import SerialNet.Ucos.Inductive
import SerialNet.Lib.Run

/-!
# What holds in every state of a run

`Inv` is kept by every action that does not suspend the idle task.
-/

namespace SerialNet.Ucos

open BitIndex Circ

section
variable {α : Type} {k k' : Kernel α} {p q : Prio} {s : Situation α} {susp : Bool} {e : ℕ} {m : Option α}
  {os : List (Obs α)}

/-- No task waits for an event that has something to take. -/
def Served (k : Kernel α) : Prop :=
  ∀ e p, (k.events e).waits.has p = true → (k.events e).store.take = none

structure Core (k : Kernel α) : Prop where
  tasks : ∀ p, ∃ s susp, Fits k p s susp
  idle : k.OSRdy.has OS_TASK_IDLE_PRIO = true
  served : Served k

/-- With the running task: it does not pend while the scheduler is locked, and
it is the highest that is ready unless it is about to call the scheduler. -/
structure Inv (k : Kernel α) : Prop extends Core k where
  locked : 0 < k.OSLockNesting → k.pc k.OSPrioCur = .run ∨ k.pc k.OSPrioCur = .sched
  highest : k.OSIntNesting = 0 → k.OSLockNesting = 0 →
    (k.pc k.OSPrioCur = .run ∨ ∃ e, k.pc k.OSPrioCur = .pendWake e) → k.OSPrioCur = k.OS_SchedNew

theorem has_schedNew (h : k.OSRdy.has p = true) : k.OSRdy.has k.OS_SchedNew = true :=
  Index.has_first unMap_findsLow unMap_findsLow (Index.not_isEmpty_iff.mpr ⟨p, h⟩)

theorem schedNew_le (h : k.OSRdy.has p = true) : k.OS_SchedNew ≤ p :=
  Index.first_le unMap_findsLow unMap_findsLow h

theorem Inv.ready_cur (h : Inv k) (hi : k.OSIntNesting = 0) (hl : k.OSLockNesting = 0)
    (hpc : k.pc k.OSPrioCur = .run ∨ ∃ e, k.pc k.OSPrioCur = .pendWake e) : k.OSRdy.has k.OSPrioCur = true := by
  rw [h.highest hi hl hpc]
  exact has_schedNew h.idle

/-! ## Nobody waits beside a message -/

theorem served_shrink (h : Served k) (hst : ∀ e, (k'.events e).store = (k.events e).store)
    (hw : ∀ e p, (k'.events e).waits.has p = true → (k.events e).waits.has p = true) : Served k' := by
  intro e p hp
  rw [hst]
  exact h e p (hw e p hp)

theorem Used.served {st : Store α} {o : Obs α} (h : Used k e st o) (hk : Served k) : Served (k.setStore e st) := by
  intro e' p hp
  by_cases he : e' = e
  · subst he
    have hp : (k.events e').waits.has p = true := by simpa [Kernel.setStore, Kernel.setEvent] using hp
    have hnone := hk e' p hp
    have hbusy : (k.events e').waits.isEmpty = false := Index.not_isEmpty_iff.mpr ⟨p, hp⟩
    simp only [Kernel.setStore, Kernel.setEvent, Function.update_self]
    cases h with
    | put hw hm hs h => rw [hbusy] at hw; cases hw
    | lost h => rfl
    | putFront hw h => rw [hbusy] at hw; cases hw
    | take hc h => rw [hnone] at h; cases h
    | flush h => rfl
    | set h hw =>
      rcases hw with hw | hw
      · rw [h, Store.take, if_pos hw] at hnone; cases hnone
      · rw [hbusy] at hw; cases hw
  · have hp : (k.events e').waits.has p = true := by simpa [Kernel.setStore, Kernel.setEvent, he] using hp
    simpa [Kernel.setStore, Kernel.setEvent, he] using hk e' p hp

theorem served_rdy (msk : BitVec 8) (st : PendStat) (h : Served k) : Served (k.OS_EventTaskRdy e m msk st) := by
  rw [Kernel.OS_EventTaskRdy_eq]
  refine served_shrink h (fun e' => ?_) (fun e' p hp => ?_)
  · by_cases he : e' = e
    · subst he; simp
    · simp [he]
  · by_cases he : e' = e
    · subst he
      simp only [Function.update_self, Index.has_remove, Bool.and_eq_true] at hp
      exact hp.2
    · simpa [he] using hp

theorem Aborts.served (h : Aborts e k k' os) : Served k → Served k' := by
  induction h with
  | nil => exact id
  | cons _ _ ih => exact fun hk => ih (served_rdy _ _ hk)

theorem Prim.served (h : Prim k k' os) (hk : Served k) : Served k' := by
  cases h with
  | found | suspend | delay | create | lock => exact hk
  | used h => exact h.served hk
  | give => exact served_rdy _ _ hk
  | @resume p ready => cases ready <;> exact hk

theorem Did.served (h : Did k k' os) (hk : Served k) : Served k' := by
  cases h with
  | rest => exact hk
  | prim h => exact h.served hk
  | aborts h => exact h.served hk

/-! ## The idle task stays ready -/

theorem ready_rdy (msk : BitVec 8) (st : PendStat) (h : k.OSRdy.has p = true) :
    (k.OS_EventTaskRdy e m msk st).OSRdy.has p = true := by
  rw [Kernel.OS_EventTaskRdy_eq]
  dsimp only
  split <;> simp [h]

theorem Aborts.idle (h : Aborts e k k' os) : k.OSRdy.has p = true → k'.OSRdy.has p = true := by
  induction h with
  | nil => exact id
  | cons _ _ ih => exact fun hk => ih (ready_rdy _ _ hk)

theorem Did.idle (h : Did k k' os) (hcur : k.OSIntNesting = 0 → k.OSPrioCur ≠ OS_TASK_IDLE_PRIO)
    (hk : k.OSRdy.has OS_TASK_IDLE_PRIO = true) : k'.OSRdy.has OS_TASK_IDLE_PRIO = true := by
  cases h with
  | rest => exact hk
  | aborts h => exact h.idle hk
  | prim h =>
    cases h with
    | found | used | lock => exact hk
    | give => exact ready_rdy _ _ hk
    | delay hi => simp [Kernel.delay, Kernel.makeUnready, hk, Ne.symm (hcur hi)]
    | suspend hc hp => simp [Kernel.suspend, Kernel.makeUnready, hk, Ne.symm hp]
    | @resume p ready => cases ready <;> simp [Kernel.resume, Kernel.makeReady, hk]
    | create => simp [Kernel.create, Kernel.makeReady, Kernel.setPc, hk]

/-! ## What a service leaves as it is -/

theorem Aborts.frame (h : Aborts e k k' os) : k'.OSPrioCur = k.OSPrioCur ∧ k'.OSIntNesting = k.OSIntNesting ∧
    k'.OSLockNesting = k.OSLockNesting ∧ k'.pc = k.pc := by
  induction h with
  | nil => exact ⟨rfl, rfl, rfl, rfl⟩
  | cons _ _ ih => simpa [Kernel.OS_EventTaskRdy_eq] using ih

theorem Did.frame (h : Did k k' os) : k'.OSPrioCur = k.OSPrioCur ∧ k'.OSIntNesting = k.OSIntNesting ∧
    (k.pc k.OSPrioCur = .run → k'.pc k.OSPrioCur = .run) ∧
    (0 < k.OSIntNesting → k'.pc = k.pc ∧ k'.OSLockNesting ≤ k.OSLockNesting) := by
  cases h with
  | rest => exact ⟨rfl, rfl, id, fun _ => ⟨rfl, le_rfl⟩⟩
  | aborts h =>
    obtain ⟨hc, hi, hl, hpc⟩ := h.frame
    exact ⟨hc, hi, fun h => by rw [hpc, h], fun _ => ⟨hpc, hl.le⟩⟩
  | prim h =>
    cases h with
    | found | used | delay | suspend => exact ⟨rfl, rfl, id, fun _ => ⟨rfl, le_rfl⟩⟩
    | give => simp [Kernel.OS_EventTaskRdy_eq]
    | @resume p ready => cases ready <;> exact ⟨rfl, rfl, id, fun _ => ⟨rfl, le_rfl⟩⟩
    | @create p hi =>
      refine ⟨rfl, rfl, fun h => ?_, fun h => by omega⟩
      by_cases hp : k.OSPrioCur = p
      · simp [Kernel.create, Kernel.makeReady, Kernel.setPc, hp]
      · simpa [Kernel.create, Kernel.makeReady, Kernel.setPc, hp] using h
    | lock hn => exact ⟨rfl, rfl, id, fun h => ⟨rfl, hn.elim id fun h0 => by omega⟩⟩

theorem Fits.setPc {pc : Pc} (h : Fits k q s susp) (hat : q = p → s.At pc) : Fits (k.setPc p pc) q s susp := by
  by_cases hq : q = p
  · subst hq
    exact { h with pc := by simpa [Kernel.setPc] using hat rfl }
  · exact h.of_same (same_setPc _ hq)

theorem at_run_or_sched (hs : s = .awake ∨ s = .absent) {pc : Pc} (hpc : pc = .run ∨ pc = .sched) : s.At pc := by
  rcases hs with rfl | rfl
  · exact hpc
  · exact trivial

/-- A task at the end of a service is not in a pend. -/
theorem Fits.of_sched (h : Fits k p s susp) (hpc : k.pc p = .sched) : s = .awake ∨ s = .absent := by
  have := h.pc
  rw [hpc] at this
  cases s <;> simp_all [Situation.At]

/-! ## The scheduler -/

theorem same_current (c : Prio) : SameTask k { k with OSPrioCur := c } q :=
  ⟨rfl, rfl, rfl, fun _ => rfl, rfl, fun _ => rfl⟩

theorem same_sched : SameTask k k.OS_Sched q := by
  unfold Kernel.OS_Sched
  split
  · split
    · exact same_current _
    · exact .refl k q
  · exact .refl k q

theorem Core.of_same (h : Core k) (hs : ∀ q, SameTask k k' q) (hst : ∀ e, (k'.events e).store = (k.events e).store) :
    Core k' where
  tasks q := by
    obtain ⟨s, susp, hf⟩ := h.tasks q
    exact ⟨s, susp, hf.of_same (hs q)⟩
  idle := by rw [(hs _).ready]; exact h.idle
  served := served_shrink h.served hst fun e p hp => by rwa [(hs p).waits] at hp

/-- After `OS_Sched` the running task is the highest that is ready. -/
theorem Core.sched (h : Core k) (hi : k.OSIntNesting = 0)
    (hl : 0 < k.OSLockNesting → k.pc k.OSPrioCur = .run ∨ k.pc k.OSPrioCur = .sched) : Inv k.OS_Sched := by
  have hcore : Core k.OS_Sched := h.of_same (fun q => same_sched) fun e => by
    unfold Kernel.OS_Sched
    rw [if_pos hi]
    split <;> rfl
  refine ⟨hcore, ?_, ?_⟩ <;> rw [Kernel.OS_Sched, if_pos hi] <;> split
  · next h0 => exact fun hpos => absurd hpos (by dsimp only; omega)
  · next h0 => exact hl
  · next h0 => exact fun _ _ _ => rfl
  · next h0 => exact fun _ h1 _ => absurd h1 h0

/-! ## Each action -/

/-- The service is not the suspension of the idle task. -/
def Action.SparesIdle : Action α → Prop
  | .task s => s.SparesIdle
  | .isr s => s.SparesIdle
  | _ => True

instance (a : Action α) : Decidable a.SparesIdle := by
  cases a <;> unfold Action.SparesIdle <;> infer_instance

theorem Inv.task_waits {timeout : ℕ} (h : Inv k) (hi : k.OSIntNesting = 0) (hl : k.OSLockNesting = 0)
    (hpc : k.pc k.OSPrioCur = .run) (hidle : k.OSPrioCur ≠ OS_TASK_IDLE_PRIO) (he : (k.events e).store.take = none) :
    Inv ((k.waitOn e timeout).setPc k.OSPrioCur (.pendSched e)) ∧
      ∀ q, Passes k ((k.waitOn e timeout).setPc k.OSPrioCur (.pendSched e)) [.block e k.OSPrioCur] q := by
  have hpass : ∀ q, Passes k ((k.waitOn e timeout).setPc k.OSPrioCur (.pendSched e))
      [.block e k.OSPrioCur] q := by
    intro q
    by_cases hq : q = k.OSPrioCur
    · subst hq
      intro s susp hf
      obtain ⟨hcan, rfl, -⟩ := hf.of_ready (h.ready_cur hi hl (.inl hpc))
      rcases hf.of_run hpc with rfl | rfl
      · exact ⟨.waiting e, false, fits_waitOn hf, rfl⟩
      · cases hcan
    · exact .of_same ((same_waitOn hq).trans (same_setPc _ hq)) rfl rfl
  refine ⟨⟨⟨fun q => ?_, ?_, ?_⟩, fun hpos => ?_, fun _ _ hrun => ?_⟩, hpass⟩
  · obtain ⟨s, susp, hf⟩ := h.tasks q
    obtain ⟨s', susp', hf', -⟩ := hpass q s susp hf
    exact ⟨s', susp', hf'⟩
  · rw [((same_waitOn (Ne.symm hidle)).trans (same_setPc _ (Ne.symm hidle))).ready]
    exact h.idle
  · intro e' p hp
    by_cases he' : e' = e
    · subst he'
      simpa [Kernel.waitOn, Kernel.OS_EventTaskWait, Kernel.makeUnready, Kernel.setPc, Kernel.setEvent] using he
    · have hp : (k.events e').waits.has p = true := by
        simpa [Kernel.waitOn, Kernel.OS_EventTaskWait, Kernel.makeUnready, Kernel.setPc, Kernel.setEvent, he'] using hp
      simpa [Kernel.waitOn, Kernel.OS_EventTaskWait, Kernel.makeUnready, Kernel.setPc, Kernel.setEvent, he'] using
        h.served e' p hp
  · exact absurd hpos (by rw [show ((k.waitOn e timeout).setPc k.OSPrioCur _).OSLockNesting = k.OSLockNesting from rfl]; omega)
  · exfalso
    have hpc' : ((k.waitOn e timeout).setPc k.OSPrioCur (.pendSched e)).pc k.OSPrioCur = .pendSched e := by
      simp [Kernel.setPc]
    rw [show ((k.waitOn e timeout).setPc k.OSPrioCur (.pendSched e)).OSPrioCur = k.OSPrioCur from rfl, hpc'] at hrun
    rcases hrun with hrun | ⟨_, hrun⟩ <;> cases hrun

theorem Did.core (h : Did k k' os) (hk : Core k) (hr : Runs k)
    (hcur : k.OSIntNesting = 0 → k.OSPrioCur ≠ OS_TASK_IDLE_PRIO) : Core k' where
  tasks q := by
    obtain ⟨s, susp, hf⟩ := hk.tasks q
    obtain ⟨s', susp', hf', -⟩ := h.passes hr q s susp hf
    exact ⟨s', susp', hf'⟩
  idle := h.idle hcur hk.idle
  served := h.served hk.served

theorem Inv.task_did {next : Pc} (h : Inv k) (hi : k.OSIntNesting = 0) (hpc : k.pc k.OSPrioCur = .run)
    (hidle : k.OSPrioCur ≠ OS_TASK_IDLE_PRIO) (hd : Did k k' os)
    (hn : next = .sched ∨ next = .run ∧ Quiet k k') :
    Inv (k'.setPc k.OSPrioCur next) ∧ ∀ q, Passes k (k'.setPc k.OSPrioCur next) os q := by
  have hr : Runs k := fun _ => ⟨hpc, fun hl => h.ready_cur hi hl (.inl hpc)⟩
  have hnext : next = .run ∨ next = .sched := hn.elim .inr fun h => .inl h.1
  obtain ⟨hcur, hint, hrun, -⟩ := hd.frame
  have hpass : ∀ q, Passes k (k'.setPc k.OSPrioCur next) os q := by
    intro q s susp hf
    obtain ⟨s', susp', hf', heq⟩ := hd.passes hr q s susp hf
    refine ⟨s', susp', ?_, heq⟩
    refine hf'.setPc fun hq => ?_
    subst hq
    exact at_run_or_sched (hf'.of_run (hrun hpc)) hnext
  have hcore := hd.core h.toCore hr fun _ => hidle
  have hpc' : (k'.setPc k.OSPrioCur next).pc k'.OSPrioCur = next := by simp [Kernel.setPc, hcur]
  refine ⟨⟨⟨fun q => ?_, hcore.idle, hcore.served⟩, fun _ => hpc'.symm ▸ hnext, fun _ hl hpend => ?_⟩, hpass⟩
  · obtain ⟨s, susp, hf⟩ := h.tasks q
    obtain ⟨s', susp', hf', -⟩ := hpass q s susp hf
    exact ⟨s', susp', hf'⟩
  · change k'.OSPrioCur = k'.OS_SchedNew
    rcases hn with hn | ⟨-, hq⟩
    · rw [show (k'.setPc k.OSPrioCur next).OSPrioCur = k'.OSPrioCur from rfl, hpc', hn] at hpend
      rcases hpend with hpend | ⟨_, hpend⟩ <;> cases hpend
    · have hl : k'.OSLockNesting = 0 := hl
      rcases hq with hq | hq | ⟨hl0, hq⟩
      · omega
      · omega
      · have hhigh := h.highest hi hl0 (.inl hpc)
        rw [hcur]
        rcases hq with hq | ⟨p, hp, hq⟩
        · rw [Kernel.OS_SchedNew, hq]; exact hhigh
        · rw [Kernel.OS_SchedNew, hq]
          refine hhigh.trans (Index.first_remove unMap_findsLow unMap_findsLow ?_ ?_).symm
          · exact Index.not_isEmpty_iff.mpr ⟨_, h.idle⟩
          · exact fun heq => hp (heq.trans hhigh.symm)

theorem Inv.isr_did (h : Inv k) (hi : 0 < k.OSIntNesting) (hd : Did k k' os) : Inv k' ∧ ∀ q, Passes k k' os q := by
  have hr : Runs k := fun h0 => by omega
  obtain ⟨hcur, hint, -, hisr⟩ := hd.frame
  obtain ⟨hpc, hl⟩ := hisr hi
  refine ⟨⟨hd.core h.toCore hr fun h0 => by omega, fun hpos => ?_, fun h0 => by omega⟩, hd.passes hr⟩
  rw [hpc, hcur]
  exact h.locked (by omega)

/-! ## Going on inside a service -/

theorem same_pendWake (h : q ≠ k.OSPrioCur) : SameTask k ((k.pendWake e).k.setPc k.OSPrioCur .run) q := by
  refine SameTask.trans ?_ (same_setPc _ h)
  obtain ⟨msg, heq⟩ := pendWake_eq k e
  rw [heq]
  refine ⟨rfl, by simp [h], rfl, fun e' => ?_, rfl, fun e' => ?_⟩
  · dsimp only
    split
    · by_cases he : e' = e
      · subst he; simp [h]
      · simp [he]
    · rfl
  · unfold Kernel.type
    dsimp only
    split
    · by_cases he : e' = e
      · subst he; simp
      · simp [he]
    · rfl

theorem store_pendWake (e' : ℕ) : ((k.pendWake e).k.events e').store = (k.events e').store := by
  obtain ⟨msg, heq⟩ := pendWake_eq k e
  rw [heq]
  dsimp only
  split
  · by_cases he : e' = e
    · subst he; simp
    · simp [he]
  · rfl

theorem handed_pendWake : handed q (k.pendWake e).log = [] := by
  unfold Kernel.pendWake
  dsimp only
  split <;> rfl

/-- The end of a pend returns the message in the control block, if there is one. -/
theorem Fits.pendWake (h : Fits k k.OSPrioCur s susp) (hpc : k.pc k.OSPrioCur = .pendWake e)
    (hready : k.OSRdy.has k.OSPrioCur = true) :
    Fits ((k.pendWake e).k.setPc k.OSPrioCur .run) k.OSPrioCur .awake false ∧
      s.slot = returned k.OSPrioCur (k.pendWake e).log := by
  obtain ⟨hcan, rfl, -⟩ := h.of_ready hready
  have hat := h.pc
  have hst := h.statPend
  rw [hpc] at hat
  cases s with
  | absent => cases hcan
  | waiting e' => cases hcan
  | awake => rcases hat with hat | hat <;> cases hat
  | timedOut e' =>
    obtain rfl : e = e' := by simpa [Situation.At] using hat
    refine ⟨fits_pendWake h rfl rfl, ?_⟩
    simp [Kernel.pendWake, hst, Situation.statPend, Situation.slot, Obs.returned]
  | aborted e' =>
    obtain rfl : e = e' := by simpa [Situation.At] using hat
    refine ⟨fits_pendWake h rfl rfl, ?_⟩
    simp [Kernel.pendWake, hst, Situation.statPend, Situation.slot]
  | given e' m =>
    obtain rfl : e = e' := by simpa [Situation.At] using hat
    refine ⟨fits_pendWake h rfl rfl, ?_⟩
    obtain ⟨hmsg, hsem⟩ := h.msg e m rfl
    have hm : (if (k.events e).store.type = OS_EVENT_TYPE_SEM then none else (k.OSTCBTbl k.OSPrioCur).OSTCBMsg) = m := by
      split
      · next hty => exact (hsem hty).symm
      · exact hmsg
    simp [Kernel.pendWake, hst, Situation.statPend, Situation.slot, Obs.returned, hm]

theorem Core.setPc {pc : Pc} (h : Core k) (hat : ∀ s susp, Fits k p s susp → s.At pc) : Core (k.setPc p pc) where
  tasks q := by
    obtain ⟨s, susp, hf⟩ := h.tasks q
    exact ⟨s, susp, hf.setPc fun hq => hat s susp (by rw [← hq]; exact hf)⟩
  idle := h.idle
  served := h.served

theorem Inv.goOn_sched {pc : Pc} (h : Inv k) (hi : k.OSIntNesting = 0)
    (hat : ∀ s susp, Fits k k.OSPrioCur s susp → s.At pc) (hl : 0 < k.OSLockNesting → pc = .run) :
    Inv (k.setPc k.OSPrioCur pc).OS_Sched ∧ ∀ q, Passes k (k.setPc k.OSPrioCur pc).OS_Sched [] q := by
  refine ⟨(h.toCore.setPc hat).sched hi fun hpos => .inl ?_, fun q s susp hf => ?_⟩
  · simpa [Kernel.setPc] using hl hpos
  · exact ⟨s, susp, (hf.setPc fun hq => hat s susp (by rw [← hq]; exact hf)).of_same same_sched, by simp⟩

theorem Inv.unlocked (h : Inv k) (hpc : k.pc k.OSPrioCur ≠ .run ∧ k.pc k.OSPrioCur ≠ .sched) : k.OSLockNesting = 0 := by
  by_contra hl
  rcases h.locked (by omega) with h0 | h0
  · exact hpc.1 h0
  · exact hpc.2 h0

theorem Inv.goOn_pendWake (h : Inv k) (hi : k.OSIntNesting = 0) (hpc : k.pc k.OSPrioCur = .pendWake e) :
    Inv ((k.pendWake e).k.setPc k.OSPrioCur .run) ∧
      ∀ q, Passes k ((k.pendWake e).k.setPc k.OSPrioCur .run) (k.pendWake e).log q := by
  have hl : k.OSLockNesting = 0 := h.unlocked (by simp [hpc])
  have hready := h.ready_cur hi hl (.inr ⟨e, hpc⟩)
  have hpass : ∀ q, Passes k ((k.pendWake e).k.setPc k.OSPrioCur .run) (k.pendWake e).log q := by
    intro q
    by_cases hq : q = k.OSPrioCur
    · subst hq
      intro s susp hf
      obtain ⟨hf', hslot⟩ := hf.pendWake hpc hready
      exact ⟨.awake, false, hf', by rw [hslot, handed_pendWake]; rfl⟩
    · refine .of_same (same_pendWake hq) handed_pendWake ?_
      unfold Kernel.pendWake
      dsimp only
      split <;> simp [Obs.returned, Ne.symm hq]
  obtain ⟨msg, heq⟩ := pendWake_eq k e
  have hrdy : ((k.pendWake e).k.setPc k.OSPrioCur .run).OSRdy = k.OSRdy := by rw [heq]; rfl
  have hcur : ((k.pendWake e).k.setPc k.OSPrioCur .run).OSPrioCur = k.OSPrioCur := by rw [heq]; rfl
  refine ⟨⟨⟨fun q => ?_, ?_, ?_⟩, fun hpos => ?_, fun _ _ _ => ?_⟩, hpass⟩
  · obtain ⟨s, susp, hf⟩ := h.tasks q
    obtain ⟨s', susp', hf', -⟩ := hpass q s susp hf
    exact ⟨s', susp', hf'⟩
  · rw [hrdy]; exact h.idle
  · refine served_shrink h.served store_pendWake fun e' p hp => ?_
    by_cases hq : p = k.OSPrioCur
    · subst hq
      obtain ⟨s, susp, hf⟩ := h.tasks k.OSPrioCur
      have := (hf.pendWake hpc hready).1.waits e'
      rw [show (((k.pendWake e).k.setPc k.OSPrioCur .run).events e') = ((k.pendWake e).k.events e') from rfl] at this
      exact absurd (this.symm.trans hp) (by simp [Situation.waitsFor])
    · exact ((same_pendWake hq).waits e').symm.trans hp
  · exact absurd hpos (by rw [heq]; exact hl ▸ Nat.lt_irrefl 0)
  · rw [hcur, Kernel.OS_SchedNew, hrdy]
    exact h.highest hi hl (.inr ⟨e, hpc⟩)

theorem Inv.goOn (h : Inv k) (hi : k.OSIntNesting = 0) : Inv k.goOn.1 ∧ ∀ q, Passes k k.goOn.1 k.goOn.2 q := by
  unfold Kernel.goOn
  split
  · exact ⟨h, fun q => .of_same (.refl k q) rfl rfl⟩
  · next hpc => exact h.goOn_sched hi (fun s susp hf => at_run_or_sched (hf.of_sched hpc) (.inl rfl)) fun _ => rfl
  · next e hpc =>
    have hl : k.OSLockNesting = 0 := h.unlocked (by simp [hpc])
    refine h.goOn_sched hi (fun s susp hf => ?_) fun hpos => by omega
    have := hf.pc
    rw [hpc] at this
    cases s <;> simp_all [Situation.At]
  · next e hpc => exact h.goOn_pendWake hi hpc

/-! ## Interrupts -/

theorem Inv.intEnter (h : Inv k) : Inv k.OSIntEnter ∧ ∀ q, Passes k k.OSIntEnter [] q := by
  unfold Kernel.OSIntEnter
  split
  · have hs : ∀ q, SameTask k { k with OSIntNesting := k.OSIntNesting + 1 } q := fun q =>
      ⟨rfl, rfl, rfl, fun _ => rfl, rfl, fun _ => rfl⟩
    exact ⟨⟨h.toCore.of_same hs fun _ => rfl, h.locked, fun h0 => absurd h0 (Nat.succ_ne_zero _)⟩,
      fun q => .of_same (hs q) rfl rfl⟩
  · exact ⟨h, fun q => .of_same (.refl k q) rfl rfl⟩

theorem intExit_eq (hi : 0 < k.OSIntNesting) : k.OSIntExit = { k with
    OSIntNesting := k.OSIntNesting - 1
    OSPrioCur := if k.OSIntNesting - 1 = 0 ∧ k.OSLockNesting = 0 then k.OS_SchedNew else k.OSPrioCur } := by
  unfold Kernel.OSIntExit
  rw [if_pos hi]
  dsimp only
  split
  · next h0 => split <;> simp [*, Kernel.OS_SchedNew]
  · next h0 => simp [h0]

theorem Inv.intExit (h : Inv k) (hi : 0 < k.OSIntNesting) : Inv k.OSIntExit ∧ ∀ q, Passes k k.OSIntExit [] q := by
  rw [intExit_eq hi]
  have hs : ∀ q, SameTask k { k with
      OSIntNesting := k.OSIntNesting - 1
      OSPrioCur := if k.OSIntNesting - 1 = 0 ∧ k.OSLockNesting = 0 then k.OS_SchedNew else k.OSPrioCur } q := fun q =>
    ⟨rfl, rfl, rfl, fun _ => rfl, rfl, fun _ => rfl⟩
  refine ⟨⟨h.toCore.of_same hs fun _ => rfl, fun hpos => ?_, fun h0 hl _ => ?_⟩, fun q => .of_same (hs q) rfl rfl⟩
  · have hl : ¬(k.OSIntNesting - 1 = 0 ∧ k.OSLockNesting = 0) := fun h0 => absurd hpos (by dsimp only; omega)
    dsimp only
    rw [if_neg hl]
    exact h.locked hpos
  · dsimp only
    rw [if_pos ⟨h0, hl⟩]
    rfl

theorem same_tickTcb (h : q ≠ p) : SameTask k (k.tickTcb p) q := by
  rw [tickTcb_eq]
  split
  · exact .refl k q
  · split
    · refine ⟨rfl, by simp [h], ?_, fun _ => rfl, rfl, fun _ => rfl⟩
      dsimp only
      split <;> simp [h]
    · exact same_setTcb _ h

theorem Inv.tick (h : Inv k) (hi : 0 < k.OSIntNesting) (hc : k.OSTCBPrioTbl p = true) (hp : p ≠ OS_TASK_IDLE_PRIO) :
    Inv (k.tickTcb p) ∧ ∀ q, Passes k (k.tickTcb p) [] q := by
  have hpass : ∀ q, Passes k (k.tickTcb p) [] q := by
    intro q
    by_cases hq : q = p
    · subst hq
      intro s susp hf
      obtain ⟨s', hf', hslot⟩ := fits_tickTcb hf hc
      exact ⟨s', susp, hf', by simp [hslot]⟩
    · exact .of_same (same_tickTcb hq) rfl rfl
  have hframe : (k.tickTcb p).OSPrioCur = k.OSPrioCur ∧ (k.tickTcb p).OSIntNesting = k.OSIntNesting ∧
      (k.tickTcb p).OSLockNesting = k.OSLockNesting ∧ (k.tickTcb p).pc = k.pc ∧ (k.tickTcb p).events = k.events := by
    rw [tickTcb_eq]
    split
    · exact ⟨rfl, rfl, rfl, rfl, rfl⟩
    · split <;> exact ⟨rfl, rfl, rfl, rfl, rfl⟩
  obtain ⟨hcur, hint, hlock, hpc, hev⟩ := hframe
  refine ⟨⟨⟨fun q => ?_, ?_, ?_⟩, fun hpos => ?_, fun h0 => ?_⟩, hpass⟩
  · obtain ⟨s, susp, hf⟩ := h.tasks q
    obtain ⟨s', susp', hf', -⟩ := hpass q s susp hf
    exact ⟨s', susp', hf'⟩
  · rw [(same_tickTcb (Ne.symm hp)).ready]; exact h.idle
  · unfold Served
    rw [hev]
    exact h.served
  · rw [hpc, hcur]; exact h.locked (hlock ▸ hpos)
  · omega

/-! ## Steps and runs -/

theorem Inv.step (h : Inv k) {a : Action α} (ha : a.SparesIdle) :
    Inv (k.step a).1 ∧ ∀ q, Passes k (k.step a).1 (k.step a).2 q := by
  have hstay : Inv k ∧ ∀ q, Passes k k [] q := ⟨h, fun q => .of_same (.refl k q) rfl rfl⟩
  cases a with
  | task s =>
    unfold Kernel.step
    dsimp only
    split
    · next hen =>
      obtain ⟨hi, hpc, hidle⟩ := hen
      cases s.called (k := k) ha with
      | waits _ hl he hk hn hlog => rw [hk, hn, hlog]; exact h.task_waits hi hl hpc hidle he
      | did hd hn => exact h.task_did hi hpc hidle hd hn
    · exact hstay
  | goOn =>
    unfold Kernel.step
    dsimp only
    split
    · next hi => exact h.goOn hi
    · exact hstay
  | intEnter => exact h.intEnter
  | isr s =>
    unfold Kernel.step
    dsimp only
    split
    · next hi =>
      cases s.called (k := k) ha with
      | waits h0 _ _ _ _ _ => omega
      | did hd hn => exact h.isr_did hi hd
    · exact hstay
  | tick prio =>
    unfold Kernel.step
    dsimp only
    split
    · next hen => exact h.tick hen.1 hen.2.1 hen.2.2
    · exact hstay
  | intExit =>
    unfold Kernel.step
    dsimp only
    split
    · next hi => exact h.intExit hi
    · exact hstay

end

end SerialNet.Ucos
