import SerialNet.Ucos.History

/-!
# Runs of the scheduler

From the start of multitasking on, over every order of service calls,
interrupts and clock ticks: which task runs, what becomes of a message, and in
which order messages come.
-/

namespace SerialNet.Ucos

open BitIndex Handover Run

section
variable {α : Type}

/-- The system when multitasking starts, with these tasks and the idle task
created, and these stores in the event blocks. -/
def started (tasks : List Prio) (store : ℕ → Store α) : Kernel α :=
  let k : Kernel α :=
    { OSTCBPrioTbl := fun p => decide (p ∈ OS_TASK_IDLE_PRIO :: tasks)
      OSTCBTbl := fun _ => ⟨OS_STAT_RDY, OS_STAT_PEND_OK, 0, none⟩
      OSRdy := ( OS_TASK_IDLE_PRIO :: tasks).foldl Index.add .empty
      OSPrioCur := OS_TASK_IDLE_PRIO
      OSIntNesting := 0
      OSLockNesting := 0
      events := fun e => ⟨store e, .empty⟩
      pc := fun _ => .run }
  { k with OSPrioCur := k.OS_SchedNew }

def runFrom (tasks : List Prio) (store : ℕ → Store α) (as : List (Action α)) : World α :=
  run World.step ⟨started tasks store, []⟩ as

theorem has_foldl_add (ps : List Prio) (s : Index 8 8) (p : Prio) :
    (ps.foldl Index.add s).has p = (decide (p ∈ ps) || s.has p) := by
  induction ps generalizing s with
  | nil => simp
  | cons q ps ih =>
    rw [List.foldl_cons, ih, Index.has_add, ← Bool.or_assoc, Bool.or_comm (decide (p ∈ ps))]
    simp [List.mem_cons]

section
variable {tasks : List Prio} {store : ℕ → Store α}

theorem has_started (p : Prio) : (started tasks store).OSRdy.has p = decide (p ∈ OS_TASK_IDLE_PRIO :: tasks) := by
  change (( OS_TASK_IDLE_PRIO :: tasks).foldl Index.add .empty).has p = _
  rw [has_foldl_add, Index.has_empty, Bool.or_false]

theorem fits_started (p : Prio) :
    Fits (started tasks store) p (if p ∈ OS_TASK_IDLE_PRIO :: tasks then .awake else .absent) false := by
  have hcreated : (started tasks store).OSTCBPrioTbl p = decide (p ∈ OS_TASK_IDLE_PRIO :: tasks) := rfl
  split
  · next hp =>
    constructor
    · rw [hcreated]; exact iff_of_true (by simpa using hp) (by simp)
    · intro _; simp [started, statOf, Situation.isWaiting, OS_STAT_RDY]
    · intro _; rfl
    · intro h; cases h
    · intro _ _ h; cases h
    · rw [has_started]; simpa [Situation.canRun, started] using hp
    · intro _; exact Index.has_empty
    · exact .inl rfl
  · next hp =>
    constructor
    · rw [hcreated]; exact iff_of_false (by simpa using hp) (by simp)
    · intro h; exact absurd rfl h
    · intro h; exact absurd rfl h
    · intro h; cases h
    · intro _ _ h; cases h
    · rw [has_started]; simpa [Situation.canRun, Situation.settled] using hp
    · intro _; exact Index.has_empty
    · exact trivial

theorem inv_started : Inv (started tasks store) where
  tasks p := ⟨_, _, fits_started p⟩
  idle := by rw [has_started]; simp
  served e p hp := absurd (hp.symm.trans Index.has_empty) (by decide)
  locked h := absurd h (Nat.lt_irrefl 0)
  highest _ _ _ := rfl

structure Kept (k : Kernel α) (w : World α) : Prop where
  inv : Inv w.k
  plays : ∀ e, Plays (k.box e) (ops e w.log) (w.k.box e)
  slots : ∀ p, handed p w.log = returned p w.log ++ (w.k.situation p).slot

theorem Kept.step {k : Kernel α} {w : World α} (h : Kept k w) {a : Action α} (ha : a.SparesIdle) : Kept k (w.step a) := by
  obtain ⟨hinv, hpass⟩ := h.inv.step ha
  refine ⟨hinv, fun e => ?_, fun p => ?_⟩
  · rw [World.step, ops_append]
    exact (h.plays e).append (h.inv.plays ha e)
  · obtain ⟨s, susp, hf⟩ := h.inv.tasks p
    obtain ⟨s', susp', hf', heq⟩ := hpass p s susp hf
    have hslots := h.slots p
    rw [hf.situation_eq] at hslots
    rw [World.step, handed_append, returned_append, hf'.situation_eq, hslots, List.append_assoc, heq, List.append_assoc]

theorem kept_run (as : List (Action α)) (ha : ∀ a ∈ as, a.SparesIdle) :
    Kept (started tasks store) (runFrom tasks store as) := by
  have hslots : ∀ p, handed p ([] : List (Obs α)) =
      returned p ([] : List (Obs α)) ++ ((started tasks store).situation p).slot := by
    intro p
    rw [(fits_started p).situation_eq]
    split <;> rfl
  have hstep : ∀ w a, Kept (started tasks store) w → Action.SparesIdle a →
      Kept (started tasks store) (World.step w a) := fun w a hw hs => hw.step hs
  exact inv_of_meets hstep _ as ⟨inv_started, fun e => .nil, hslots⟩ (meets_of_mem ha)

/-- Of two tasks and one queue, the higher task pends on the queue for one tick.
The tick comes, and before the task can run a post from an interrupt: the
message is handed to it all the same. -/
def lateTasks : List Prio := [⟨5, by decide⟩, ⟨7, by decide⟩]

def lateStore : ℕ → Store ℕ := fun _ => .q (Circ.Buf.new (fun _ => none) 2)

def latePost : List (Action ℕ) :=
  [.task (.OSQPend 0 1), .goOn, .intEnter, .tick ⟨5, by decide⟩, .isr (.OSQPost 0 (some 9)), .intExit, .goOn]

/-! ## The running task -/

theorem Inv.ready_iff {k : Kernel α} (h : Inv k) (p : Prio) : k.OSRdy.has p = true ↔ k.OSTCBPrioTbl p = true ∧
    (k.OSTCBTbl p).OSTCBStat = OS_STAT_RDY ∧ (k.OSTCBTbl p).OSTCBDly = 0 := by
  obtain ⟨s, susp, hf⟩ := h.tasks p
  rw [hf.ready, hf.created]
  by_cases hs : s = .absent
  · subst hs; simp [Situation.canRun, Situation.settled]
  · rw [hf.stat hs, statOf_eq_rdy]
    cases s <;> simp_all [Situation.canRun, Situation.settled, Situation.isWaiting]

/-- The ready list has just the tasks that neither pend nor are delayed or
suspended, and outside interrupts, with the scheduler not locked, a task goes
on only as the highest of them. -/
theorem highest_task_runs (tasks : List Prio) (store : ℕ → Store α) (as : List (Action α))
    (ha : ∀ a ∈ as, a.SparesIdle) :
    (∀ p, (runFrom tasks store as).k.OSRdy.has p = true ↔ (runFrom tasks store as).k.OSTCBPrioTbl p = true ∧
      ((runFrom tasks store as).k.OSTCBTbl p).OSTCBStat = OS_STAT_RDY ∧
      ((runFrom tasks store as).k.OSTCBTbl p).OSTCBDly = 0) ∧
    ((runFrom tasks store as).k.OSIntNesting = 0 → (runFrom tasks store as).k.OSLockNesting = 0 →
      ((runFrom tasks store as).k.pc (runFrom tasks store as).k.OSPrioCur = .run ∨
        ∃ e, (runFrom tasks store as).k.pc (runFrom tasks store as).k.OSPrioCur = .pendWake e) →
      IsLeast {p | (runFrom tasks store as).k.OSRdy.has p = true} (runFrom tasks store as).k.OSPrioCur) := by
  have hkept : Kept (started tasks store) (runFrom tasks store as) := kept_run as ha
  have hinv := hkept.inv
  refine ⟨hinv.ready_iff, fun hi hl hpc => ⟨hinv.ready_cur hi hl hpc, fun p hp => ?_⟩⟩
  rw [hinv.highest hi hl hpc]
  exact schedNew_le hp

theorem highest_task_runs_late : (runFrom lateTasks lateStore latePost).k.OSPrioCur = ⟨5, by decide⟩ ∧
    IsLeast {p | (runFrom lateTasks lateStore latePost).k.OSRdy.has p = true}
      (runFrom lateTasks lateStore latePost).k.OSPrioCur :=
  ⟨by decide +kernel, (highest_task_runs lateTasks lateStore latePost (by decide)).2 (by decide +kernel)
    (by decide +kernel) (.inl (by decide +kernel))⟩

/-! ## Messages -/

/-- Every event block has a history of a bounded store at which tasks wait: a
message goes to the highest waiting task or into the store, in order, nobody
waits beside a message, and a post is refused only when the store is full. -/
theorem event_history (tasks : List Prio) (store : ℕ → Store α) (as : List (Action α)) (ha : ∀ a ∈ as, a.SparesIdle)
    (e : ℕ) : Plays ⟨(store e).items, (store e).cap, ∅⟩ (ops e (runFrom tasks store as).log)
      ((runFrom tasks store as).k.box e) := by
  have hkept : Kept (started tasks store) (runFrom tasks store as) := kept_run as ha
  have h := hkept.plays e
  have hbox : (started tasks store).box e = ⟨(store e).items, (store e).cap, ∅⟩ := by
    simp [Kernel.box, started]
  rwa [hbox] at h

theorem event_history_late : ops 0 (runFrom lateTasks lateStore latePost).log =
      [.block ⟨5, by decide⟩, .give ⟨5, by decide⟩ (some 9)] ∧
    Plays ⟨[], 2, ∅⟩ (ops 0 (runFrom lateTasks lateStore latePost).log)
      ((runFrom lateTasks lateStore latePost).k.box 0) :=
  ⟨by decide +kernel, event_history lateTasks lateStore latePost (by decide) 0⟩

/-- What a task is handed is what its calls have returned, in this order, and at
most one message that is still in its control block. -/
theorem handed_once (tasks : List Prio) (store : ℕ → Store α) (as : List (Action α)) (ha : ∀ a ∈ as, a.SparesIdle)
    (p : Prio) : handed p (runFrom tasks store as).log =
      returned p (runFrom tasks store as).log ++ ((runFrom tasks store as).k.situation p).slot := by
  have hkept : Kept (started tasks store) (runFrom tasks store as) := kept_run as ha
  exact hkept.slots p

theorem handed_once_late : handed ⟨5, by decide⟩ (runFrom lateTasks lateStore latePost).log = [(0, some 9)] ∧
    handed ⟨5, by decide⟩ (runFrom lateTasks lateStore latePost).log =
      returned ⟨5, by decide⟩ (runFrom lateTasks lateStore latePost).log ++
        ((runFrom lateTasks lateStore latePost).k.situation ⟨5, by decide⟩).slot :=
  ⟨by decide +kernel, handed_once lateTasks lateStore latePost (by decide) ⟨5, by decide⟩⟩

/-! ## One reader -/

/-- Only task `p` gets something from event `e`. -/
def Obs.ReadBy (e : ℕ) (p : Prio) : Obs α → Prop
  | .give e' q _ => e' = e → q = p
  | .take e' c _ => e' = e → c = some p
  | _ => True

instance (e : ℕ) (p : Prio) (o : Obs α) : Decidable (o.ReadBy e p) := by
  cases o <;> unfold Obs.ReadBy <;> infer_instance

/-- The messages of event `e` among those of several events. -/
def ofEvent (e : ℕ) (l : List (ℕ × Option α)) : List (Option α) := (l.filter fun r => r.1 = e).map Prod.snd

theorem ofEvent_append (e : ℕ) (l l' : List (ℕ × Option α)) : ofEvent e (l ++ l') = ofEvent e l ++ ofEvent e l' := by
  simp [ofEvent]

theorem got_eq {e : ℕ} {p : Prio} {o : Obs α} (h : o.ReadBy e p) :
    (ops e [o]).flatMap Op.got = ofEvent e (o.handed p) := by
  cases o with
  | give e' q m =>
    by_cases he : e' = e
    · obtain rfl := h he
      simp [ops, Obs.op, Obs.handed, ofEvent, he, Op.got]
    · by_cases hq : q = p <;> simp [ops, Obs.op, Obs.handed, ofEvent, he, hq]
  | take e' c m =>
    by_cases he : e' = e
    · obtain rfl := h he
      simp [ops, Obs.op, Obs.handed, ofEvent, he, Op.got]
    · cases c with
      | none => simp [ops, Obs.op, Obs.handed, ofEvent, he]
      | some q => by_cases hq : q = p <;> simp [ops, Obs.op, Obs.handed, ofEvent, he, hq]
  | put e' m | putFront e' m | lost e' | full e' | empty e' c | block e' q | flush e' | set e' cnt | timeout e' q
  | abort e' q => by_cases he : e' = e <;> simp [ops, Obs.op, Obs.handed, ofEvent, he, Op.got]
  | ret e' q m => rfl

theorem got_eq_handed {e : ℕ} {p : Prio} {os : List (Obs α)} (h : ∀ o ∈ os, o.ReadBy e p) :
    (ops e os).flatMap Op.got = ofEvent e (handed p os) := by
  induction os with
  | nil => rfl
  | cons o os ih =>
    rw [List.forall_mem_cons] at h
    rw [show o :: os = [o] ++ os from rfl, ops_append, handed_append, ofEvent_append, List.flatMap_append, got_eq h.1,
      ih h.2, handed_one]

/-- With one reader and no post to the front, flush or reset, the messages come
as they were posted: those its calls have returned, the one in its control
block, those in the store. -/
theorem messages_in_order (tasks : List Prio) (store : ℕ → Store α) (as : List (Action α))
    (ha : ∀ a ∈ as, a.SparesIdle) (e : ℕ) (p : Prio) (hfifo : ∀ o ∈ ops e (runFrom tasks store as).log, o.Fifo)
    (hread : ∀ o ∈ (runFrom tasks store as).log, o.ReadBy e p) :
    (store e).items ++ (ops e (runFrom tasks store as).log).flatMap Op.posted =
      ofEvent e (returned p (runFrom tasks store as).log) ++
        ofEvent e ((runFrom tasks store as).k.situation p).slot ++ ((runFrom tasks store as).k.events e).store.items := by
  have hkept : Kept (started tasks store) (runFrom tasks store as) := kept_run as ha
  have hplays := (hkept.plays e).fifo hfifo
  rw [got_eq_handed hread, hkept.slots p, ofEvent_append] at hplays
  exact hplays

end

theorem messages_in_order_late : (ops 0 (runFrom lateTasks lateStore latePost).log).flatMap Op.posted =
    ofEvent 0 (returned ⟨5, by decide⟩ (runFrom lateTasks lateStore latePost).log) ++
      ofEvent 0 ((runFrom lateTasks lateStore latePost).k.situation ⟨5, by decide⟩).slot ++
      ((runFrom lateTasks lateStore latePost).k.events 0).store.items :=
  messages_in_order lateTasks lateStore latePost (by decide) 0 ⟨5, by decide⟩ (by decide +kernel) (by decide +kernel)

end

end SerialNet.Ucos
