import SerialNet.Ucos.Service

/-!
# What a task is doing

`Situation` is the task as the services' callers see it. `Fits` says that
control block, ready list, wait lists and program point agree on it.
-/

namespace SerialNet.Ucos

open BitIndex Circ

section
variable {α : Type}

inductive Situation (α : Type)
  | absent
  | awake
  | waiting (e : ℕ)
  | timedOut (e : ℕ)
  | given (e : ℕ) (m : Option α)
  | aborted (e : ℕ)

def Kernel.type (k : Kernel α) (e : ℕ) : EventType := (k.events e).store.type

/-- `OSTCBStat` of a task that pends on an event of a type, and may be suspended. -/
def statOf (pend : Option EventType) (susp : Bool) : BitVec 8 :=
  (match pend with
    | some ty => ty.msk
    | none => OS_STAT_RDY) ||| (if susp then OS_STAT_SUSPEND else OS_STAT_RDY)

section
variable {pend : Option EventType} {ty : EventType} {susp : Bool}

theorem statOf_or_msk : statOf none susp ||| ty.msk = statOf (some ty) susp := by
  cases susp <;> cases ty <;> decide

theorem statOf_clear_msk : statOf none susp &&& ~~~ty.msk = statOf none susp := by
  cases susp <;> cases ty <;> decide

theorem statOf_some_clear_msk : statOf (some ty) susp &&& ~~~ty.msk = statOf none susp := by
  cases susp <;> cases ty <;> decide

theorem statOf_clear_any : statOf pend susp &&& ~~~OS_STAT_PEND_ANY = statOf none susp := by
  cases susp <;> rcases pend with _ | _ | _ | _ <;> decide

theorem statOf_pends : statOf pend susp &&& OS_STAT_PEND_ANY ≠ OS_STAT_RDY ↔ pend.isSome = true := by
  cases susp <;> rcases pend with _ | _ | _ | _ <;> decide

theorem statOf_suspended : statOf pend susp &&& OS_STAT_SUSPEND = OS_STAT_RDY ↔ susp = false := by
  cases susp <;> rcases pend with _ | _ | _ | _ <;> decide

theorem statOf_suspend : statOf pend susp ||| OS_STAT_SUSPEND = statOf pend true := by
  cases susp <;> rcases pend with _ | _ | _ | _ <;> decide

theorem statOf_resume : statOf pend susp &&& ~~~OS_STAT_SUSPEND = statOf pend false := by
  cases susp <;> rcases pend with _ | _ | _ | _ <;> decide

theorem statOf_eq_rdy : statOf pend susp = OS_STAT_RDY ↔ pend = none ∧ susp = false := by
  cases susp <;> rcases pend with _ | _ | _ | _ <;> decide

end

namespace Situation

/-- The event whose wait list the task is in. -/
def waitsFor : Situation α → ℕ → Bool
  | waiting e, e' => e' == e
  | timedOut e, e' => e' == e
  | _, _ => false

/-- The event of the pend the task is in. -/
def pendsOn : Situation α → Option ℕ
  | waiting e => some e
  | timedOut e => some e
  | given e _ => some e
  | aborted e => some e
  | _ => none

def statPend : Situation α → PendStat
  | timedOut _ => OS_STAT_PEND_TO
  | aborted _ => OS_STAT_PEND_ABORT
  | _ => OS_STAT_PEND_OK

def isWaiting : Situation α → Option ℕ
  | waiting e => some e
  | _ => none

/-- The end of a pend is due. -/
def settled : Situation α → Bool
  | timedOut _ => true
  | given _ _ => true
  | aborted _ => true
  | _ => false

def canRun (s : Situation α) : Bool :=
  match s with
  | awake => true
  | _ => s.settled

/-- The message that waits in the control block for the end of the pend. -/
def slot : Situation α → List (ℕ × Option α)
  | given e m => [(e, m)]
  | _ => []

def At (s : Situation α) (pc : Pc) : Prop :=
  match s with
  | absent => True
  | awake => pc = .run ∨ pc = .sched
  | waiting e | timedOut e | given e _ | aborted e => pc = .pendSched e ∨ pc = .pendWake e

theorem at_iff {s : Situation α} {e : ℕ} {pc : Pc} (h : s.pendsOn = some e) :
    s.At pc ↔ pc = .pendSched e ∨ pc = .pendWake e := by
  cases s <;> cases h <;> rfl

end Situation

/-- Task `p` is in situation `s`, and suspended or not. -/
structure Fits (k : Kernel α) (p : Prio) (s : Situation α) (susp : Bool) : Prop where
  created : k.OSTCBPrioTbl p = true ↔ s ≠ .absent
  stat : s ≠ .absent → (k.OSTCBTbl p).OSTCBStat = statOf (s.isWaiting.map k.type) susp
  statPend : s ≠ .absent → (k.OSTCBTbl p).OSTCBStatPend = s.statPend
  dly : s.settled = true → (k.OSTCBTbl p).OSTCBDly = 0
  msg : ∀ e m, s = .given e m → (k.OSTCBTbl p).OSTCBMsg = m ∧ (k.type e = OS_EVENT_TYPE_SEM → m = none)
  ready : k.OSRdy.has p = (s.canRun && !susp && decide ((k.OSTCBTbl p).OSTCBDly = 0))
  waits : ∀ e, (k.events e).waits.has p = s.waitsFor e
  pc : s.At (k.pc p)

structure SameTask (k k' : Kernel α) (p : Prio) : Prop where
  created : k'.OSTCBPrioTbl p = k.OSTCBPrioTbl p
  tcb : k'.OSTCBTbl p = k.OSTCBTbl p
  ready : k'.OSRdy.has p = k.OSRdy.has p
  waits : ∀ e, (k'.events e).waits.has p = (k.events e).waits.has p
  pc : k'.pc p = k.pc p
  type : ∀ e, k'.type e = k.type e

section
variable {k k' : Kernel α} {p q : Prio} {s : Situation α} {susp : Bool} {e : ℕ}

theorem Fits.of_same (h : Fits k p s susp) (hs : SameTask k k' p) : Fits k' p s susp where
  created := by rw [hs.created]; exact h.created
  stat hne := by
    rw [hs.tcb, h.stat hne]
    cases s <;> simp [Situation.isWaiting, hs.type]
  statPend hne := by rw [hs.tcb]; exact h.statPend hne
  dly hset := by rw [hs.tcb]; exact h.dly hset
  msg e m hg := by rw [hs.tcb, hs.type]; exact h.msg e m hg
  ready := by rw [hs.ready, hs.tcb]; exact h.ready
  waits e := by rw [hs.waits]; exact h.waits e
  pc := by rw [hs.pc]; exact h.pc

/-- A task that is ready exists, is not suspended and has no delay. -/
theorem Fits.of_ready (h : Fits k p s susp) (hr : k.OSRdy.has p = true) :
    s.canRun = true ∧ susp = false ∧ (k.OSTCBTbl p).OSTCBDly = 0 := by
  have := h.ready.symm.trans hr
  simp only [Bool.and_eq_true, Bool.not_eq_true', decide_eq_true_eq] at this
  exact ⟨this.1.1, this.1.2, this.2⟩

/-- The situation as the fields show it. -/
def Kernel.situation (k : Kernel α) (p : Prio) : Situation α :=
  if k.OSTCBPrioTbl p = false then .absent
  else
    match k.pc p with
    | .run | .sched => .awake
    | .pendSched e | .pendWake e =>
      match (k.OSTCBTbl p).OSTCBStatPend with
      | OS_STAT_PEND_TO => .timedOut e
      | OS_STAT_PEND_ABORT => .aborted e
      | OS_STAT_PEND_OK => if (k.events e).waits.has p then .waiting e else .given e (k.OSTCBTbl p).OSTCBMsg

theorem Fits.situation_eq (h : Fits k p s susp) : k.situation p = s := by
  unfold Kernel.situation
  by_cases habs : s = .absent
  · rw [if_pos (by simpa [habs] using h.created), habs]
  rw [if_neg (by simpa using h.created.mpr habs), h.statPend habs]
  have hpc := h.pc
  cases s with
  | absent => exact absurd rfl habs
  | awake => rcases hpc with hpc | hpc <;> rw [hpc]
  | waiting e => rcases hpc with hpc | hpc <;> simp [hpc, Situation.statPend, h.waits, Situation.waitsFor]
  | timedOut e => rcases hpc with hpc | hpc <;> simp [hpc, Situation.statPend]
  | aborted e => rcases hpc with hpc | hpc <;> simp [hpc, Situation.statPend]
  | given e m =>
    have hm := (h.msg e m rfl).1
    rcases hpc with hpc | hpc <;> simp [hpc, Situation.statPend, h.waits, Situation.waitsFor, hm]

end

end

end SerialNet.Ucos
