import SerialNet.Lib.BitIndex
import SerialNet.Lib.CircBuf

/-!
# The task scheduler and its event blocks

Tasks are known by their priority, of which there are 64. The ready list and
the wait list of every event block are two-level bit tables, searched with
`OSUnMapTbl`. A task is also given its program point (`Pc`): the services that
suspend their caller leave the critical section in the middle.
-/

namespace SerialNet.Ucos

open BitIndex Circ

/-- `OSTCBPrio`, with its row `OSTCBY` and its column `OSTCBX`. -/
abbrev Prio := Fin (8 * 8)

def OS_TASK_IDLE_PRIO : Prio := ⟨63, by decide⟩

/-- The position of the lowest bit set. -/
def OSUnMapTbl : List (Fin 8) := [
  0, 0, 1, 0, 2, 0, 1, 0, 3, 0, 1, 0, 2, 0, 1, 0,
  4, 0, 1, 0, 2, 0, 1, 0, 3, 0, 1, 0, 2, 0, 1, 0,
  5, 0, 1, 0, 2, 0, 1, 0, 3, 0, 1, 0, 2, 0, 1, 0,
  4, 0, 1, 0, 2, 0, 1, 0, 3, 0, 1, 0, 2, 0, 1, 0,
  6, 0, 1, 0, 2, 0, 1, 0, 3, 0, 1, 0, 2, 0, 1, 0,
  4, 0, 1, 0, 2, 0, 1, 0, 3, 0, 1, 0, 2, 0, 1, 0,
  5, 0, 1, 0, 2, 0, 1, 0, 3, 0, 1, 0, 2, 0, 1, 0,
  4, 0, 1, 0, 2, 0, 1, 0, 3, 0, 1, 0, 2, 0, 1, 0,
  7, 0, 1, 0, 2, 0, 1, 0, 3, 0, 1, 0, 2, 0, 1, 0,
  4, 0, 1, 0, 2, 0, 1, 0, 3, 0, 1, 0, 2, 0, 1, 0,
  5, 0, 1, 0, 2, 0, 1, 0, 3, 0, 1, 0, 2, 0, 1, 0,
  4, 0, 1, 0, 2, 0, 1, 0, 3, 0, 1, 0, 2, 0, 1, 0,
  6, 0, 1, 0, 2, 0, 1, 0, 3, 0, 1, 0, 2, 0, 1, 0,
  4, 0, 1, 0, 2, 0, 1, 0, 3, 0, 1, 0, 2, 0, 1, 0,
  5, 0, 1, 0, 2, 0, 1, 0, 3, 0, 1, 0, 2, 0, 1, 0,
  4, 0, 1, 0, 2, 0, 1, 0, 3, 0, 1, 0, 2, 0, 1, 0]

def unMap (b : BitVec 8) : Fin 8 := OSUnMapTbl.getD b.toNat 0

theorem unMap_findsLow : Index.FindsLow unMap := by
  have hall : ∀ b : Fin (2 ^ 8), BitVec.ofFin b ≠ 0#8 → (BitVec.ofFin b).getLsbD (unMap (BitVec.ofFin b)) = true ∧
      ∀ x : Fin 8, (BitVec.ofFin b).getLsbD x = true → unMap (BitVec.ofFin b) ≤ x := by decide +kernel
  exact fun b => hall b.toFin

def OS_STAT_RDY : BitVec 8 := 0x00
def OS_STAT_SEM : BitVec 8 := 0x01
def OS_STAT_MBOX : BitVec 8 := 0x02
def OS_STAT_Q : BitVec 8 := 0x04
def OS_STAT_SUSPEND : BitVec 8 := 0x08
def OS_STAT_MUTEX : BitVec 8 := 0x10
def OS_STAT_FLAG : BitVec 8 := 0x20

def OS_STAT_PEND_ANY : BitVec 8 := OS_STAT_SEM ||| OS_STAT_MBOX ||| OS_STAT_Q ||| OS_STAT_MUTEX ||| OS_STAT_FLAG

inductive PendStat
  | OS_STAT_PEND_OK
  | OS_STAT_PEND_TO
  | OS_STAT_PEND_ABORT
  deriving DecidableEq, Repr

export PendStat (OS_STAT_PEND_OK OS_STAT_PEND_TO OS_STAT_PEND_ABORT)

inductive Err
  | OS_ERR_NONE
  | OS_ERR_EVENT_TYPE
  | OS_ERR_PEND_ISR
  | OS_ERR_TIMEOUT
  | OS_ERR_PEND_LOCKED
  | OS_ERR_PEND_ABORT
  | OS_ERR_MBOX_FULL
  | OS_ERR_Q_FULL
  | OS_ERR_Q_EMPTY
  | OS_ERR_PRIO_EXIST
  | OS_ERR_SEM_OVF
  | OS_ERR_TASK_CREATE_ISR
  | OS_ERR_TASK_RESUME_PRIO
  | OS_ERR_TASK_SUSPEND_PRIO
  | OS_ERR_TASK_NOT_SUSPENDED
  | OS_ERR_TASK_WAITING
  deriving DecidableEq, Repr

export Err (OS_ERR_NONE OS_ERR_EVENT_TYPE OS_ERR_PEND_ISR OS_ERR_TIMEOUT OS_ERR_PEND_LOCKED OS_ERR_PEND_ABORT
  OS_ERR_MBOX_FULL OS_ERR_Q_FULL OS_ERR_Q_EMPTY OS_ERR_PRIO_EXIST OS_ERR_SEM_OVF OS_ERR_TASK_CREATE_ISR
  OS_ERR_TASK_RESUME_PRIO OS_ERR_TASK_SUSPEND_PRIO OS_ERR_TASK_NOT_SUSPENDED OS_ERR_TASK_WAITING)

inductive EventType
  | OS_EVENT_TYPE_SEM
  | OS_EVENT_TYPE_MBOX
  | OS_EVENT_TYPE_Q
  deriving DecidableEq, Repr

export EventType (OS_EVENT_TYPE_SEM OS_EVENT_TYPE_MBOX OS_EVENT_TYPE_Q)

/-- The bit of `OSTCBStat` of a task that pends on an event of this type. -/
def EventType.msk : EventType → BitVec 8
  | OS_EVENT_TYPE_SEM => OS_STAT_SEM
  | OS_EVENT_TYPE_MBOX => OS_STAT_MBOX
  | OS_EVENT_TYPE_Q => OS_STAT_Q

section
variable {α : Type}

/-- A message is a pointer, `none` the null pointer. -/
structure OS_TCB (α : Type) where
  OSTCBStat : BitVec 8
  OSTCBStatPend : PendStat
  OSTCBDly : ℕ
  OSTCBMsg : Option α

/-- What an event block holds: the count of a semaphore, the message of a
mailbox, the `OS_Q` of a queue. -/
inductive Store (α : Type)
  | sem (OSEventCnt : ℕ)
  | mbox (OSEventPtr : Option α)
  | q (pq : Buf (Option α))

def Store.type : Store α → EventType
  | .sem _ => OS_EVENT_TYPE_SEM
  | .mbox _ => OS_EVENT_TYPE_MBOX
  | .q _ => OS_EVENT_TYPE_Q

/-- `waits` is `OSEventGrp` with `OSEventTbl`. -/
structure OS_EVENT (α : Type) where
  store : Store α
  waits : Index 8 8

/-- Where a task goes on: after a service, before the `OS_Sched` at a service's
end, before the `OS_Sched` inside a pend on event `e`, and behind that one. -/
inductive Pc
  | run
  | sched
  | pendSched (e : ℕ)
  | pendWake (e : ℕ)
  deriving DecidableEq, Repr

/-- `OSTCBPrioTbl` says which priorities have a task, `OSTCBTbl` has their
control blocks; `OSRdy` is `OSRdyGrp` with `OSRdyTbl`. -/
structure Kernel (α : Type) where
  OSTCBPrioTbl : Prio → Bool
  OSTCBTbl : Prio → OS_TCB α
  OSRdy : Index 8 8
  OSPrioCur : Prio
  OSIntNesting : ℕ
  OSLockNesting : ℕ
  events : ℕ → OS_EVENT α
  pc : Prio → Pc

namespace Kernel

def setTcb (k : Kernel α) (p : Prio) (t : OS_TCB α) : Kernel α :=
  { k with OSTCBTbl := Function.update k.OSTCBTbl p t }

def setEvent (k : Kernel α) (e : ℕ) (ev : OS_EVENT α) : Kernel α :=
  { k with events := Function.update k.events e ev }

def setStore (k : Kernel α) (e : ℕ) (st : Store α) : Kernel α :=
  k.setEvent e { k.events e with store := st }

def setPc (k : Kernel α) (p : Prio) (pc : Pc) : Kernel α := { k with pc := Function.update k.pc p pc }

def makeReady (k : Kernel α) (p : Prio) : Kernel α := { k with OSRdy := k.OSRdy.add p }

def makeUnready (k : Kernel α) (p : Prio) : Kernel α := { k with OSRdy := k.OSRdy.remove p }

def OS_EventTaskRemove (k : Kernel α) (p : Prio) (e : ℕ) : Kernel α :=
  k.setEvent e { k.events e with waits := (k.events e).waits.remove p }

def eventHPT (k : Kernel α) (e : ℕ) : Prio := (k.events e).waits.first unMap unMap

def OS_EventTaskRdy (k : Kernel α) (e : ℕ) (pmsg : Option α) (msk : BitVec 8) (pend_stat : PendStat) : Kernel α :=
  let prio := k.eventHPT e
  let ptcb : OS_TCB α := ⟨(k.OSTCBTbl prio).OSTCBStat &&& ~~~msk, pend_stat, 0, pmsg⟩
  let k := k.setTcb prio ptcb
  let k := if ptcb.OSTCBStat &&& OS_STAT_SUSPEND = OS_STAT_RDY then k.makeReady prio else k
  k.OS_EventTaskRemove prio e

def OS_EventTaskWait (k : Kernel α) (e : ℕ) : Kernel α :=
  (k.setEvent e { k.events e with waits := (k.events e).waits.add k.OSPrioCur }).makeUnready k.OSPrioCur

/-- `OSPrioHighRdy`: the highest priority task that is ready to run. -/
def OS_SchedNew (k : Kernel α) : Prio := k.OSRdy.first unMap unMap

def OS_Sched (k : Kernel α) : Kernel α :=
  if k.OSIntNesting = 0 then
    if k.OSLockNesting = 0 then { k with OSPrioCur := k.OS_SchedNew } else k
  else k

def OSIntEnter (k : Kernel α) : Kernel α :=
  if k.OSIntNesting < 255 then { k with OSIntNesting := k.OSIntNesting + 1 } else k

def OSIntExit (k : Kernel α) : Kernel α :=
  let k := if 0 < k.OSIntNesting then { k with OSIntNesting := k.OSIntNesting - 1 } else k
  if k.OSIntNesting = 0 then
    if k.OSLockNesting = 0 then { k with OSPrioCur := k.OS_SchedNew } else k
  else k

/-- What `OSTimeTick` does with one control block of `OSTCBList`. -/
def tickTcb (k : Kernel α) (p : Prio) : Kernel α :=
  let ptcb := k.OSTCBTbl p
  if ptcb.OSTCBDly ≠ 0 then
    let ptcb := { ptcb with OSTCBDly := ptcb.OSTCBDly - 1 }
    if ptcb.OSTCBDly = 0 then
      let ptcb : OS_TCB α :=
        if ptcb.OSTCBStat &&& OS_STAT_PEND_ANY ≠ OS_STAT_RDY then
          { ptcb with
            OSTCBStat := ptcb.OSTCBStat &&& ~~~OS_STAT_PEND_ANY
            OSTCBStatPend := OS_STAT_PEND_TO }
        else { ptcb with OSTCBStatPend := OS_STAT_PEND_OK }
      let k := k.setTcb p ptcb
      if ptcb.OSTCBStat &&& OS_STAT_SUSPEND = OS_STAT_RDY then k.makeReady p else k
    else k.setTcb p ptcb
  else k

end Kernel

end

end SerialNet.Ucos
