import SerialNet.Ucos.State

/-!
# The services of the scheduler

Each service as far as its first return from a critical section; `Call.next`
says where its caller goes on. Queues, mailboxes and semaphores share their
bodies, with the event's type and its store in place of the differences. `log`
is the history of what the calls did with the event blocks.
-/

namespace SerialNet.Ucos

open BitIndex Circ

section
variable {α : Type}

/-- What happened to an event block; `c` is the calling task, `none` for an
interrupt service routine. -/
inductive Obs (α : Type)
  | put (e : ℕ) (m : Option α)
  | putFront (e : ℕ) (m : Option α)
  | lost (e : ℕ)
  | give (e : ℕ) (p : Prio) (m : Option α)
  | full (e : ℕ)
  | take (e : ℕ) (c : Option Prio) (m : Option α)
  | empty (e : ℕ) (c : Option Prio)
  | block (e : ℕ) (p : Prio)
  | flush (e : ℕ)
  | set (e : ℕ) (cnt : ℕ)
  | ret (e : ℕ) (p : Prio) (m : Option α)
  | timeout (e : ℕ) (p : Prio)
  | abort (e : ℕ) (p : Prio)
  deriving DecidableEq

/-- The state a service leaves, what it returns, and where its caller goes on. -/
structure Call (α : Type) where
  k : Kernel α
  err : Err := OS_ERR_NONE
  msg : Option α := none
  cnt : ℕ := 0
  next : Pc := .run
  log : List (Obs α) := []

def Store.take : Store α → Option (Option α × Store α)
  | .sem cnt => if 0 < cnt then some (none, .sem (cnt - 1)) else none
  | .mbox none => none
  | .mbox (some pmsg) => some (some pmsg, .mbox none)
  | .q pq => pq.pop.map fun r => (r.1, .q r.2)

def Store.put : Store α → Option α → Option (Store α)
  | .sem cnt, _ => if cnt < 65535 then some (.sem (cnt + 1)) else none
  | .mbox none, pmsg => some (.mbox pmsg)
  | .mbox (some _), _ => none
  | .q pq, pmsg => (pq.push pmsg).map .q

/-- Leave something at the front of a queue, if there is room. -/
def Store.putFront : Store α → Option α → Option (Store α)
  | .q pq, pmsg => (pq.pushFront pmsg).map .q
  | _, _ => none

/-- What a post into a full store returns. -/
def Store.fullErr : Store α → Err
  | .sem _ => OS_ERR_SEM_OVF
  | .mbox _ => OS_ERR_MBOX_FULL
  | .q _ => OS_ERR_Q_FULL

namespace Kernel

/-- The task that calls, unless an interrupt service routine does. -/
def caller (k : Kernel α) : Option Prio := if k.OSIntNesting = 0 then some k.OSPrioCur else none

/-! ## Pending -/

def pend (ty : EventType) (k : Kernel α) (e timeout : ℕ) : Call α :=
  if (k.events e).store.type ≠ ty then { k, err := OS_ERR_EVENT_TYPE }
  else if 0 < k.OSIntNesting then { k, err := OS_ERR_PEND_ISR }
  else if 0 < k.OSLockNesting then { k, err := OS_ERR_PEND_LOCKED }
  else
    match (k.events e).store.take with
    | some (pmsg, store) => { k := k.setStore e store, msg := pmsg, log := [.take e (some k.OSPrioCur) pmsg] }
    | none =>
      let tcbCur := k.OSTCBTbl k.OSPrioCur
      { k := (k.setTcb k.OSPrioCur
          ⟨tcbCur.OSTCBStat ||| ty.msk, OS_STAT_PEND_OK, timeout, tcbCur.OSTCBMsg⟩).OS_EventTaskWait e
        next := .pendSched e
        log := [.block e k.OSPrioCur] }

def OSQPend : Kernel α → ℕ → ℕ → Call α := pend OS_EVENT_TYPE_Q
def OSMboxPend : Kernel α → ℕ → ℕ → Call α := pend OS_EVENT_TYPE_MBOX
def OSSemPend : Kernel α → ℕ → ℕ → Call α := pend OS_EVENT_TYPE_SEM

/-- The end of a pend, behind its `OS_Sched`. A semaphore has no message. -/
def pendWake (k : Kernel α) (e : ℕ) : Call α :=
  let cur := k.OSPrioCur
  let tcbCur := k.OSTCBTbl cur
  let sem := (k.events e).store.type = OS_EVENT_TYPE_SEM
  let done : OS_TCB α := ⟨OS_STAT_RDY, OS_STAT_PEND_OK, tcbCur.OSTCBDly, if sem then tcbCur.OSTCBMsg else none⟩
  match tcbCur.OSTCBStatPend with
  | OS_STAT_PEND_OK =>
    let pmsg := if sem then none else tcbCur.OSTCBMsg
    { k := k.setTcb cur done, msg := pmsg, log := [.ret e cur pmsg] }
  | OS_STAT_PEND_ABORT => { k := k.setTcb cur done, err := OS_ERR_PEND_ABORT }
  | OS_STAT_PEND_TO =>
    { k := (k.OS_EventTaskRemove cur e).setTcb cur done, err := OS_ERR_TIMEOUT, log := [.timeout e cur] }

/-! ## Posting -/

def post (ty : EventType) (put : Store α → Option α → Option (Store α)) (stored : ℕ → Option α → Obs α)
    (k : Kernel α) (e : ℕ) (pmsg : Option α) : Call α :=
  if (k.events e).store.type ≠ ty then { k, err := OS_ERR_EVENT_TYPE }
  else if (k.events e).waits.isEmpty = false then
    { k := k.OS_EventTaskRdy e pmsg ty.msk OS_STAT_PEND_OK
      next := .sched
      log := [.give e (k.eventHPT e) pmsg] }
  else
    match put (k.events e).store pmsg with
    | none => { k, err := (k.events e).store.fullErr, log := [.full e] }
    | some store => { k := k.setStore e store, log := [stored e pmsg] }

def OSQPost : Kernel α → ℕ → Option α → Call α := post OS_EVENT_TYPE_Q Store.put .put
def OSQPostFront : Kernel α → ℕ → Option α → Call α := post OS_EVENT_TYPE_Q Store.putFront .putFront

/-- The null pointer posted to an empty mailbox leaves it empty: the post is lost. -/
def OSMboxPost : Kernel α → ℕ → Option α → Call α :=
  post OS_EVENT_TYPE_MBOX Store.put fun e pmsg =>
    match pmsg with
    | none => .lost e
    | some m => .put e (some m)

def OSSemPost (k : Kernel α) (e : ℕ) : Call α := post OS_EVENT_TYPE_SEM Store.put .put k e none

/-! ## Taking without pending -/

def accept (ty : EventType) (emptyErr : Err) (k : Kernel α) (e : ℕ) : Call α :=
  if (k.events e).store.type ≠ ty then { k, err := OS_ERR_EVENT_TYPE }
  else
    match (k.events e).store.take with
    | some (pmsg, store) => { k := k.setStore e store, msg := pmsg, log := [.take e k.caller pmsg] }
    | none => { k, err := emptyErr, log := [.empty e k.caller] }

def OSQAccept : Kernel α → ℕ → Call α := accept OS_EVENT_TYPE_Q OS_ERR_Q_EMPTY

/-- Without an error code: an empty mailbox gives the null pointer. -/
def OSMboxAccept (k : Kernel α) (e : ℕ) : Call α :=
  { accept OS_EVENT_TYPE_MBOX OS_ERR_NONE k e with err := OS_ERR_NONE }

/-- Without an error code: the count before is returned. -/
def OSSemAccept (k : Kernel α) (e : ℕ) : Call α :=
  { accept OS_EVENT_TYPE_SEM OS_ERR_NONE k e with
    err := OS_ERR_NONE
    cnt := match (k.events e).store with
      | .sem cnt => cnt
      | _ => 0 }

/-! ## Aborting, clearing, setting -/

/-- The loop that readies all waiting tasks, with the number of those readied. -/
def abortAll (msk : BitVec 8) (e : ℕ) : ℕ → Kernel α → Kernel α × ℕ × List (Obs α)
  | 0, k => (k, 0, [])
  | fuel + 1, k =>
    if (k.events e).waits.isEmpty then (k, 0, [])
    else
      let r := abortAll msk e fuel (k.OS_EventTaskRdy e none msk OS_STAT_PEND_ABORT)
      (r.1, r.2.1 + 1, .abort e (k.eventHPT e) :: r.2.2)

/-- `broadcast` is `OS_PEND_OPT_BROADCAST`. -/
def pendAbort (ty : EventType) (k : Kernel α) (e : ℕ) (broadcast : Bool) : Call α :=
  if (k.events e).store.type ≠ ty then { k, err := OS_ERR_EVENT_TYPE }
  else if (k.events e).waits.isEmpty = false then
    let r := abortAll ty.msk e (if broadcast then 64 else 1) k
    { k := r.1, err := OS_ERR_PEND_ABORT, cnt := r.2.1, next := .sched, log := r.2.2 }
  else { k }

def OSQPendAbort : Kernel α → ℕ → Bool → Call α := pendAbort OS_EVENT_TYPE_Q
def OSMboxPendAbort : Kernel α → ℕ → Bool → Call α := pendAbort OS_EVENT_TYPE_MBOX
def OSSemPendAbort : Kernel α → ℕ → Bool → Call α := pendAbort OS_EVENT_TYPE_SEM

/-- The type of the block is not checked: only a queue may be flushed. -/
def OSQFlush (k : Kernel α) (e : ℕ) : Call α :=
  match (k.events e).store with
  | .q pq => { k := k.setStore e (.q pq.flush), log := [.flush e] }
  | _ => { k }

def OSSemSet (k : Kernel α) (e cnt : ℕ) : Call α :=
  match (k.events e).store with
  | .sem c =>
    if 0 < c then { k := k.setStore e (.sem cnt), log := [.set e cnt] }
    else if (k.events e).waits.isEmpty then { k := k.setStore e (.sem cnt), log := [.set e cnt] }
    else { k, err := OS_ERR_TASK_WAITING }
  | _ => { k, err := OS_ERR_EVENT_TYPE }

/-! ## Tasks -/

def OSTimeDly (k : Kernel α) (ticks : ℕ) : Call α :=
  if 0 < k.OSIntNesting then { k }
  else if 0 < k.OSLockNesting then { k }
  else if 0 < ticks then
    { k := (k.makeUnready k.OSPrioCur).setTcb k.OSPrioCur { k.OSTCBTbl k.OSPrioCur with OSTCBDly := ticks }
      next := .sched }
  else { k }

/-- The idle task is not excepted: the check of the argument is not compiled in. -/
def OSTaskSuspend (k : Kernel α) (prio : Prio) : Call α :=
  if k.OSTCBPrioTbl prio = false then { k, err := OS_ERR_TASK_SUSPEND_PRIO }
  else
    let ptcb := k.OSTCBTbl prio
    { k := (k.makeUnready prio).setTcb prio { ptcb with OSTCBStat := ptcb.OSTCBStat ||| OS_STAT_SUSPEND }
      next := if prio = k.OSPrioCur then .sched else .run }

def OSTaskResume (k : Kernel α) (prio : Prio) : Call α :=
  if k.OSTCBPrioTbl prio = false then { k, err := OS_ERR_TASK_RESUME_PRIO }
  else
    let ptcb := k.OSTCBTbl prio
    if ptcb.OSTCBStat &&& OS_STAT_SUSPEND ≠ OS_STAT_RDY then
      let ptcb := { ptcb with OSTCBStat := ptcb.OSTCBStat &&& ~~~OS_STAT_SUSPEND }
      let k := k.setTcb prio ptcb
      if ptcb.OSTCBStat = OS_STAT_RDY ∧ ptcb.OSTCBDly = 0 then { k := k.makeReady prio, next := .sched }
      else { k }
    else { k, err := OS_ERR_TASK_NOT_SUSPENDED }

/-- With the new control block of `OS_TCBInit`. -/
def OSTaskCreate (k : Kernel α) (prio : Prio) : Call α :=
  if 0 < k.OSIntNesting then { k, err := OS_ERR_TASK_CREATE_ISR }
  else if k.OSTCBPrioTbl prio then { k, err := OS_ERR_PRIO_EXIST }
  else
    { k := (({ k with OSTCBPrioTbl := Function.update k.OSTCBPrioTbl prio true }.setTcb prio
        ⟨OS_STAT_RDY, OS_STAT_PEND_OK, 0, none⟩).setPc prio .run).makeReady prio
      next := .sched }

def OSSchedLock (k : Kernel α) : Call α :=
  if k.OSIntNesting = 0 ∧ k.OSLockNesting < 255 then { k := { k with OSLockNesting := k.OSLockNesting + 1 } }
  else { k }

def OSSchedUnlock (k : Kernel α) : Call α :=
  if 0 < k.OSLockNesting then
    let k := { k with OSLockNesting := k.OSLockNesting - 1 }
    if k.OSLockNesting = 0 ∧ k.OSIntNesting = 0 then { k, next := .sched } else { k }
  else { k }

end Kernel

inductive Service (α : Type)
  | OSQPend (e timeout : ℕ)
  | OSQPost (e : ℕ) (pmsg : Option α)
  | OSQPostFront (e : ℕ) (pmsg : Option α)
  | OSQAccept (e : ℕ)
  | OSQPendAbort (e : ℕ) (broadcast : Bool)
  | OSQFlush (e : ℕ)
  | OSMboxPend (e timeout : ℕ)
  | OSMboxPost (e : ℕ) (pmsg : Option α)
  | OSMboxAccept (e : ℕ)
  | OSMboxPendAbort (e : ℕ) (broadcast : Bool)
  | OSSemPend (e timeout : ℕ)
  | OSSemPost (e : ℕ)
  | OSSemAccept (e : ℕ)
  | OSSemPendAbort (e : ℕ) (broadcast : Bool)
  | OSSemSet (e cnt : ℕ)
  | OSTimeDly (ticks : ℕ)
  | OSTaskSuspend (prio : Prio)
  | OSTaskResume (prio : Prio)
  | OSTaskCreate (prio : Prio)
  | OSSchedLock
  | OSSchedUnlock

def Service.call (k : Kernel α) : Service α → Call α
  | OSQPend e timeout => k.OSQPend e timeout
  | OSQPost e pmsg => k.OSQPost e pmsg
  | OSQPostFront e pmsg => k.OSQPostFront e pmsg
  | OSQAccept e => k.OSQAccept e
  | OSQPendAbort e broadcast => k.OSQPendAbort e broadcast
  | OSQFlush e => k.OSQFlush e
  | OSMboxPend e timeout => k.OSMboxPend e timeout
  | OSMboxPost e pmsg => k.OSMboxPost e pmsg
  | OSMboxAccept e => k.OSMboxAccept e
  | OSMboxPendAbort e broadcast => k.OSMboxPendAbort e broadcast
  | OSSemPend e timeout => k.OSSemPend e timeout
  | OSSemPost e => k.OSSemPost e
  | OSSemAccept e => k.OSSemAccept e
  | OSSemPendAbort e broadcast => k.OSSemPendAbort e broadcast
  | OSSemSet e cnt => k.OSSemSet e cnt
  | OSTimeDly ticks => k.OSTimeDly ticks
  | OSTaskSuspend prio => k.OSTaskSuspend prio
  | OSTaskResume prio => k.OSTaskResume prio
  | OSTaskCreate prio => k.OSTaskCreate prio
  | OSSchedLock => k.OSSchedLock
  | OSSchedUnlock => k.OSSchedUnlock

/-! ## Runs -/

/-- One critical section: the current task calls a service or goes on inside
one, an interrupt comes or ends, and what an interrupt service routine does. -/
inductive Action (α : Type)
  | task (s : Service α)
  | goOn
  | intEnter
  | isr (s : Service α)
  | tick (prio : Prio)
  | intExit

/-- The system with the history of its event blocks. -/
structure World (α : Type) where
  k : Kernel α
  log : List (Obs α)

/-- The current task goes on at its program point. -/
def Kernel.goOn (k : Kernel α) : Kernel α × List (Obs α) :=
  match k.pc k.OSPrioCur with
  | .run => (k, [])
  | .sched => ((k.setPc k.OSPrioCur .run).OS_Sched, [])
  | .pendSched e => ((k.setPc k.OSPrioCur (.pendWake e)).OS_Sched, [])
  | .pendWake e => ((k.pendWake e).k.setPc k.OSPrioCur .run, (k.pendWake e).log)

/-- An action that cannot come now changes nothing: tasks do not run inside an
interrupt, the idle task calls no service and is not in a delay. -/
def Kernel.step (k : Kernel α) : Action α → Kernel α × List (Obs α)
  | .task s =>
    if k.OSIntNesting = 0 ∧ k.pc k.OSPrioCur = .run ∧ k.OSPrioCur ≠ OS_TASK_IDLE_PRIO then
      ((s.call k).k.setPc k.OSPrioCur (s.call k).next, (s.call k).log)
    else (k, [])
  | .goOn => if k.OSIntNesting = 0 then k.goOn else (k, [])
  | .intEnter => (k.OSIntEnter, [])
  | .isr s => if 0 < k.OSIntNesting then ((s.call k).k, (s.call k).log) else (k, [])
  | .tick prio =>
    if 0 < k.OSIntNesting ∧ k.OSTCBPrioTbl prio ∧ prio ≠ OS_TASK_IDLE_PRIO then (k.tickTcb prio, []) else (k, [])
  | .intExit => if 0 < k.OSIntNesting then (k.OSIntExit, []) else (k, [])

def World.step (w : World α) (a : Action α) : World α := ⟨(w.k.step a).1, w.log ++ (w.k.step a).2⟩

end

end SerialNet.Ucos
