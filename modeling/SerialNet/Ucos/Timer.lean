import SerialNet.Lib.Chain
import Mathlib.Logic.Function.Basic
import Mathlib.Data.Nat.Notation

/-!
# The timer wheel

Sixteen timer blocks are either on the free list, idle, or linked into one of
eight spokes by the time at which they expire. Pointers to timer blocks are
indices into the table and null is `none`; a function that would follow a null
pointer returns `none`. What a callback does is an input: the calls it makes on
its own timer.
-/

namespace SerialNet.Tmr

abbrev OS_TMR_CFG_MAX : ℕ := 16

abbrev OS_TMR_CFG_WHEEL_SIZE : ℕ := 8

def OS_TMR_CFG_TICKS_PER_SEC : BitVec 32 := 100

abbrev TmrPtr := Fin OS_TMR_CFG_MAX

inductive TmrOpt
  | OS_TMR_OPT_NONE
  | OS_TMR_OPT_ONE_SHOT
  | OS_TMR_OPT_PERIODIC
  | OS_TMR_OPT_CALLBACK
  | OS_TMR_OPT_CALLBACK_ARG
deriving DecidableEq

inductive TmrState
  | OS_TMR_STATE_UNUSED
  | OS_TMR_STATE_STOPPED
  | OS_TMR_STATE_COMPLETED
  | OS_TMR_STATE_RUNNING
deriving DecidableEq

inductive LinkType
  | OS_TMR_LINK_DLY
  | OS_TMR_LINK_PERIODIC
deriving DecidableEq

inductive TmrErr
  | OS_ERR_NONE
  | OS_ERR_TMR_NON_AVAIL
  | OS_ERR_TMR_INACTIVE
  | OS_ERR_TMR_ISR
  | OS_ERR_TMR_INVALID_OPT
  | OS_ERR_TMR_STOPPED
  | OS_ERR_TMR_NO_CALLBACK
deriving DecidableEq

export TmrOpt (OS_TMR_OPT_NONE OS_TMR_OPT_ONE_SHOT OS_TMR_OPT_PERIODIC OS_TMR_OPT_CALLBACK OS_TMR_OPT_CALLBACK_ARG)
export TmrState (OS_TMR_STATE_UNUSED OS_TMR_STATE_STOPPED OS_TMR_STATE_COMPLETED OS_TMR_STATE_RUNNING)
export LinkType (OS_TMR_LINK_DLY OS_TMR_LINK_PERIODIC)
export TmrErr (OS_ERR_NONE OS_ERR_TMR_NON_AVAIL OS_ERR_TMR_INACTIVE OS_ERR_TMR_ISR OS_ERR_TMR_INVALID_OPT
  OS_ERR_TMR_STOPPED OS_ERR_TMR_NO_CALLBACK)

structure OS_TMR where
  OSTmrCallback : Option ℕ
  OSTmrCallbackArg : ℕ
  OSTmrNext : Option TmrPtr
  OSTmrPrev : Option TmrPtr
  OSTmrMatch : BitVec 32
  OSTmrDly : BitVec 32
  OSTmrPeriod : BitVec 32
  OSTmrOpt : TmrOpt
  OSTmrState : TmrState

structure OS_TMR_WHEEL where
  OSTmrFirst : Option TmrPtr
  OSTmrEntries : ℕ

/-- The timer blocks, the wheel and the free list; `called` records the
callbacks called so far, each with its timer and argument. -/
structure Timers where
  OSTmrTbl : TmrPtr → OS_TMR
  OSTmrWheelTbl : Fin OS_TMR_CFG_WHEEL_SIZE → OS_TMR_WHEEL
  OSTmrFreeList : Option TmrPtr
  OSTmrUsed : ℕ
  OSTmrFree : ℕ
  OSTmrTime : BitVec 32
  called : List (TmrPtr × ℕ × ℕ)

def Timers.setTmr (s : Timers) (ptmr : TmrPtr) (tmr : OS_TMR) : Timers :=
  { s with OSTmrTbl := Function.update s.OSTmrTbl ptmr tmr }

def Timers.setSpoke (s : Timers) (spoke : Fin OS_TMR_CFG_WHEEL_SIZE) (w : OS_TMR_WHEEL) : Timers :=
  { s with OSTmrWheelTbl := Function.update s.OSTmrWheelTbl spoke w }

def Timers.setNext (s : Timers) (ptmr : TmrPtr) (p : Option TmrPtr) : Timers :=
  s.setTmr ptmr { s.OSTmrTbl ptmr with OSTmrNext := p }

/-- The back link of the timer a pointer points to, where it is not null. -/
def Timers.setPrev (s : Timers) (ptmr p : Option TmrPtr) : Timers :=
  match ptmr with
  | none => s
  | some ptmr => s.setTmr ptmr { s.OSTmrTbl ptmr with OSTmrPrev := p }

def Timers.setState (s : Timers) (ptmr : TmrPtr) (st : TmrState) : Timers :=
  s.setTmr ptmr { s.OSTmrTbl ptmr with OSTmrState := st }

/-! ## The free list and the wheel -/

def OSTmr_Init : Timers where
  OSTmrTbl ptmr := {
    OSTmrCallback := none
    OSTmrCallbackArg := 0
    OSTmrNext := if h : ptmr.val + 1 < OS_TMR_CFG_MAX then some ⟨ptmr.val + 1, h⟩ else none
    OSTmrPrev := none
    OSTmrMatch := 0
    OSTmrDly := 0
    OSTmrPeriod := 0
    OSTmrOpt := OS_TMR_OPT_NONE
    OSTmrState := OS_TMR_STATE_UNUSED }
  OSTmrWheelTbl _ := { OSTmrFirst := none, OSTmrEntries := 0 }
  OSTmrFreeList := some 0
  OSTmrUsed := 0
  OSTmrFree := OS_TMR_CFG_MAX
  OSTmrTime := 0
  called := []

def OSTmr_Alloc (s : Timers) : Option (TmrPtr × Timers) :=
  match s.OSTmrFreeList with
  | none => none
  | some ptmr =>
    let tmr := s.OSTmrTbl ptmr
    let s := s.setTmr ptmr { tmr with OSTmrNext := none, OSTmrPrev := none }
    some (ptmr, { s with
      OSTmrFreeList := tmr.OSTmrNext
      OSTmrUsed := s.OSTmrUsed + 1
      OSTmrFree := s.OSTmrFree - 1 })

def OSTmr_Free (s : Timers) (ptmr : TmrPtr) : Timers :=
  let s := s.setTmr ptmr { s.OSTmrTbl ptmr with
    OSTmrState := OS_TMR_STATE_UNUSED
    OSTmrOpt := OS_TMR_OPT_NONE
    OSTmrPeriod := 0
    OSTmrMatch := 0
    OSTmrCallback := none
    OSTmrCallbackArg := 0
    OSTmrPrev := none
    OSTmrNext := s.OSTmrFreeList }
  { s with
    OSTmrFreeList := some ptmr
    OSTmrUsed := s.OSTmrUsed - 1
    OSTmrFree := s.OSTmrFree + 1 }

/-- The spoke of the wheel for a time. -/
def spokeOf (time : BitVec 32) : Fin OS_TMR_CFG_WHEEL_SIZE :=
  ⟨time.toNat % OS_TMR_CFG_WHEEL_SIZE, Nat.mod_lt _ (by decide)⟩

/-- The time at which a timer that is linked now expires. -/
def Timers.expires (s : Timers) (ptmr : TmrPtr) (type : LinkType) : BitVec 32 :=
  let tmr := s.OSTmrTbl ptmr
  if type = OS_TMR_LINK_PERIODIC then tmr.OSTmrPeriod + s.OSTmrTime
  else if tmr.OSTmrDly = 0 then tmr.OSTmrPeriod + s.OSTmrTime
  else tmr.OSTmrDly + s.OSTmrTime

def OSTmr_Link (s : Timers) (ptmr : TmrPtr) (type : LinkType) : Timers :=
  let time := s.expires ptmr type
  let s := s.setTmr ptmr { s.OSTmrTbl ptmr with
    OSTmrState := OS_TMR_STATE_RUNNING
    OSTmrMatch := time }
  let pspoke := s.OSTmrWheelTbl (spokeOf time)
  let s :=
    match pspoke.OSTmrFirst with
    | none => (s.setSpoke (spokeOf time) { OSTmrFirst := some ptmr, OSTmrEntries := 1 }).setNext ptmr none
    | some ptmr1 =>
      ((s.setSpoke (spokeOf time) { OSTmrFirst := some ptmr, OSTmrEntries := pspoke.OSTmrEntries + 1 }).setNext ptmr
        (some ptmr1)).setPrev (some ptmr1) (some ptmr)
  s.setPrev (some ptmr) none

def OSTmr_Unlink (s : Timers) (ptmr : TmrPtr) : Option Timers :=
  let tmr := s.OSTmrTbl ptmr
  let spoke := spokeOf tmr.OSTmrMatch
  let pspoke := s.OSTmrWheelTbl spoke
  let taken :=
    if pspoke.OSTmrFirst = some ptmr then
      some ((s.setSpoke spoke { pspoke with OSTmrFirst := tmr.OSTmrNext }).setPrev tmr.OSTmrNext none)
    else
      match tmr.OSTmrPrev with
      | none => none
      | some ptmr1 => some ((s.setNext ptmr1 tmr.OSTmrNext).setPrev tmr.OSTmrNext (some ptmr1))
  taken.map fun s =>
    (s.setTmr ptmr { s.OSTmrTbl ptmr with
      OSTmrState := OS_TMR_STATE_STOPPED
      OSTmrNext := none
      OSTmrPrev := none }).setSpoke spoke
      { s.OSTmrWheelTbl spoke with OSTmrEntries := (s.OSTmrWheelTbl spoke).OSTmrEntries - 1 }

/-! ## Services -/

structure Reply where
  s : Timers
  ok : Bool
  err : TmrErr

def OSTmrCreate (OSIntNesting : ℕ) (s : Timers) (dly period : BitVec 32) (opt : TmrOpt) (callback : Option ℕ)
    (callback_arg : ℕ) : Timers × Option TmrPtr × TmrErr :=
  if 0 < OSIntNesting then (s, none, OS_ERR_TMR_ISR)
  else
    match OSTmr_Alloc s with
    | none => (s, none, OS_ERR_TMR_NON_AVAIL)
    | some (ptmr, s) =>
      (s.setTmr ptmr { s.OSTmrTbl ptmr with
        OSTmrState := OS_TMR_STATE_STOPPED
        OSTmrDly := dly
        OSTmrPeriod := period
        OSTmrOpt := opt
        OSTmrCallback := callback
        OSTmrCallbackArg := callback_arg }, some ptmr, OS_ERR_NONE)

def OSTmrDel (OSIntNesting : ℕ) (s : Timers) (ptmr : TmrPtr) : Option Reply :=
  if 0 < OSIntNesting then some ⟨s, false, OS_ERR_TMR_ISR⟩
  else
    match (s.OSTmrTbl ptmr).OSTmrState with
    | OS_TMR_STATE_RUNNING => (OSTmr_Unlink s ptmr).map fun s => ⟨OSTmr_Free s ptmr, true, OS_ERR_NONE⟩
    | OS_TMR_STATE_STOPPED | OS_TMR_STATE_COMPLETED => some ⟨OSTmr_Free s ptmr, true, OS_ERR_NONE⟩
    | OS_TMR_STATE_UNUSED => some ⟨s, false, OS_ERR_TMR_INACTIVE⟩

def OSTmrRemainGet (OSIntNesting : ℕ) (s : Timers) (ptmr : TmrPtr) : BitVec 32 × TmrErr :=
  let tmr := s.OSTmrTbl ptmr
  if 0 < OSIntNesting then (0, OS_ERR_TMR_ISR)
  else
    match tmr.OSTmrState with
    | OS_TMR_STATE_RUNNING => (tmr.OSTmrMatch - s.OSTmrTime, OS_ERR_NONE)
    | OS_TMR_STATE_STOPPED =>
      match tmr.OSTmrOpt with
      | OS_TMR_OPT_PERIODIC => (if tmr.OSTmrDly = 0 then tmr.OSTmrPeriod else tmr.OSTmrDly, OS_ERR_NONE)
      | _ => (tmr.OSTmrDly, OS_ERR_NONE)
    | OS_TMR_STATE_COMPLETED => (0, OS_ERR_NONE)
    | OS_TMR_STATE_UNUSED => (0, OS_ERR_TMR_INACTIVE)

def OSTmrStart (OSIntNesting : ℕ) (s : Timers) (ptmr : TmrPtr) : Option Reply :=
  if 0 < OSIntNesting then some ⟨s, false, OS_ERR_TMR_ISR⟩
  else
    match (s.OSTmrTbl ptmr).OSTmrState with
    | OS_TMR_STATE_RUNNING =>
      (OSTmr_Unlink s ptmr).map fun s => ⟨OSTmr_Link s ptmr OS_TMR_LINK_DLY, true, OS_ERR_NONE⟩
    | OS_TMR_STATE_STOPPED | OS_TMR_STATE_COMPLETED => some ⟨OSTmr_Link s ptmr OS_TMR_LINK_DLY, true, OS_ERR_NONE⟩
    | OS_TMR_STATE_UNUSED => some ⟨s, false, OS_ERR_TMR_INACTIVE⟩

/-- A callback is called, where the timer has one; `does` is what it does. -/
def OSTmrCallback (s : Timers) (ptmr : TmrPtr) (arg : ℕ) (does : Timers → Option Timers) : Option Timers :=
  match (s.OSTmrTbl ptmr).OSTmrCallback with
  | none => some s
  | some pfnct => does { s with called := s.called ++ [(ptmr, pfnct, arg)] }

def OSTmrStop (OSIntNesting : ℕ) (s : Timers) (ptmr : TmrPtr) (opt : TmrOpt) (callback_arg : ℕ)
    (does : Timers → Option Timers) : Option Reply :=
  if 0 < OSIntNesting then some ⟨s, false, OS_ERR_TMR_ISR⟩
  else
    let tmr := s.OSTmrTbl ptmr
    match tmr.OSTmrState with
    | OS_TMR_STATE_RUNNING =>
      (OSTmr_Unlink s ptmr).bind fun s =>
        match opt with
        | OS_TMR_OPT_CALLBACK =>
          (OSTmrCallback s ptmr tmr.OSTmrCallbackArg does).map fun s =>
            ⟨s, true, if tmr.OSTmrCallback = none then OS_ERR_TMR_NO_CALLBACK else OS_ERR_NONE⟩
        | OS_TMR_OPT_CALLBACK_ARG =>
          (OSTmrCallback s ptmr callback_arg does).map fun s =>
            ⟨s, true, if tmr.OSTmrCallback = none then OS_ERR_TMR_NO_CALLBACK else OS_ERR_NONE⟩
        | OS_TMR_OPT_NONE => some ⟨s, true, OS_ERR_NONE⟩
        | _ => some ⟨s, true, OS_ERR_TMR_INVALID_OPT⟩
    | OS_TMR_STATE_COMPLETED | OS_TMR_STATE_STOPPED => some ⟨s, true, OS_ERR_TMR_STOPPED⟩
    | OS_TMR_STATE_UNUSED => some ⟨s, false, OS_ERR_TMR_INACTIVE⟩

/-- Milliseconds to ticks, as `NST_SetTimer` does. -/
def timeValue (Value : BitVec 32) : BitVec 32 :=
  let TimeValue := Value * OS_TMR_CFG_TICKS_PER_SEC / 1000
  if TimeValue = 0 then 1 else TimeValue

/-- The part of `NST_SetTimer` before its call of `OSTmrStart`. -/
def NST_SetTimer (s : Timers) (pTimer : TmrPtr) (Value : BitVec 32) : Timers :=
  let tmr := s.OSTmrTbl pTimer
  if OS_TMR_OPT_PERIODIC = tmr.OSTmrOpt then
    s.setTmr pTimer { tmr with OSTmrPeriod := timeValue Value, OSTmrDly := 0 }
  else s.setTmr pTimer { tmr with OSTmrPeriod := 0, OSTmrDly := timeValue Value }

/-! ## Callbacks and the timer task -/

/-- A call with which no callback is called: what a callback may do with its
own timer, and most of what a task does. -/
inductive Call
  | OSTmrStart
  | OSTmrStop
  | OSTmrDel
  | NST_SetTimer (Value : BitVec 32)
deriving DecidableEq

def Timers.call (OSIntNesting : ℕ) (s : Timers) (ptmr : TmrPtr) : Call → Option Timers
  | .OSTmrStart => (OSTmrStart OSIntNesting s ptmr).map Reply.s
  | .OSTmrStop => (OSTmrStop OSIntNesting s ptmr OS_TMR_OPT_NONE 0 some).map Reply.s
  | .OSTmrDel => (OSTmrDel OSIntNesting s ptmr).map Reply.s
  | .NST_SetTimer Value => some (NST_SetTimer s ptmr Value)

def Timers.calls (ptmr : TmrPtr) : List Call → Timers → Option Timers
  | [], s => some s
  | c :: cs, s => (s.call 0 ptmr c).bind (Timers.calls ptmr cs)

def expire (s : Timers) (ptmr : TmrPtr) (does : List Call) : Option Timers :=
  (OSTmr_Unlink s ptmr).bind fun s =>
    let s :=
      if (s.OSTmrTbl ptmr).OSTmrOpt = OS_TMR_OPT_PERIODIC then OSTmr_Link s ptmr OS_TMR_LINK_PERIODIC
      else s.setState ptmr OS_TMR_STATE_COMPLETED
    OSTmrCallback s ptmr (s.OSTmrTbl ptmr).OSTmrCallbackArg (Timers.calls ptmr does)

/-- The loop of `OSTmr_Task` over a spoke; it has run out of fuel if `none`. -/
def expireAll (does : TmrPtr → List Call) : ℕ → Option TmrPtr → Timers → Option Timers
  | _, none, s => some s
  | 0, some _, _ => none
  | n + 1, some ptmr, s =>
    let ptmr_next := (s.OSTmrTbl ptmr).OSTmrNext
    if s.OSTmrTime = (s.OSTmrTbl ptmr).OSTmrMatch then
      (expire s ptmr (does ptmr)).bind (expireAll does n ptmr_next)
    else expireAll does n ptmr_next s

def OSTmr_Task (s : Timers) (does : TmrPtr → List Call) : Option Timers :=
  let s := { s with OSTmrTime := s.OSTmrTime + 1 }
  expireAll does OS_TMR_CFG_MAX (s.OSTmrWheelTbl (spokeOf s.OSTmrTime)).OSTmrFirst s

/-! ## Runs -/

inductive Event
  | OSTmrCreate (OSIntNesting : ℕ) (dly period : BitVec 32) (opt : TmrOpt) (callback : Option ℕ) (callback_arg : ℕ)
  | call (OSIntNesting : ℕ) (ptmr : TmrPtr) (c : Call)
  | OSTmrStop (OSIntNesting : ℕ) (ptmr : TmrPtr) (opt : TmrOpt) (callback_arg : ℕ) (does : List Call)
  | OSTmr_Task (does : TmrPtr → List Call)

def Timers.step (s : Timers) : Event → Option Timers
  | .OSTmrCreate OSIntNesting dly period opt callback callback_arg =>
    some (OSTmrCreate OSIntNesting s dly period opt callback callback_arg).1
  | .call OSIntNesting ptmr c => s.call OSIntNesting ptmr c
  | .OSTmrStop OSIntNesting ptmr opt callback_arg does =>
    (OSTmrStop OSIntNesting s ptmr opt callback_arg (Timers.calls ptmr does)).map Reply.s
  | .OSTmr_Task does => OSTmr_Task s does

def runFrom : List Event → Timers → Option Timers
  | [], s => some s
  | e :: es, s => (s.step e).bind (runFrom es)

end SerialNet.Tmr
