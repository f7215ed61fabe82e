import Mathlib.Algebra.Order.Ring.Nat
import Mathlib.Logic.Function.Basic

/-!
# The UART side of the module

`uart_data_recv`, the consuming end of `AtThread`, `timerFuncProcess` and one
iteration of `TCPSendTask`, over the buffers they share.
-/

namespace SerialNet.Uart

abbrev maxRecvBufferSize : Nat := 1400

def atMode : Nat := 0
def dataMode : Nat := 1
def connectStatusFail : Nat := 0
def connectStatusOk : Nat := 1

inductive SysEvt where
  | linkDown
  | linkUp
  | joinFail
  | dhcpFail
  | scanDone
  | directCfgDone
  deriving DecidableEq, Repr

inductive Post where
  | startTimer
  | cancelledTimer
  | error14
  | error18
  | modeSwitch
  deriving DecidableEq, Repr

structure Env where
  atMode : Nat
  frameLength : Nat
  linkStatus : SysEvt

/-- `writes` are the indices of `uart_rec_data` written by the receiver. -/
structure UartState where
  connStatus : Nat
  uartRecvEnd : Bool
  uartRecLen : Nat
  uartRecData : Nat → UInt8
  netSendStart : Bool
  netSendLen : Nat
  netSendData : Nat → UInt8
  uartSendData : Nat → UInt8
  endSendFlags : Nat
  recvStart : Bool
  posts : List Post
  writes : List Nat

def UartState.zero : UartState where
  connStatus := 0
  uartRecvEnd := false
  uartRecLen := 0
  uartRecData := fun _ => 0
  netSendStart := false
  netSendLen := 0
  netSendData := fun _ => 0
  uartSendData := fun _ => 0
  endSendFlags := 0
  recvStart := false
  posts := []
  writes := []

def UartState.setRecData (s : UartState) (i : Nat) (c : UInt8) : UartState :=
  { s with uartRecData := Function.update s.uartRecData i c, writes := s.writes ++ [i] }

section
variable (s : UartState) (i : Nat) (c : UInt8)

@[simp] theorem UartState.setRecData_data : (s.setRecData i c).uartRecData = Function.update s.uartRecData i c := rfl
@[simp] theorem UartState.setRecData_len : (s.setRecData i c).uartRecLen = s.uartRecLen := rfl
@[simp] theorem UartState.setRecData_end : (s.setRecData i c).uartRecvEnd = s.uartRecvEnd := rfl
@[simp] theorem UartState.setRecData_start : (s.setRecData i c).recvStart = s.recvStart := rfl
@[simp] theorem UartState.setRecData_writes : (s.setRecData i c).writes = s.writes ++ [i] := rfl

end

def UartState.post (s : UartState) (p : Post) : UartState := { s with posts := s.posts ++ [p] }

def zeroMem (m : Nat → UInt8) (n : Nat) : Nat → UInt8 := fun i => if i < n then 0 else m i

def copyMem (dst src : Nat → UInt8) (n : Nat) : Nat → UInt8 := fun i => if i < n then src i else dst i

/-! ## AT mode -/

def isA (c : UInt8) : Bool := c == 65 || c == 97
def isT (c : UInt8) : Bool := c == 84 || c == 116
def plus : UInt8 := 43
def cr : UInt8 := 13
def lf : UInt8 := 10

/-- Outside a command the receiver looks for its first two characters. -/
def findPrefix (s : UartState) : UartState :=
  let s := if isA (s.uartRecData s.uartRecLen) then { s.setRecData 0 65 with uartRecLen := 0 } else s
  if s.uartRecLen == 1 && isT (s.uartRecData 1) && s.uartRecData 0 == 65 || s.uartRecData 0 == 97 then
    { s with recvStart := true }
  else { s with uartRecLen := 0 }

/-- The line end: `uart_rec_len` is an unsigned word. -/
def atLineEnd (s : UartState) : UartState :=
  if isA (s.uartRecData 0) && isT (s.uartRecData 1) then
    if s.uartRecData 2 == plus || s.uartRecData 2 == cr then
      let s := { s with uartRecLen := (s.uartRecLen + (2 ^ 32 - 1)) % 2 ^ 32, uartRecvEnd := true, recvStart := false }
      s.setRecData s.uartRecLen 0
    else { s with uartRecLen := 0, recvStart := false }
  else s

def atCollect (s : UartState) (dummy : UInt8) : UartState :=
  let s := s.setRecData s.uartRecLen dummy
  let s := if s.recvStart then s else findPrefix s
  if s.uartRecLen > 200 then { s with recvStart := false, uartRecLen := 0, uartRecvEnd := false }
  else { s with uartRecLen := s.uartRecLen + 1 }

def atRecv (s : UartState) (dummy : UInt8) : UartState :=
  if s.uartRecvEnd then s
  else if dummy == lf then atLineEnd s
  else atCollect s dummy

/-! ## Data mode -/

/-- The full buffer only watches for the escape sequence. -/
def watchEscape (s : UartState) (dummy : UInt8) : UartState :=
  if s.endSendFlags < 3 then
    if dummy == plus then { s with endSendFlags := s.endSendFlags + 1 }
    else { s with endSendFlags := 0 }.post .error14
  else if s.endSendFlags == 3 then
    if dummy == cr then { s with endSendFlags := s.endSendFlags + 1 } else { s with endSendFlags := 0 }
  else if s.endSendFlags == 4 then
    if dummy == lf then
      let s := { s with
        uartSendData := zeroMem s.uartSendData maxRecvBufferSize, endSendFlags := 0, uartRecLen := 5 }
      let s := ((((s.setRecData 0 plus).setRecData 1 plus).setRecData 2 plus).setRecData 3 cr).setRecData 4 lf
      (s.post .modeSwitch).post .cancelledTimer
    else { s with endSendFlags := 0 }
  else s

def frameFull (env : Env) (s : UartState) : UartState :=
  if s.connStatus == connectStatusOk && (env.linkStatus == .linkUp || env.linkStatus == .scanDone) then
    if s.netSendStart then s
    else
      let s := s.setRecData s.uartRecLen 0
      { s with
        netSendLen := s.uartRecLen, uartRecLen := 0
        netSendData := copyMem s.netSendData s.uartRecData s.uartRecLen, netSendStart := true }
  else s.post .error18

def dataRecv (env : Env) (s : UartState) (dummy : UInt8) : UartState :=
  let s :=
    if s.uartRecLen < maxRecvBufferSize then
      let s := (s.setRecData s.uartRecLen dummy).post .startTimer
      { s with uartRecLen := s.uartRecLen + 1 }
    else s
  if s.connStatus ≠ connectStatusOk then s
  else
    let s := if s.uartRecLen == maxRecvBufferSize then watchEscape s dummy else s
    if s.uartRecLen % env.frameLength == 0 && s.uartRecLen < maxRecvBufferSize then frameFull env s else s

def uartDataRecv (env : Env) (s : UartState) (dummy : UInt8) : UartState :=
  if env.atMode == dataMode then dataRecv env s dummy else atRecv s dummy

/-! ## The other parties -/

def atThreadDone (env : Env) (s : UartState) : UartState :=
  if env.atMode == atMode && s.uartRecvEnd then
    { s with uartRecLen := 0, uartRecvEnd := false, uartRecData := zeroMem s.uartRecData maxRecvBufferSize }
  else s

def escapeFrame : List UInt8 := [plus, plus, plus, cr, lf]

/-- A pending escape frame switches the mode, anything else goes to the sender. -/
def timerHandOver (s : UartState) : UartState :=
  if s.uartRecLen == 5 && (List.range 5).map s.uartRecData == escapeFrame then s.post .modeSwitch
  else if s.connStatus == connectStatusOk then
    let s := { s with netSendLen := s.uartRecLen }.setRecData s.uartRecLen 0
    { s with
      netSendData := copyMem s.netSendData s.uartRecData s.uartRecLen, uartRecLen := 0, netSendStart := true }
  else { s with uartRecLen := 0 }

def timerFuncProcess (s : UartState) : UartState :=
  if s.netSendStart then s
  else if s.uartRecLen ≠ 0 then timerHandOver (if s.uartRecLen == 5 then s.setRecData 5 0 else s)
  else s

/-- One iteration of the send loop of `TCPSendTask` with an open socket, in data
mode and connected. `ok` is whether `send` took the bytes; the result is the
state and `FailCnt`. -/
def tcpSendStep (s : UartState) (failCnt : Nat) (ok : Bool) : UartState × Nat :=
  if s.netSendStart then
    if ok then ({ s with netSendStart := false, netSendLen := 0 }, 0)
    else if failCnt + 1 = 10 then
      ({ s with
        netSendStart := false, netSendLen := 0, uartRecvEnd := false, uartRecLen := 0
        connStatus := connectStatusFail }, failCnt + 1)
    else ({ s with netSendStart := false, netSendLen := 0 }, failCnt + 1)
  else (s, failCnt)

end SerialNet.Uart
