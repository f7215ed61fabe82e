import Mathlib.Algebra.Order.Ring.Nat
import SerialNet.Util.Strlen

/-!
# The DNS server

`dns_server.c`: the control block, starting and stopping the service, the
comparison of a question's name with the configured one, and the receive
callback. A message and the control block are memories: the bytes given and
whatever lies behind them.
-/

namespace SerialNet.Dns

abbrev Mem := Nat → UInt8

def errSuccess : Int := 0
def errLinkdown : Int := -1
def errParam : Int := -2
def errMem : Int := -3

def maxName : Nat := 32

structure DnsServer where
  socket : Option Nat
  dnsName : Vector UInt8 32
  hostIp : Vector UInt8 4

def DnsServer.zero : DnsServer := { socket := none, dnsName := Vector.replicate 32 0, hostIp := Vector.replicate 4 0 }

/-- A C string: what is given to `DNSS_Start` up to its terminator. -/
structure CString where
  chars : List UInt8
  noNul : 0 ∉ chars

/-- `DnsName` after `memset` and `NST_MOVE_MEM(.., strlen(DnsName))`. -/
def storeName (name : CString) : Vector UInt8 32 := Vector.ofFn fun i => name.chars.getD i.val 0

def dnssConfig (srv : DnsServer) (name : Option CString) : DnsServer × Int :=
  match name with
  | none => (srv, errParam)
  | some name =>
    if name.chars.length > maxName then (srv, errParam)
    else ({ srv with dnsName := storeName name }, errSuccess)

/-- `DNSS_Start` on an interface with the address `ip`; `udpNew` is the answer
of `udp_new`. -/
def dnssStart (srv : DnsServer) (isUp : Bool) (ip : Vector UInt8 4) (name : CString) (udpNew : Option Nat) :
    DnsServer × Int :=
  if name.chars.length > maxName then (srv, errParam)
  else if isUp = false then (srv, errLinkdown)
  else ({ socket := udpNew, dnsName := storeName name, hostIp := ip }, if udpNew.isSome then errSuccess else errMem)

/-! ## Memory -/

/-- Offset of `DnsName` in the control block; the socket pointer lies before
it. -/
def nameAt : Nat := 4
def nameEnd : Nat := nameAt + 32

/-- The control block in memory; `out` gives the bytes of the pointer and
those behind the block. -/
def DnsServer.mem (srv : DnsServer) (out : Mem) : Mem := fun a =>
  if a < nameAt then out a
  else if a < nameEnd then srv.dnsName.toList.getD (a - nameAt) 0
  else if a < nameEnd + 4 then srv.hostIp.toList.getD (a - nameEnd) 0
  else out a

/-- A received message with what lies behind it in the heap. -/
def messageMem (msg : List UInt8) (out : Mem) : Mem := fun a => msg.getD a (out a)

/-! ## Comparing names -/

def toUpper (c : UInt8) : UInt8 := if 97 ≤ c ∧ c ≤ 122 then c - 97 + 65 else c

/-- The pointers `MyDns` and `Query`, and the addresses read through each. -/
structure Cmp where
  my : Nat
  query : Nat
  myReads : List Nat
  queryReads : List Nat

def Cmp.readMy (a : Nat) (s : Cmp) : Cmp := { s with myReads := a :: s.myReads }
def Cmp.readQuery (a : Nat) (s : Cmp) : Cmp := { s with queryReads := a :: s.queryReads }

def isPointer (n : UInt8) : Prop := n &&& 0xc0 = 0xc0

instance (n : UInt8) : Decidable (isPointer n) := inferInstanceAs (Decidable (_ = _))

/-- `while (n > 0)`; the flag is whether all bytes were equal. -/
def compareBytes (my query : Mem) : Nat → Cmp → Bool × Cmp
  | 0, s => (true, s)
  | n + 1, s =>
    let s := (s.readMy s.my).readQuery s.query
    if toUpper (my s.my) ≠ toUpper (query s.query) then (false, s)
    else compareBytes my query n { s with my := s.my + 1, query := s.query + 1 }

/-- `(*(--MyDns) == 0) ? 0 : 1`. -/
def compareEnd (my : Mem) (s : Cmp) : Int × Cmp :=
  (if my (s.my - 1) = 0 then 0 else 1, s.readMy (s.my - 1))

/-- `do ... while (*Query != 0)`; a loop that is still running after `fuel`
turns has no result. -/
def compareLabels (my query : Mem) : Nat → Cmp → Option (Int × Cmp)
  | 0, _ => none
  | fuel + 1, s =>
    let n := query s.query
    let s := s.readQuery s.query
    let s := { s with query := s.query + 1 }
    if isPointer n then some (compareEnd my s)
    else match compareBytes my query n.toNat s with
    | (false, s) => some (1, s)
    | (true, s) =>
      let s := { s with my := s.my + 1 }
      let s := s.readQuery s.query
      if query s.query ≠ 0 then compareLabels my query fuel s else some (compareEnd my s)

def strlenReads (a len : Nat) : List Nat := (List.range (len + 1)).map (a + ·)

/-- `_DnsCompareName` on a question at `at`, `len` being its `strlen`. -/
def dnsCompareName (my query : Mem) (start len fuel : Nat) : Option (Int × Cmp) :=
  let s : Cmp := { my := nameAt, query := start, myReads := [], queryReads := strlenReads start len }
  -- `strlen(Query) - 1` is unsigned
  if len = 0 ∨ len - 1 > maxName then some (1, s)
  else compareLabels my query fuel s

/-! ## Replies -/

def headerSize : Nat := 12

def flag1Response : UInt8 := 0x80
def flag2ErrNone : UInt8 := 0x00
def flag2ErrName : UInt8 := 0x03

def replyHeader (m : Mem) (flag2 answers : UInt8) : List UInt8 :=
  [m 0, m 1, flag1Response, flag2, 0, 1, 0, answers, 0, 0, 0, 0]

def question (m : Mem) (len : Nat) : List UInt8 := (List.range (len + 1 + 4)).map fun i => m (headerSize + i)

def dnsNameErrGen (m : Mem) (len : Nat) : List UInt8 := replyHeader m flag2ErrName 0 ++ question m len

/-- `_DNSAnswerGenAndSend`: the name as an offset, type A, class IN, the time to
live of 3600 seconds, and the address. -/
def dnsAnswerGen (srv : DnsServer) (m : Mem) (len : Nat) : List UInt8 :=
  replyHeader m flag2ErrNone 1 ++ question m len ++
    [0xc0, 12, 0, 1, 0, 1, 0, 0, 0x0e, 0x10, 0, 4] ++ srv.hostIp.toList

inductive Reply
  | answer (bytes : List UInt8)
  | nameErr (bytes : List UInt8)
  deriving DecidableEq

/-- Whether the allocations of the callback succeed: the copy of the message,
and the buffers of the reply. -/
structure Alloc where
  message : Bool
  reply : Bool

/-- The header test: no response, and `0xf << 3` of the flags clear. -/
def headerOk (m : Mem) : Prop := m 2 &&& flag1Response = 0 ∧ m 2 &&& 0x78 = 0

instance (m : Mem) : Decidable (headerOk m) := inferInstanceAs (Decidable (_ ∧ _))

/-- The test of the question behind a name of `len` bytes: class IN or type A,
in network order. -/
def questionOk (m : Mem) (len : Nat) : Prop :=
  (m (headerSize + len + 3) = 0 ∧ m (headerSize + len + 4) = 1) ∨ (m (headerSize + len + 1) = 0 ∧ m (headerSize + len + 2) = 1)

instance (m : Mem) (len : Nat) : Decidable (questionOk m len) := inferInstanceAs (Decidable (_ ∨ _))

/-- `DNSS_RecvCb`. `out` is the memory behind the message and around the control
block. Returns what is sent and what `_DnsCompareName` did if it was called. -/
def dnssRecvCb (srv : DnsServer) (msg : List UInt8) (alloc : Alloc) (outMsg outSrv : Mem) :
    Option Reply × Option (Option (Int × Cmp)) :=
  if alloc.message = false then (none, none)
  else
    let m := messageMem msg outMsg
    if ¬headerOk m then (none, none)
    else
      let len := Util.strlen m headerSize
      if ¬questionOk m len then (none, none)
      else
        let cmp := dnsCompareName (srv.mem outSrv) m headerSize len (msg.length + 1)
        let reply := match cmp with
          | none => none
          | some (ret, _) =>
            if alloc.reply then
              some (if ret ≠ 0 then .nameErr (dnsNameErrGen m len) else .answer (dnsAnswerGen srv m len))
            else none
        (reply, some cmp)

/-- `DNSS_Stop`: the pointer that `udp_remove` gets. The field keeps it. -/
def dnssStop (srv : DnsServer) : Option Nat := srv.socket

end SerialNet.Dns
