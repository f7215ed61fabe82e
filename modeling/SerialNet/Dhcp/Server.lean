import Mathlib.Logic.Function.Basic
import Mathlib.Data.List.FinRange

/-!
# The DHCP server's lease table

`dhcp_server.c`: the eight client entries, the lookup that picks an entry for
a message, the state machine that answers it, the one-second tick and the
delete call. An entry pointer is a slot of the table, `NULL` is `none`.
-/

namespace SerialNet.Dhcp

abbrev Mac := Vector UInt8 6

def zeroMac : Mac := Vector.replicate 6 0

abbrev historyClientNum : Nat := 8

abbrev Slot := Fin historyClientNum

/-- `DHCP_DEFAULT_LEASE_TIME`: `3600*24*365*10`. -/
def defaultLeaseTime : UInt32 := 315360000
def defaultTimeout : UInt32 := 10

def msgDiscover : UInt8 := 1
def msgRequest : UInt8 := 3
def msgDecline : UInt8 := 4
def msgRelease : UInt8 := 7

inductive ClientState
  | idle | select | request | bind
  deriving DecidableEq, Repr

structure DhcpClient where
  state : ClientState
  timeout : UInt32
  ipAddr : UInt32
  macAddr : Mac
  lease : UInt32
  deriving DecidableEq

abbrev Table := Slot → DhcpClient

structure DhcpServer where
  enable : Bool
  socket : Option Nat
  serverIpAddr : UInt32
  startIpAddr : UInt32
  subnetMask : UInt32
  gateWay : UInt32
  dns1 : UInt32
  dns2 : UInt32
  leaseTime : UInt32
  clients : Table

/-- An answer handed to `udp_sendto`: its message type, `Yiaddr`, `Chaddr`
and transaction id. -/
inductive Reply
  | offer (yiaddr : UInt32) (chaddr : Mac) (xid : UInt32)
  | ack (yiaddr : UInt32) (chaddr : Mac) (xid : UInt32)
  | nak (chaddr : Mac) (xid : UInt32)
  deriving DecidableEq

/-! ## Scanning the table -/

/-- The pointers `_ClientTableLookup` collects in its loop. -/
structure Scan where
  pFreeClient : Option Slot := none
  pReqClient : Option Slot := none
  pMyHistoryClient : Option Slot := none
  pHistoryClient : Option Slot := none
  pMyClient : Option Slot := none
  ipUnavailable : Bool := false

def scanClient (t : Table) (mac : Mac) (reqIpAddr : UInt32) (l : Scan) (i : Slot) : Scan :=
  if (t i).state = .idle then
    { l with
      pMyHistoryClient :=
        if l.pMyHistoryClient = none ∧ (t i).macAddr = mac then some i else l.pMyHistoryClient
      pReqClient :=
        if l.pReqClient = none ∧ (t i).ipAddr = reqIpAddr then some i else l.pReqClient
      pFreeClient :=
        if l.pFreeClient = none ∧ (t i).macAddr = zeroMac then some i else l.pFreeClient
      pHistoryClient :=
        if l.pHistoryClient = none ∧ (t i).macAddr ≠ zeroMac then some i else l.pHistoryClient }
  else if (t i).macAddr = mac then { l with pMyClient := some i }
  else if (t i).ipAddr = reqIpAddr then { l with ipUnavailable := true }
  else l

def scanClients (t : Table) (mac : Mac) (reqIpAddr : UInt32) : Scan :=
  (List.finRange historyClientNum).foldl (scanClient t mac reqIpAddr) {}

/-! ## Choosing an entry -/

def modify (t : Table) (i : Slot) (f : DhcpClient → DhcpClient) : Table :=
  Function.update t i (f (t i))

def goIdle (c : DhcpClient) : DhcpClient := { c with state := .idle }

/-- `if (p->State != DHCP_CLIENT_STATE_BIND) memset(p->MacAddr, 0, 6)`. -/
def forgetUnlessBind (c : DhcpClient) : DhcpClient :=
  if c.state ≠ .bind then { c with macAddr := zeroMac } else c

def setMac (mac : Mac) (c : DhcpClient) : DhcpClient := { c with macAddr := mac }

/-- `case DHCP_MSG_DISCOVER`. The entry goes idle before its state is
compared with BIND, as in the source. -/
def lookupDiscover (t : Table) (l : Scan) : Table × Option Slot :=
  match l.pMyClient with
  | some my =>
    let t := modify t my goIdle
    match l.pReqClient with
    | some req => (modify t my forgetUnlessBind, some req)
    | none => (t, some my)
  | none => (t, l.pReqClient <|> l.pMyHistoryClient <|> l.pFreeClient <|> l.pHistoryClient)

/-- `case DHCP_MSG_REQUEST`; `ours` is the test of the server id. -/
def lookupRequest (t : Table) (l : Scan) (ours : Bool) : Table × Option Slot :=
  match l.pMyClient with
  | some my =>
    if l.ipUnavailable then (modify t my fun c => goIdle (forgetUnlessBind c), none)
    else match l.pReqClient with
      | some req =>
        (modify t my fun c => goIdle (forgetUnlessBind c), if ours then some req else none)
      | none => (t, if ours then some my else none)
  | none =>
    if l.ipUnavailable then (t, none) else (t, if ours then l.pReqClient else none)

/-- `case DHCP_MSG_RELEASE` and `case DHCP_MSG_DECLINE`. -/
def lookupRelease (t : Table) (l : Scan) : Table × Option Slot :=
  match l.pMyClient with
  | some my => (modify t my fun c => goIdle (forgetUnlessBind c), none)
  | none => (t, none)

def lookupSwitch (t : Table) (l : Scan) (msgType : UInt8) (ours : Bool) : Table × Option Slot :=
  if msgType = msgDiscover then lookupDiscover t l
  else if msgType = msgRequest then lookupRequest t l ours
  else if msgType = msgRelease then lookupRelease t l
  else if msgType = msgDecline then lookupRelease t l
  else (t, none)

def clientTableLookup (srv : DhcpServer) (mac : Mac) (msgType : UInt8)
    (reqIpAddr serverId : UInt32) : Table × Option Slot :=
  let ours := decide (serverId = 0 ∨ srv.serverIpAddr = serverId)
  let (t, ret) := lookupSwitch srv.clients (scanClients srv.clients mac reqIpAddr) msgType ours
  match ret with
  | some i => (modify t i (setMac mac), some i)
  | none => (t, none)

/-! ## The state machine -/

def cleanClientHistory (t : Table) (mac : Mac) : Table := fun i =>
  if (t i).state = .idle ∧ (t i).macAddr = mac then { t i with macAddr := zeroMac } else t i

def offerClient (c : DhcpClient) : DhcpClient :=
  { c with timeout := defaultTimeout, state := .request }

def ackClient (c : DhcpClient) : DhcpClient :=
  { c with lease := defaultLeaseTime, state := .bind }

/-- `_DhcpClientSMEHandle`: the case IDLE falls through to the case SELECT
unless it acknowledges a REQUEST. -/
def dhcpClientSMEHandle (t : Table) (i : Slot) (msgType : UInt8) (xid : UInt32) :
    Table × Reply :=
  let c := t i
  let ack := (cleanClientHistory (modify t i ackClient) c.macAddr, Reply.ack c.ipAddr c.macAddr xid)
  let offer := fun t => (modify t i offerClient, Reply.offer c.ipAddr c.macAddr xid)
  match c.state with
  | .idle =>
    if msgType = msgDiscover then offer (modify t i fun c => { c with state := .select })
    else if msgType = msgRequest then ack
    else offer t
  | .select => offer t
  | .request => ack
  | .bind => ack

/-- The part of `DHCPS_RecvCb` after the options are parsed. -/
def handleMessage (srv : DhcpServer) (mac : Mac) (msgType : UInt8)
    (reqIpAddr serverId xid : UInt32) : DhcpServer × Option Reply :=
  match clientTableLookup srv mac msgType reqIpAddr serverId with
  | (t, none) =>
    ({ srv with clients := t },
      if msgType ≠ msgRelease ∧ msgType ≠ msgDecline then some (.nak mac xid) else none)
  | (t, some i) =>
    let (t, reply) := dhcpClientSMEHandle t i msgType xid
    ({ srv with clients := t }, some reply)

/-! ## The tick and the delete call -/

def tickRequest (c : DhcpClient) : DhcpClient :=
  if c.timeout ≠ 0 then
    let d := { c with timeout := c.timeout - 1 }
    if d.timeout = 0 then { d with macAddr := zeroMac, state := .idle } else d
  else c

def tickBind (ap : UInt8) (c : DhcpClient) : DhcpClient :=
  -- the lease counts down also when the station status decides
  let d := { c with lease := if c.lease ≠ 0 then c.lease - 1 else 0 }
  if c.lease ≠ 0 ∧ d.lease = 0 then goIdle d
  else if ap = 0 then goIdle d
  else d

/-- One turn of the loop of `_DhcpTickHandle`; `ap` is what
`APGetStationStatus` answers for the entry. -/
def tickClient (ap : UInt8) (c : DhcpClient) : DhcpClient :=
  match c.state with
  | .request => tickRequest c
  | .bind => tickBind ap c
  | .idle | .select => c

def dhcpTickHandle (srv : DhcpServer) (ap : Slot → UInt8) : DhcpServer :=
  if srv.enable then { srv with clients := fun i => tickClient (ap i) (srv.clients i) } else srv

def errSuccess : Int := 0
def errLinkdown : Int := -1
def errParam : Int := -2
def errMem : Int := -3
def errNotBind : Int := -4
def errNotFound : Int := -5
def errInactive : Int := -6

/-- `DHCPS_ClientDelete`: the first entry that is not idle and holds `mac`
decides. -/
def dhcpsClientDelete (srv : DhcpServer) (mac : Option Mac) : DhcpServer × Int :=
  if srv.enable = false then (srv, errInactive)
  else match mac with
  | none => (srv, errParam)
  | some mac =>
    match (List.finRange historyClientNum).find? fun i =>
        (srv.clients i).state ≠ .idle ∧ (srv.clients i).macAddr = mac with
    | none => (srv, errNotFound)
    | some i =>
      if (srv.clients i).state ≠ .bind then (srv, errNotBind)
      else ({ srv with clients := modify srv.clients i goIdle }, errSuccess)

/-! ## Starting and stopping the server -/

/-- `htonl` and `ntohl` of a little-endian core. -/
def htonl (x : UInt32) : UInt32 :=
  (x <<< 24) ||| ((x &&& (0xff00 : UInt32)) <<< 8) ||| ((x >>> 8) &&& (0xff00 : UInt32)) ||| (x >>> 24)

structure Netif where
  isUp : Bool
  ipAddr : UInt32
  netmask : UInt32

/-- `(x % m) ? (x % m) : 1`, undefined for `m = 0`. -/
def modOrOne (x m : UInt32) : Option UInt32 :=
  if m = 0 then none else some (if x % m ≠ 0 then x % m else 1)

/-- The address of the entry `i`, in network order. -/
def poolAddr (startIpAddr mask : UInt32) (i : Slot) : Option UInt32 :=
  let val := htonl startIpAddr
  (modOrOne ((val &&& ~~~mask) + UInt32.ofNat i.val) (~~~mask)).map fun tmp =>
    htonl ((val &&& mask) ||| tmp)

/-- `DHCPS_Start`; `udpNew` is the answer of `udp_new`. A division by zero
has no result. -/
def dhcpsStart (srv : DhcpServer) (netif : Netif) (udpNew : Option Nat) :
    Option (DhcpServer × Int) :=
  if netif.isUp = false then some (srv, errLinkdown)
  else
    let val := htonl netif.ipAddr
    let mask := htonl netif.netmask
    (modOrOne ((val &&& ~~~mask) + 1) (~~~mask)).bind fun tmp =>
    let startIp := htonl ((val &&& mask) ||| tmp)
    if (List.finRange historyClientNum).all fun i => (poolAddr startIp mask i).isSome then
      some
        ({ enable := udpNew.isSome
           socket := udpNew
           serverIpAddr := netif.ipAddr
           startIpAddr := startIp
           subnetMask := netif.netmask
           gateWay := netif.ipAddr
           dns1 := netif.ipAddr
           dns2 := 0
           leaseTime := defaultLeaseTime
           clients := fun i =>
             { state := .idle
               timeout := 0
               ipAddr := (poolAddr startIp mask i).getD 0
               macAddr := zeroMac
               lease := defaultLeaseTime } },
         if udpNew.isSome then errSuccess else errMem)
    else none

def DhcpServer.zero : DhcpServer where
  enable := false
  socket := none
  serverIpAddr := 0
  startIpAddr := 0
  subnetMask := 0
  gateWay := 0
  dns1 := 0
  dns2 := 0
  leaseTime := 0
  clients := fun _ => { state := .idle, timeout := 0, ipAddr := 0, macAddr := zeroMac, lease := 0 }

/-- `DHCPS_Stop`, with the pointer that `udp_remove` gets. -/
def dhcpsStop (srv : DhcpServer) : DhcpServer × Option Nat := (.zero, srv.socket)

end SerialNet.Dhcp
