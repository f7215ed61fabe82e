import SerialNet.Dhcp.Server
import SerialNet.Lib.Patch

/-!
# DHCP messages

The static `DhcpMsg` with the memory behind it, the option parser, the three
reply builders and the receive callback. Addresses count from the start of
`DhcpMsg`.
-/

namespace SerialNet.Dhcp

open Patch

abbrev Mem := Nat → UInt8

def msgSize : Nat := 548

def opAt : Nat := 0
def htypeAt : Nat := 1
def hlenAt : Nat := 2
def xidAt : Nat := 4
def yiaddrAt : Nat := 16
def siaddrAt : Nat := 20
def chaddrAt : Nat := 28
def magicAt : Nat := 236
def optionsAt : Nat := 240

def dhcpMagic : UInt32 := 0x63825363
def opRequest : UInt8 := 1
def opReply : UInt8 := 2
def hwtypeEthernet : UInt8 := 1

def optionPad : UInt8 := 0
def optionSubnetMask : UInt8 := 1
def optionDefGw : UInt8 := 3
def optionDnsServer : UInt8 := 6
def optionReqIpAddr : UInt8 := 50
def optionLeaseTime : UInt8 := 51
def optionMsgType : UInt8 := 53
def optionServerId : UInt8 := 54
def optionEnd : UInt8 := 255

def msgOffer : UInt8 := 2
def msgAck : UInt8 := 5
def msgNak : UInt8 := 6

def wordBytes (x : UInt32) : List UInt8 :=
  [x.toUInt8, (x >>> 8).toUInt8, (x >>> 16).toUInt8, (x >>> 24).toUInt8]

def word (m : Mem) (a : Nat) : UInt32 :=
  (m a).toUInt32 ||| ((m (a + 1)).toUInt32 <<< 8) ||| ((m (a + 2)).toUInt32 <<< 16) ||| ((m (a + 3)).toUInt32 <<< 24)

def macAt (m : Mem) (a : Nat) : Mac := Vector.ofFn fun i => m (a + i.val)

/-! ## The option parser -/

/-- The result of `_ParseDhcpOptions`: its return value and the three outputs.
`reads` lists the addresses it has read. -/
structure Parsed where
  ret : UInt8
  msgType : UInt8
  reqIpAddr : UInt32
  serverId : UInt32
  reads : List Nat
  deriving DecidableEq

def Parsed.start : Parsed := { ret := 0, msgType := 0xff, reqIpAddr := 0, serverId := 0, reads := [] }

/-- The loop body at an option that is no pad. -/
def takeOption (m : Mem) (cur : Nat) (r : Parsed) : Parsed :=
  let r := { r with reads := (cur + 1) :: r.reads }
  if m cur = optionMsgType then
    { r with msgType := m (cur + 2), ret := r.ret ||| 1, reads := (cur + 2) :: r.reads }
  else if m cur = optionReqIpAddr then
    { r with reqIpAddr := word m (cur + 2), ret := r.ret ||| 2, reads := [cur + 2, cur + 3, cur + 4, cur + 5] ++ r.reads }
  else if m cur = optionServerId then
    { r with serverId := word m (cur + 2), ret := r.ret ||| 4, reads := [cur + 2, cur + 3, cur + 4, cur + 5] ++ r.reads }
  else r

/-- The loop of `_ParseDhcpOptions` with the pointer at `cur`. The byte is
read before the pointer is compared with the end. -/
def parseLoop (m : Mem) : Nat → Nat → Parsed → Option Parsed
  | 0, _, _ => none
  | fuel + 1, cur, r =>
    let r := { r with reads := cur :: r.reads }
    if m cur ≠ optionEnd ∧ cur < msgSize then
      if m cur = optionPad then parseLoop m fuel (cur + 1) r
      else parseLoop m fuel (cur + 2 + (m (cur + 1)).toNat) (takeOption m cur r)
    else some r

/-- `_ParseDhcpOptions`. Every turn moves the pointer on, so one turn per byte
of `Options` and one more are enough. -/
def parseDhcpOptions (m : Mem) : Option Parsed := parseLoop m (msgSize - optionsAt + 1) optionsAt Parsed.start

/-! ## Building a reply -/

structure Build where
  mem : Mem
  body : Nat
  len : Nat

def Build.put (b : UInt8) (s : Build) : Build :=
  { s with mem := patch s.mem s.body [b], body := s.body + 1 }

/-- `NST_MOVE_MEM(buffer, &tmp, 4)` and `buffer += 4`. -/
def Build.putWord (x : UInt32) (s : Build) : Build :=
  { s with mem := patch s.mem s.body (wordBytes x), body := s.body + 4 }

def Build.count (n : Nat) (s : Build) : Build := { s with len := s.len + n }

/-- The macros that write an option of four bytes. -/
def setOptionWord (id : UInt8) (x : UInt32) (s : Build) : Build := (((s.put id).put 4).putWord x).count 6

def setOptionSubnetMask (mask : UInt32) (s : Build) : Build := setOptionWord optionSubnetMask mask s
def setOptionGw (gw : UInt32) (s : Build) : Build := setOptionWord optionDefGw gw s
def setOptionDns (dns : UInt32) (s : Build) : Build := setOptionWord optionDnsServer dns s
def setOptionServerId (ip : UInt32) (s : Build) : Build := setOptionWord optionServerId ip s
def setOptionLeaseTime (time : UInt32) (s : Build) : Build := setOptionWord optionLeaseTime (htonl time) s

def setOptionMsgType (type : UInt8) (s : Build) : Build := (((s.put optionMsgType).put 1).put type).count 3

def setOptionEnd (s : Build) : Build := (s.put optionEnd).count 1

/-- `memset(pDhcpMsg, 0, sizeof(*pDhcpMsg))`. -/
def clearMsg (m : Mem) : Mem := fun a => if a < msgSize then 0 else m a

/-- The header of a reply, `Len = 240` and `Body = &Options[0]`. -/
def replyHeader (m : Mem) (yiaddr siaddr : UInt32) (mac : Mac) (xid : UInt32) : Build :=
  let m := patch (clearMsg m) opAt [opReply]
  let m := patch m htypeAt [hwtypeEthernet]
  let m := patch m hlenAt [6]
  let m := patch m xidAt (wordBytes (htonl xid))
  let m := patch m yiaddrAt (wordBytes yiaddr)
  let m := patch m siaddrAt (wordBytes siaddr)
  let m := patch m chaddrAt mac.toList
  let m := patch m magicAt (wordBytes (htonl dhcpMagic))
  { mem := m, body := optionsAt, len := 240 }

def dhcpNakGen (srv : DhcpServer) (m : Mem) (mac : Mac) (xid : UInt32) : Build :=
  setOptionEnd (setOptionMsgType msgNak (replyHeader m 0 srv.serverIpAddr mac xid))

/-- `_DHCPAckGenAndSend` and `_DHCPOfferGenAndSend` but for the type. -/
def leaseGen (type : UInt8) (srv : DhcpServer) (m : Mem) (ip : UInt32) (mac : Mac) (xid : UInt32) : Build :=
  let s := setOptionMsgType type (replyHeader m ip 0 mac xid)
  let s := setOptionLeaseTime defaultLeaseTime s
  let s := setOptionServerId srv.serverIpAddr s
  let s := setOptionSubnetMask srv.subnetMask s
  let s := setOptionGw srv.gateWay s
  let s := setOptionDns srv.dns1 s
  setOptionEnd s

def dhcpAckGen : DhcpServer → Mem → UInt32 → Mac → UInt32 → Build := leaseGen msgAck

def dhcpOfferGen : DhcpServer → Mem → UInt32 → Mac → UInt32 → Build := leaseGen msgOffer

def genReply (srv : DhcpServer) (m : Mem) : Reply → Build
  | .offer ip mac xid => dhcpOfferGen srv m ip mac xid
  | .ack ip mac xid => dhcpAckGen srv m ip mac xid
  | .nak mac xid => dhcpNakGen srv m mac xid

/-- `pbuf_take` and `pbuf_realloc`: the bytes that are sent. -/
def Build.sent (s : Build) : List UInt8 := read s.mem 0 s.len

/-! ## The receive callback -/

/-- The server and the memory from `DhcpMsg` on. -/
structure Device where
  srv : DhcpServer
  mem : Mem

/-- `pbuf_copy_partial(P, pDhcpMsg, sizeof(DHCP_MSG), 0)`. -/
def copyPartial (p : List UInt8) (m : Mem) : Mem := patch m 0 (p.take msgSize)

def headerOk (m : Mem) : Prop :=
  m opAt = opRequest ∧ htonl (word m magicAt) = dhcpMagic ∧ m htypeAt = hwtypeEthernet

instance (m : Mem) : Decidable (headerOk m) := inferInstanceAs (Decidable (_ ∧ _ ∧ _))

/-- What the callback takes out of the message. -/
structure Request where
  mac : Mac
  msgType : UInt8
  reqIpAddr : UInt32
  serverId : UInt32
  xid : UInt32
  deriving DecidableEq

/-- The filter and the parser on the copied message. -/
def request (m : Mem) : Option Request :=
  if headerOk m then
    (parseDhcpOptions m).bind fun r =>
      if r.ret &&& 1 = 0 then none
      else some
        { mac := macAt m chaddrAt, msgType := r.msgType, reqIpAddr := r.reqIpAddr, serverId := r.serverId
          xid := htonl (word m xidAt) }
  else none

/-- `DHCPS_RecvCb`; `alloc` is whether `pbuf_alloc` has a buffer for the reply.
Returns the reply that is sent with its bytes. -/
def dhcpsRecvCb (d : Device) (p : List UInt8) (alloc : Bool) : Device × Option (Reply × List UInt8) :=
  let m := copyPartial p d.mem
  if p = [] then ({ d with mem := m }, none)
  else match request m with
  | none => ({ d with mem := m }, none)
  | some q =>
    let (srv, reply) := handleMessage d.srv q.mac q.msgType q.reqIpAddr q.serverId q.xid
    match reply, alloc with
    | some reply, true =>
      let s := genReply d.srv m reply
      ({ srv := srv, mem := s.mem }, some (reply, s.sent))
    | _, _ => ({ srv := srv, mem := m }, none)

end SerialNet.Dhcp
