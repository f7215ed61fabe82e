import SerialNet.Dhcp.Lookup
import SerialNet.Dhcp.Options
import SerialNet.Dhcp.Pool
import Mathlib.Data.List.GetD

/-!
# The device

What happens to the server and to the memory from `DhcpMsg` on, what the
callback takes out of a packet, and the packets that say it themselves: a
well-formed BOOTREQUEST has a header that passes, and options that are items
and an END.
-/

namespace SerialNet.Dhcp

open Patch Run

/-- What happens to the device. The variables behind `DhcpMsg` change with the rest of the program. -/
inductive DevOp
  | recv (p : List UInt8) (alloc : Bool)
  | tick (ap : Slot → UInt8)
  | clientDelete (mac : Option Mac)
  | elsewhere (mem : Mem)

def devStep (d : Device) : DevOp → Device
  | .recv p alloc => (dhcpsRecvCb d p alloc).1
  | .tick ap => { d with srv := dhcpTickHandle d.srv ap }
  | .clientDelete mac => { d with srv := (dhcpsClientDelete d.srv mac).1 }
  | .elsewhere mem => { d with mem := fun a => if a < msgSize then d.mem a else mem a }

/-- What the callback takes out of the packet `p`. -/
def Device.takes (d : Device) (p : List UInt8) : Option Request :=
  if p = [] then none else request (copyPartial p d.mem)

def Request.handle (q : Request) (srv : DhcpServer) : DhcpServer × Option Reply :=
  handleMessage srv q.mac q.msgType q.reqIpAddr q.serverId q.xid

/-- The reply that `DHCPS_RecvCb` sends, without its bytes. -/
def sentReply (d : Device) (p : List UInt8) (alloc : Bool) : Option Reply := (dhcpsRecvCb d p alloc).2.map Prod.fst

section
variable {d : Device} {p : List UInt8}

theorem recvCb_none (h : d.takes p = none) (alloc : Bool) :
    (dhcpsRecvCb d p alloc).1.srv = d.srv ∧ (dhcpsRecvCb d p alloc).2 = none := by
  unfold Device.takes at h
  unfold dhcpsRecvCb
  split at h
  · rename_i hp
    rw [if_pos hp]
    exact ⟨rfl, rfl⟩
  · rename_i hp
    simp only [if_neg hp, h, and_self]

/-- The server handles the request; its reply is sent if there is a buffer for it. -/
theorem recvCb_some {q : Request} (h : d.takes p = some q) (alloc : Bool) :
    (dhcpsRecvCb d p alloc).1.srv = (q.handle d.srv).1 ∧
      sentReply d p alloc = if alloc then (q.handle d.srv).2 else none := by
  unfold Device.takes at h
  unfold sentReply dhcpsRecvCb Request.handle
  split at h
  · cases h
  · rename_i hp
    simp only [if_neg hp, h]
    cases (handleMessage d.srv q.mac q.msgType q.reqIpAddr q.serverId q.xid).2 <;> cases alloc <;> exact ⟨rfl, rfl⟩

end

def served (d : Device) : DevOp → Option Op
  | .recv p _ => (d.takes p).map fun q => .message q.mac q.msgType q.reqIpAddr q.serverId q.xid
  | .tick ap => some (.tick ap)
  | .clientDelete mac => some (.clientDelete mac)
  | .elsewhere _ => none

theorem devStep_srv (d : Device) (op : DevOp) : (devStep d op).srv = ((served d op).map (step d.srv)).getD d.srv := by
  cases op with
  | recv p alloc =>
    rw [devStep, served]
    cases h : d.takes p with
    | none => exact (recvCb_none h alloc).1
    | some q => exact (recvCb_some h alloc).1
  | tick ap => rfl
  | clientDelete mac => rfl
  | elsewhere mem => rfl

/-! ## The copied packet -/

theorem copyPartial_above (p : List UInt8) (m : Mem) {a : Nat} (h : p.length ≤ a ∨ msgSize ≤ a) :
    copyPartial p m a = m a := by
  apply patch_above
  rw [List.length_take]
  omega

theorem copyPartial_below {p : List UInt8} {m : Mem} {a : Nat} (h : a < p.length) (hs : a < msgSize) :
    copyPartial p m a = p[a] := by
  have := patch_inside (m := m) (a := 0) (l := p.take msgSize) (i := a) (by rw [List.length_take]; omega)
  rw [Nat.zero_add] at this
  rw [copyPartial, this, List.getElem_take]

def wanted (a : Nat) : Option UInt8 :=
  if a = opAt then some opRequest
  else if a = htypeAt then some hwtypeEthernet
  else if a = magicAt then some 0x63
  else if a = magicAt + 1 then some 0x82
  else if a = magicAt + 2 then some 0x53
  else if a = magicAt + 3 then some 0x63
  else none

def HeaderFits (p : List UInt8) : Prop := ∀ a ∈ [opAt, htypeAt, magicAt, magicAt + 1, magicAt + 2, magicAt + 3],
  ∀ h : a < p.length, some p[a] = wanted a

instance (p : List UInt8) : Decidable (HeaderFits p) := inferInstanceAs (Decidable (∀ a ∈ _, _))

theorem wordBytes_word (m : Mem) (a : Nat) : wordBytes (word m a) = [m a, m (a + 1), m (a + 2), m (a + 3)] := by
  simp only [wordBytes, List.cons.injEq, and_true]
  refine ⟨?_, ?_, ?_, ?_⟩ <;>
  · apply UInt8.toBitVec_inj.mp
    apply BitVec.eq_of_getLsbD_eq
    intro i hi
    simp only [word, UInt32.toBitVec_toUInt8, UInt32.toBitVec_or, UInt32.toBitVec_shiftLeft, UInt32.toBitVec_shiftRight,
      UInt8.toBitVec_toUInt32]
    interval_cases i <;> simp

theorem headerOk_iff (m : Mem) : headerOk m ↔
    ∀ a ∈ [opAt, htypeAt, magicAt, magicAt + 1, magicAt + 2, magicAt + 3], some (m a) = wanted a := by
  have hmagic : htonl (word m magicAt) = dhcpMagic ↔
      m magicAt = 0x63 ∧ m (magicAt + 1) = 0x82 ∧ m (magicAt + 2) = 0x53 ∧ m (magicAt + 3) = 0x63 := by
    constructor
    · intro h
      have hb := wordBytes_word m magicAt
      have hbytes : wordBytes (htonl dhcpMagic) = [0x63, 0x82, 0x53, 0x63] := by decide
      rw [← htonl_htonl (word m magicAt), h, hbytes] at hb
      simpa [eq_comm] using hb
    · rintro ⟨h0, h1, h2, h3⟩
      rw [word, h0, h1, h2, h3]
      decide
  simp only [headerOk, hmagic, wanted, List.forall_mem_cons, List.not_mem_nil]
  simp [opAt, htypeAt, magicAt, opRequest, hwtypeEthernet]
  tauto

def packetMem (p : List UInt8) : Mem := fun a => p.getD a 0

theorem wanted_lt {a : Nat} (ha : a ∈ [opAt, htypeAt, magicAt, magicAt + 1, magicAt + 2, magicAt + 3]) :
    a < optionsAt := by
  simp only [opAt, htypeAt, magicAt, List.mem_cons, List.not_mem_nil, or_false] at ha
  unfold optionsAt
  omega

/-! ## Well-formed requests -/

theorem or_one_and (x : UInt8) : (x ||| 1) &&& 1 = 1 := by
  apply UInt8.toBitVec_inj.mp
  rw [UInt8.toBitVec_and, UInt8.toBitVec_or, BitVec.and_or_distrib_right, BitVec.and_self]
  apply BitVec.eq_of_getLsbD_eq
  intro i hi
  simp

/-- A packet that is a BOOTREQUEST with these options. -/
structure BootRequest where
  packet : List UInt8
  items : List Item
  header : HeaderFits packet
  options : Holds (packetMem packet) optionsAt (encode items ++ [optionEnd])
  fits : optionsAt + (encode items).length < min packet.length msgSize
  typed : (lastValue optionMsgType items).isSome = true

namespace BootRequest

def mac (b : BootRequest) : Mac := macAt (packetMem b.packet) chaddrAt
def xid (b : BootRequest) : UInt32 := htonl (word (packetMem b.packet) xidAt)
def msgType (b : BootRequest) : UInt8 := ((lastValue optionMsgType b.items).map fun v => v.headD 0).getD 0xff
def reqIpAddr (b : BootRequest) : Option UInt32 := (lastValue optionReqIpAddr b.items).map bytesWord
def serverId (b : BootRequest) : Option UInt32 := (lastValue optionServerId b.items).map bytesWord

theorem request_eq (b : BootRequest) (m : Mem) : request (copyPartial b.packet m) =
    some { mac := b.mac, msgType := b.msgType, reqIpAddr := b.reqIpAddr.getD 0, serverId := b.serverId.getD 0, xid := b.xid } := by
  have hfit := b.fits
  have hcopy {a : Nat} (ha : a ≤ optionsAt + (encode b.items).length) :
      copyPartial b.packet m a = packetMem b.packet a := by
    rw [copyPartial_below (by omega) (by omega), packetMem, List.getElem_eq_getD]
  obtain ⟨mem, hmem⟩ : ∃ mem, copyPartial b.packet m = mem := ⟨_, rfl⟩
  rw [hmem] at hcopy ⊢
  have hlow {a : Nat} (ha : a < optionsAt) : mem a = packetMem b.packet a := hcopy (by omega)
  have hok : headerOk mem := by
    refine (headerOk_iff mem).mpr fun a ha => ?_
    have hlt := wanted_lt ha
    rw [hlow hlt, packetMem, ← List.getElem_eq_getD (h := by omega)]
    exact b.header a ha _
  have harea : Area mem b.items := by
    refine ⟨fun i hi => ?_, by omega⟩
    rw [← b.options i hi]
    rw [List.length_append, List.length_singleton] at hi
    exact hcopy (by omega)
  obtain ⟨r, hr, hs⟩ := parse_area harea
  have hret : r.ret &&& 1 ≠ 0 := by
    rw [hs.ret, presence, if_pos b.typed]
    intro h
    have h1 : (1 ||| (presence b.items optionReqIpAddr 2 ||| presence b.items optionServerId 4) : UInt8) &&& 1 = 1 := by
      rw [UInt8.or_comm, or_one_and]
    rw [UInt8.or_assoc, h1] at h
    cases h
  have hmac : macAt mem chaddrAt = b.mac := by
    refine Vector.ext fun i hi => ?_
    simp only [mac, macAt, Vector.getElem_ofFn]
    exact hlow (by unfold chaddrAt optionsAt; omega)
  have hxid : word mem xidAt = word (packetMem b.packet) xidAt := by
    simp only [word, hlow (a := xidAt) (by decide), hlow (a := xidAt + 1) (by decide), hlow (a := xidAt + 2) (by decide),
      hlow (a := xidAt + 3) (by decide)]
  simp only [request, if_pos hok, hr, Option.bind_some, if_neg hret, hmac, hxid, hs.msgType, hs.reqIpAddr, hs.serverId]
  rfl

theorem packet_ne (b : BootRequest) : b.packet ≠ [] := by
  intro h
  have := b.fits
  rw [h, List.length_nil] at this
  omega

def request (b : BootRequest) : Request where
  mac := b.mac
  msgType := b.msgType
  reqIpAddr := b.reqIpAddr.getD 0
  serverId := b.serverId.getD 0
  xid := b.xid

theorem takes_boot (d : Device) (b : BootRequest) : d.takes b.packet = some b.request := by
  rw [Device.takes, if_neg b.packet_ne, b.request_eq]
  rfl

end BootRequest

/-! ## A packet for every request -/

theorem packetMem_left {l r : List UInt8} {a : Nat} (h : a < l.length) : packetMem (l ++ r) a = packetMem l a :=
  List.getD_append l r 0 a h

theorem packetMem_right {l : List UInt8} {a : Nat} (h : l.length = a) (r : List UInt8) : Holds (packetMem (l ++ r)) a r := by
  intro i hi
  rw [packetMem, List.getD_append_right l r 0 _ (by omega), ← h, Nat.add_sub_cancel_left, ← List.getElem_eq_getD]

def bootHead : List UInt8 := [opRequest, hwtypeEthernet, 6, 0, 0, 0, 0, 1] ++ List.replicate 20 0

def bootFields (mac : Mac) : List UInt8 := bootHead ++ (mac.toList ++ List.replicate 202 0)

theorem bootFields_length (mac : Mac) : (bootFields mac).length = magicAt := by
  simp only [bootFields, bootHead, List.length_append, List.length_replicate, List.length_cons, List.length_nil,
    Vector.length_toList]
  rfl

def bootMagic : List UInt8 := [0x63, 0x82, 0x53, 0x63]

theorem bootFields_magic (mac : Mac) : (bootFields mac ++ bootMagic).length = optionsAt := by
  rw [List.length_append, bootFields_length]
  rfl

def bootOf (mac : Mac) (items : List Item) (hfit : optionsAt + (encode items).length < msgSize)
    (ht : (lastValue optionMsgType items).isSome = true) : BootRequest where
  packet := bootFields mac ++ bootMagic ++ (encode items ++ [optionEnd])
  items := items
  header := by
    intro a ha h
    rw [List.getElem_eq_getD 0]
    change some (packetMem _ a) = wanted a
    rw [packetMem_left (bootFields_magic mac ▸ wanted_lt ha)]
    have hmagic := packetMem_right (bootFields_length mac) bootMagic
    simp only [List.mem_cons, List.not_mem_nil, or_false] at ha
    rcases ha with rfl | rfl | rfl | rfl | rfl | rfl
    · rfl
    · rfl
    · exact congrArg some (hmagic 0 (by decide))
    · exact congrArg some (hmagic 1 (by decide))
    · exact congrArg some (hmagic 2 (by decide))
    · exact congrArg some (hmagic 3 (by decide))
  options := packetMem_right (bootFields_magic mac) _
  fits := by
    rw [List.length_append, bootFields_magic, List.length_append, List.length_singleton]
    omega
  typed := ht

theorem bootOf_mac (mac : Mac) (items : List Item) (hfit : optionsAt + (encode items).length < msgSize)
    (ht : (lastValue optionMsgType items).isSome = true) : (bootOf mac items hfit ht).mac = mac := by
  have hmac : Holds (packetMem (bootFields mac ++ bootMagic ++ (encode items ++ [optionEnd]))) chaddrAt mac.toList := by
    have h := packetMem_right (show bootHead.length = chaddrAt by decide)
      (mac.toList ++ (List.replicate 202 0 ++ (bootMagic ++ (encode items ++ [optionEnd]))))
    rw [holds_append] at h
    simpa only [bootFields, List.append_assoc] using h.1
  refine Vector.ext fun i hi => ?_
  simp only [BootRequest.mac, macAt, Vector.getElem_ofFn]
  exact hmac i (by simpa using hi)

def sampleBoot (type : UInt8) : BootRequest := bootOf sampleMac [.opt (msgTypeOption type)] (show optionsAt + 3 < msgSize by decide) rfl

end SerialNet.Dhcp
