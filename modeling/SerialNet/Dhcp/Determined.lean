import SerialNet.Dhcp.OptionWalk

/-!
# Packets that decide for themselves

A packet is determined when its own bytes lead through its options and settle
what the lookup uses of them; `takes_determined`: it is handled the same
whatever the memory holds.
-/

namespace SerialNet.Dhcp

open Patch

def limit (p : List UInt8) : Nat := min p.length msgSize

/-- What the lookup uses of the options met at `os` lies below the limit. -/
structure Settled (m : Mem) (lim : Nat) (os : List Nat) : Prop where
  msgType : ∀ o ∈ lastAt m optionMsgType os, o + 2 < lim
  reqIpAddr : ∀ o ∈ lastAt m optionMsgType os, m (o + 2) = msgDiscover ∨ m (o + 2) = msgRequest →
    ∀ a ∈ lastAt m optionReqIpAddr os, a + 6 ≤ lim
  serverId : ∀ o ∈ lastAt m optionMsgType os, m (o + 2) = msgRequest → ∀ a ∈ lastAt m optionServerId os, a + 6 ≤ lim

/-- The packet's own bytes decide: it is empty, or its header fails the test,
or they lead through its options and settle what they say. -/
def Determined (p : List UInt8) : Prop :=
  p = [] ∨ ¬HeaderFits p ∨ ∃ os, Met (packetMem p) (limit p) optionsAt os ∧ Settled (packetMem p) (limit p) os

def Completes (p : List UInt8) (m : Mem) : Prop := ∀ a, a < limit p → m a = packetMem p a

theorem limit_le (p : List UInt8) : limit p ≤ msgSize := Nat.min_le_right ..

theorem completes_copy (p : List UInt8) (m : Mem) : Completes p (copyPartial p m) := by
  intro a ha
  unfold limit at ha
  rw [copyPartial_below (by omega) (by omega), packetMem, List.getElem_eq_getD]

theorem request_none {p : List UInt8} (m : Mem) (hf : ¬HeaderFits p) : request (copyPartial p m) = none := by
  refine if_neg fun hok => hf fun a ha h => ?_
  have hlt := wanted_lt ha
  rw [← (headerOk_iff _).mp hok a ha, copyPartial_below h (by unfold optionsAt at hlt; unfold msgSize; omega)]

section
variable {p : List UInt8} {m m' : Mem} {os : List Nat} {o : Nat}

theorem headerOk_completes (hf : HeaderFits p) (hl : optionsAt < limit p) (hc : Completes p m) : headerOk m := by
  refine (headerOk_iff m).mpr fun a ha => ?_
  have hlt := wanted_lt ha
  unfold limit at hl
  rw [hc a (by unfold limit; omega), packetMem, ← List.getElem_eq_getD (h := by omega)]
  exact hf a ha _

theorem Met.limit_gt (h : Met (packetMem p) (limit p) optionsAt os) : optionsAt < limit p := h.start_lt (by decide)

theorem lastAt_completes (h : Met (packetMem p) (limit p) optionsAt os) (hc : Completes p m) (code : UInt8) :
    lastAt m code os = lastAt (packetMem p) code os :=
  lastAt_congr (fun o ho => hc o (h.lt o ho)) code

theorem request_completes (hf : HeaderFits p) (h : Met (packetMem p) (limit p) optionsAt os) (hc : Completes p m) :
    request m = (lastAt (packetMem p) optionMsgType os).map (requestAt m os) := by
  rw [request_met (headerOk_completes hf h.limit_gt hc) (h.congr hc) (limit_le p), lastAt_completes h hc]

theorem word_completes (hc : Completes p m) {a : Nat} (ha : a + 4 ≤ limit p) : word m a = word (packetMem p) a := by
  simp only [word, hc a (by omega), hc (a + 1) (by omega), hc (a + 2) (by omega), hc (a + 3) (by omega)]

theorem macAt_completes (hc : Completes p m) (hl : optionsAt < limit p) :
    macAt m chaddrAt = macAt (packetMem p) chaddrAt := by
  unfold optionsAt at hl
  refine Vector.ext fun i hi => ?_
  simp only [macAt, Vector.getElem_ofFn]
  exact hc _ (by unfold chaddrAt; omega)

/-- What is taken out of a memory that holds the packet; the addresses may lie
behind the packet. -/
theorem requestAt_completes (h : Met (packetMem p) (limit p) optionsAt os) (hc : Completes p m) (ho : o + 2 < limit p) :
    requestAt m os o =
      { mac := macAt (packetMem p) chaddrAt
        msgType := packetMem p (o + 2)
        reqIpAddr := ((lastAt (packetMem p) optionReqIpAddr os).map fun a => word m (a + 2)).getD 0
        serverId := ((lastAt (packetMem p) optionServerId os).map fun a => word m (a + 2)).getD 0
        xid := htonl (word (packetMem p) xidAt) } := by
  have hl := h.limit_gt
  have hxid : xidAt + 4 ≤ limit p := by
    unfold optionsAt at hl
    unfold xidAt
    omega
  simp only [requestAt, macAt_completes hc hl, hc _ ho, lastAt_completes h hc, word_completes hc hxid]

/-- An address option that lies in the packet says what the packet says. -/
theorem value_completes (hc : Completes p m) {code : UInt8} (hs : ∀ a ∈ lastAt (packetMem p) code os, a + 6 ≤ limit p) :
    ((lastAt (packetMem p) code os).map fun a => word m (a + 2)).getD 0 =
      ((lastAt (packetMem p) code os).map fun a => word (packetMem p) (a + 2)).getD 0 := by
  cases ha : lastAt (packetMem p) code os with
  | none => rfl
  | some a => exact word_completes hc (hs a ha)

end

/-! ## What the lookup uses of a request -/

section
variable {srv : DhcpServer} {t : Table} {mac : Mac} {ip ip' sid sid' : UInt32}

theorem foldl_my : ∀ (is : List Slot) (l l' : Scan), l.pMyClient = l'.pMyClient →
    (is.foldl (scanClient t mac ip) l).pMyClient = (is.foldl (scanClient t mac ip') l').pMyClient
  | [], _, _, h => h
  | i :: is, l, l', h => by
    refine foldl_my is _ _ ?_
    simp only [scanClient]
    split
    · exact h
    · split
      · rfl
      · (repeat' split) <;> exact h

/-- The client's active entry does not depend on the requested address. -/
theorem scan_my (t : Table) (mac : Mac) (ip ip' : UInt32) :
    (scanClients t mac ip).pMyClient = (scanClients t mac ip').pMyClient :=
  foldl_my _ _ _ rfl

/-- The requested address counts in a DISCOVER or REQUEST, the server id in a
REQUEST. -/
theorem lookup_congr {msgType : UInt8} (hip : msgType = msgDiscover ∨ msgType = msgRequest → ip = ip')
    (hsid : msgType = msgRequest → sid = sid') :
    lookupSwitch t (scanClients t mac ip) msgType (decide (sid = 0 ∨ srv.serverIpAddr = sid)) =
      lookupSwitch t (scanClients t mac ip') msgType (decide (sid' = 0 ∨ srv.serverIpAddr = sid')) := by
  unfold lookupSwitch
  by_cases h1 : msgType = msgDiscover
  · rw [if_pos h1, if_pos h1, hip (.inl h1)]
  rw [if_neg h1, if_neg h1]
  by_cases h2 : msgType = msgRequest
  · rw [if_pos h2, if_pos h2, hip (.inr h2), hsid h2]
  rw [if_neg h2, if_neg h2, lookupRelease, lookupRelease, scan_my t mac ip ip']

theorem handleMessage_srv (srv : DhcpServer) (mac : Mac) (msgType : UInt8) (ip sid xid : UInt32) :
    (handleMessage srv mac msgType ip sid xid).1 =
      { srv with clients := (handleMessage srv mac msgType ip sid xid).1.clients } := by
  unfold handleMessage
  split <;> rfl

/-- Requests that differ only in what their type does not use. -/
theorem handle_congr {q q' : Request} (hmac : q.mac = q'.mac) (htype : q.msgType = q'.msgType) (hxid : q.xid = q'.xid)
    (hip : q.msgType = msgDiscover ∨ q.msgType = msgRequest → q.reqIpAddr = q'.reqIpAddr)
    (hsid : q.msgType = msgRequest → q.serverId = q'.serverId) : q.handle srv = q'.handle srv := by
  have hl := @lookup_congr srv srv.clients q.mac _ _ _ _ q.msgType hip hsid
  have hclients : (q.handle srv).1.clients = (q'.handle srv).1.clients := by
    rw [Request.handle, Request.handle, handleMessage_clients, handleMessage_clients, hl, hmac, htype, hxid]
  have hreply : (q.handle srv).2 = (q'.handle srv).2 := by
    rw [Request.handle, Request.handle, handleMessage_reply, handleMessage_reply, hl, hmac, htype, hxid]
  refine Prod.ext ?_ hreply
  rw [Request.handle, handleMessage_srv, ← Request.handle, hclients, Request.handle, ← handleMessage_srv]

end

/-! ## Replies forget the buffer -/

theorem patch_agree {m m' : Mem} {a x : Nat} (l : List UInt8) (h : m x = m' x) : patch m a l x = patch m' a l x := by
  by_cases hx : x < a ∨ a + l.length ≤ x
  · rw [patch_outside hx, patch_outside hx, h]
  · have hi : x - a < l.length := by omega
    have he := patch_inside (m := m) (a := a) hi
    have he' := patch_inside (m := m') (a := a) hi
    rw [show a + (x - a) = x by omega] at he he'
    rw [he, he']

theorem genReply_agree (srv : DhcpServer) (m m' : Mem) (reply : Reply) {x : Nat} (h : x < msgSize) :
    (genReply srv m reply).mem x = (genReply srv m' reply).mem x := by
  have hheader (yiaddr siaddr : UInt32) (mac : Mac) (xid : UInt32) :
      (replyHeader m yiaddr siaddr mac xid).mem x = (replyHeader m' yiaddr siaddr mac xid).mem x := by
    simp only [replyHeader]
    iterate 8 apply patch_agree
    simp [clearMsg, h]
  have hw := genReply_wrote srv m reply
  have hw' := genReply_wrote srv m' reply
  have hbody : (headerOf srv m reply).body = (headerOf srv m' reply).body := by cases reply <;> rfl
  rw [hw.mem, hw'.mem, hbody]
  apply patch_agree
  cases reply <;> exact hheader _ _ _ _

theorem genReply_len (srv : DhcpServer) (m m' : Mem) (reply : Reply) :
    (genReply srv m reply).len = (genReply srv m' reply).len := by
  rw [(genReply_wrote srv m reply).len, (genReply_wrote srv m' reply).len]
  cases reply <;> rfl

theorem genReply_sent (srv : DhcpServer) (m m' : Mem) (reply : Reply) :
    (genReply srv m reply).sent = (genReply srv m' reply).sent := by
  rw [Build.sent, Build.sent, genReply_len srv m m']
  exact read_congr fun i hi => by
    have := (replyOk srv m' reply).fits
    exact genReply_agree srv m m' reply (by omega)

/-- The outcome depends on the server and on how it handles the request. -/
theorem recvCb_congr {d d' : Device} (hsrv : d.srv = d'.srv) {p : List UInt8}
    (hq : (d.takes p).map (Request.handle · d.srv) = (d'.takes p).map (Request.handle · d'.srv)) (alloc : Bool) :
    (dhcpsRecvCb d p alloc).2 = (dhcpsRecvCb d' p alloc).2 ∧
      (dhcpsRecvCb d p alloc).1.srv = (dhcpsRecvCb d' p alloc).1.srv := by
  unfold Device.takes at hq
  unfold dhcpsRecvCb
  by_cases hp : p = []
  · simp only [if_pos hp, hsrv, and_self]
  simp only [if_neg hp] at hq ⊢
  cases h : request (copyPartial p d.mem) with
  | none =>
    rw [h, Option.map_none, eq_comm, Option.map_eq_none_iff] at hq
    simp only [hq, hsrv, and_self]
  | some q =>
    rw [h, Option.map_some, eq_comm, Option.map_eq_some_iff] at hq
    obtain ⟨q', h', hq⟩ := hq
    simp only [Request.handle] at hq
    simp only [h', hq]
    cases (handleMessage d.srv q.mac q.msgType q.reqIpAddr q.serverId q.xid).2 with
    | none => exact ⟨rfl, rfl⟩
    | some reply =>
      cases alloc with
      | false => exact ⟨rfl, rfl⟩
      | true => simp only [hsrv, genReply_sent d'.srv (copyPartial p d.mem) (copyPartial p d'.mem), and_self]

theorem takes_determined {p : List UInt8} (hp : Determined p) (srv : DhcpServer) (m m' : Mem) :
    (Device.takes { srv := srv, mem := m } p).map (Request.handle · srv) =
      (Device.takes { srv := srv, mem := m' } p).map (Request.handle · srv) := by
  unfold Device.takes
  by_cases hne : p = []
  · rw [if_pos hne, if_pos hne]
  rw [if_neg hne, if_neg hne]
  rcases hp with hp | hf | ⟨os, hmet, hs⟩
  · exact absurd hp hne
  · rw [request_none _ hf, request_none _ hf]
  by_cases hf : HeaderFits p
  swap
  · rw [request_none _ hf, request_none _ hf]
  have hc := completes_copy p m
  have hc' := completes_copy p m'
  rw [request_completes hf hmet hc, request_completes hf hmet hc']
  cases ho : lastAt (packetMem p) optionMsgType os with
  | none => rfl
  | some o =>
    have ht := hs.msgType o ho
    simp only [Option.map_some, requestAt_completes hmet hc ht, requestAt_completes hmet hc' ht]
    refine congrArg some (handle_congr rfl rfl rfl (fun h => ?_) fun h => ?_)
    · have hv := hs.reqIpAddr o ho h
      exact (value_completes hc hv).trans (value_completes hc' hv).symm
    · have hv := hs.serverId o ho h
      exact (value_completes hc hv).trans (value_completes hc' hv).symm

end SerialNet.Dhcp
