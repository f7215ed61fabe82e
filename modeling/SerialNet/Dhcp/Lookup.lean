import SerialNet.Dhcp.Invariant

/-!
# What a message gets

`scanClients_eq` reads the pointers of the scan as searches of the table.
`Handled` lists the cases of a message with the table and the reply each of
them leaves; `handled` says that a message is one of them.
-/

namespace SerialNet.Dhcp

/-! ## The scan as searches -/

def slots : List Slot := List.finRange historyClientNum

theorem mem_slots (i : Slot) : i ∈ slots := List.mem_finRange i

def idleWith (t : Table) (P : DhcpClient → Prop) [DecidablePred P] : Option Slot :=
  slots.find? fun i => (t i).state = .idle ∧ P (t i)

def reqEntry (t : Table) (ip : UInt32) : Option Slot := idleWith t fun c => c.ipAddr = ip

def historyEntry (t : Table) (mac : Mac) : Option Slot := idleWith t fun c => c.macAddr = mac

/-- The entry a DISCOVER of a client without an active entry gets. -/
def available (t : Table) (mac : Mac) (ip : UInt32) : Option Slot :=
  reqEntry t ip <|> historyEntry t mac <|> historyEntry t zeroMac <|> idleWith t fun c => c.macAddr ≠ zeroMac

def takenByOther (t : Table) (mac : Mac) (ip : UInt32) : Bool :=
  slots.any fun i => (t i).state ≠ .idle ∧ (t i).macAddr ≠ mac ∧ (t i).ipAddr = ip

section
variable {t : Table} {mac : Mac} {ip : UInt32}

theorem scanClient_idle {l : Scan} {i : Slot} (h : (t i).state = .idle) : scanClient t mac ip l i =
    { l with
      pMyHistoryClient := l.pMyHistoryClient.or (if (t i).macAddr = mac then some i else none)
      pReqClient := l.pReqClient.or (if (t i).ipAddr = ip then some i else none)
      pFreeClient := l.pFreeClient.or (if (t i).macAddr = zeroMac then some i else none)
      pHistoryClient := l.pHistoryClient.or (if (t i).macAddr ≠ zeroMac then some i else none) } := by
  have first (p : Option Slot) (Q : Prop) [Decidable Q] :
      (if p = none ∧ Q then some i else p) = p.or (if Q then some i else none) := by
    cases p <;> simp
  simp only [scanClient, if_pos h, first]

theorem scanClient_active {l : Scan} {i : Slot} (h : (t i).state ≠ .idle) :
    (scanClient t mac ip l i).pReqClient = l.pReqClient ∧
      (scanClient t mac ip l i).pMyHistoryClient = l.pMyHistoryClient ∧
      (scanClient t mac ip l i).pFreeClient = l.pFreeClient ∧
      (scanClient t mac ip l i).pHistoryClient = l.pHistoryClient := by
  simp only [scanClient, if_neg h]
  split
  · simp
  · split <;> simp

theorem first_hit (get : Scan → Option Slot) (P : DhcpClient → Prop) [DecidablePred P]
    (hidle : ∀ l i, (t i).state = .idle →
      get (scanClient t mac ip l i) = (get l).or (if P (t i) then some i else none))
    (hactive : ∀ l i, (t i).state ≠ .idle → get (scanClient t mac ip l i) = get l) :
    ∀ (is : List Slot) (l : Scan), get (is.foldl (scanClient t mac ip) l) =
      (get l).or (is.find? fun i => (t i).state = .idle ∧ P (t i))
  | [], l => by simp
  | i :: is, l => by
    rw [List.foldl_cons, first_hit get P hidle hactive is, List.find?_cons]
    by_cases hs : (t i).state = .idle
    · rw [hidle l i hs]
      by_cases hP : P (t i)
      · cases get l <;> simp [hs, hP]
      · simp [hP]
    · rw [hactive l i hs]
      simp [hs]

theorem scan_req : (scanClients t mac ip).pReqClient = idleWith t fun c => c.ipAddr = ip :=
  first_hit (fun l => l.pReqClient) (fun c => c.ipAddr = ip) (fun _ _ h => by rw [scanClient_idle h])
    (fun _ _ h => (scanClient_active h).1) slots {}

theorem scan_myHistory : (scanClients t mac ip).pMyHistoryClient = idleWith t fun c => c.macAddr = mac :=
  first_hit (fun l => l.pMyHistoryClient) (fun c => c.macAddr = mac) (fun _ _ h => by rw [scanClient_idle h])
    (fun _ _ h => (scanClient_active h).2.1) slots {}

theorem scan_free : (scanClients t mac ip).pFreeClient = idleWith t fun c => c.macAddr = zeroMac :=
  first_hit (fun l => l.pFreeClient) (fun c => c.macAddr = zeroMac) (fun _ _ h => by rw [scanClient_idle h])
    (fun _ _ h => (scanClient_active h).2.2.1) slots {}

theorem scan_history : (scanClients t mac ip).pHistoryClient = idleWith t fun c => c.macAddr ≠ zeroMac :=
  first_hit (fun l => l.pHistoryClient) (fun c => c.macAddr ≠ zeroMac) (fun _ _ h => by rw [scanClient_idle h])
    (fun _ _ h => (scanClient_active h).2.2.2) slots {}

theorem foldl_unavailable : ∀ (is : List Slot) (l : Scan),
    (is.foldl (scanClient t mac ip) l).ipUnavailable =
      (l.ipUnavailable || is.any fun i => (t i).state ≠ .idle ∧ (t i).macAddr ≠ mac ∧ (t i).ipAddr = ip)
  | [], l => by simp
  | i :: is, l => by
    rw [List.foldl_cons, foldl_unavailable is, List.any_cons, ← Bool.or_assoc]
    congr 1
    simp only [scanClient]
    split <;> rename_i hs
    · simp [hs]
    · split <;> rename_i hm
      · simp [hm]
      · split <;> rename_i hp <;> simp [hs, hm, hp]

theorem scan_unavailable : (scanClients t mac ip).ipUnavailable = takenByOther t mac ip := by
  simpa [scanClients, takenByOther, slots] using @foldl_unavailable t mac ip slots {}

end

theorem idleWith_some {t : Table} {P : DhcpClient → Prop} [DecidablePred P] {i : Slot} (h : idleWith t P = some i) :
    (t i).state = .idle ∧ P (t i) := by
  simpa using List.find?_some h

theorem idleWith_none {t : Table} {P : DhcpClient → Prop} [DecidablePred P] :
    idleWith t P = none ↔ ∀ i, (t i).state = .idle → ¬P (t i) := by
  simp [idleWith, mem_slots]

theorem available_idle {t : Table} {mac : Mac} {ip : UInt32} {i : Slot} (h : available t mac ip = some i) :
    (t i).state = .idle := by
  rcases mem_orElse h with h | h | h | h <;> exact (idleWith_some h).1

theorem available_none {t : Table} {mac : Mac} {ip : UInt32} : available t mac ip = none ↔ ∀ i, Active (t i) := by
  have hn : available t mac ip = none ↔ reqEntry t ip = none ∧ historyEntry t mac = none ∧
      historyEntry t zeroMac = none ∧ idleWith t (fun c => c.macAddr ≠ zeroMac) = none := by
    unfold available
    cases reqEntry t ip <;> cases historyEntry t mac <;> cases historyEntry t zeroMac <;> simp
  rw [hn]
  simp only [reqEntry, historyEntry, idleWith_none]
  constructor
  · rintro ⟨_, _, hf, ha⟩ i hi
    exact ha i hi (hf i hi)
  · intro ha
    exact ⟨fun i hi => absurd hi (ha i), fun i hi => absurd hi (ha i), fun i hi => absurd hi (ha i),
      fun i hi => absurd hi (ha i)⟩

/-! ## The cases of a message -/

def Mine (t : Table) (mac : Mac) (i : Slot) : Prop := Active (t i) ∧ (t i).macAddr = mac

def Stranger (t : Table) (mac : Mac) : Prop := ∀ i, ¬Mine t mac i

def Ours (srv : DhcpServer) (sid : UInt32) : Prop := sid = 0 ∨ srv.serverIpAddr = sid

instance (t : Table) (mac : Mac) (i : Slot) : Decidable (Mine t mac i) := inferInstanceAs (Decidable (_ ∧ _))
instance (t : Table) (mac : Mac) : Decidable (Stranger t mac) := inferInstanceAs (Decidable (∀ _, _))
instance (srv : DhcpServer) (sid : UInt32) : Decidable (Ours srv sid) := inferInstanceAs (Decidable (_ ∨ _))

theorem uniqueMine {t : Table} (h : LeaseInv t) {m : Mac} {i j : Slot} (hi : Mine t m i) (hj : Mine t m j) : j = i :=
  h.uniqueActive j i hj.1 hi.1 (hj.2.trans hi.2.symm)

section
variable (srv : DhcpServer) (mac : Mac) (ip sid xid : UInt32) (msgType : UInt8)

/-- The table left and the reply of each case. -/
inductive Handled : Table → Option Reply → Prop
  | discoverMove (my req : Slot) : msgType = msgDiscover → Mine srv.clients mac my →
      reqEntry srv.clients ip = some req →
      Handled (offerTo (dropForget srv.clients my) req mac) (some (.offer (srv.clients req).ipAddr mac xid))
  | discoverAgain (my : Slot) : msgType = msgDiscover → Mine srv.clients mac my → reqEntry srv.clients ip = none →
      Handled (offerTo srv.clients my mac) (some (.offer (srv.clients my).ipAddr mac xid))
  | discoverNew (i : Slot) : msgType = msgDiscover → Stranger srv.clients mac →
      available srv.clients mac ip = some i →
      Handled (offerTo srv.clients i mac) (some (.offer (srv.clients i).ipAddr mac xid))
  | discoverFull : msgType = msgDiscover → Stranger srv.clients mac → available srv.clients mac ip = none →
      Handled srv.clients (some (.nak mac xid))
  | requestTaken (my : Slot) : msgType = msgRequest → Mine srv.clients mac my →
      takenByOther srv.clients mac ip = true →
      Handled (drop srv.clients my) (some (.nak mac xid))
  | requestMove (my req : Slot) : msgType = msgRequest → Mine srv.clients mac my →
      takenByOther srv.clients mac ip = false → reqEntry srv.clients ip = some req → Ours srv sid →
      Handled (bindTo (drop srv.clients my) req mac) (some (.ack (srv.clients req).ipAddr mac xid))
  | requestRefuse (my req : Slot) : msgType = msgRequest → Mine srv.clients mac my →
      takenByOther srv.clients mac ip = false → reqEntry srv.clients ip = some req → ¬Ours srv sid →
      Handled (drop srv.clients my) (some (.nak mac xid))
  | requestKeep (my : Slot) : msgType = msgRequest → Mine srv.clients mac my →
      takenByOther srv.clients mac ip = false → reqEntry srv.clients ip = none → Ours srv sid →
      Handled (bindTo srv.clients my mac) (some (.ack (srv.clients my).ipAddr mac xid))
  | requestNone (my : Slot) : msgType = msgRequest → Mine srv.clients mac my →
      takenByOther srv.clients mac ip = false → reqEntry srv.clients ip = none → ¬Ours srv sid →
      Handled srv.clients (some (.nak mac xid))
  | requestNew (req : Slot) : msgType = msgRequest → Stranger srv.clients mac →
      takenByOther srv.clients mac ip = false → reqEntry srv.clients ip = some req → Ours srv sid →
      Handled (bindTo srv.clients req mac) (some (.ack (srv.clients req).ipAddr mac xid))
  | requestNak : msgType = msgRequest → Stranger srv.clients mac →
      (takenByOther srv.clients mac ip = true ∨ reqEntry srv.clients ip = none ∨ ¬Ours srv sid) →
      Handled srv.clients (some (.nak mac xid))
  | release (my : Slot) : msgType = msgRelease ∨ msgType = msgDecline → Mine srv.clients mac my →
      Handled (drop srv.clients my) none
  | releaseNone : msgType = msgRelease ∨ msgType = msgDecline → Stranger srv.clients mac → Handled srv.clients none
  | other : msgType ≠ msgDiscover → msgType ≠ msgRequest → msgType ≠ msgRelease → msgType ≠ msgDecline →
      Handled srv.clients (some (.nak mac xid))

end

def settleReply (mac : Mac) (msgType : UInt8) (xid : UInt32) (r : Table × Option Slot) : Option Reply :=
  match r.2 with
  | some i => some (dhcpClientSMEHandle (modify r.1 i (setMac mac)) i msgType xid).2
  | none => if msgType ≠ msgRelease ∧ msgType ≠ msgDecline then some (.nak mac xid) else none

theorem handleMessage_reply (srv : DhcpServer) (mac : Mac) (msgType : UInt8) (ip sid xid : UInt32) :
    (handleMessage srv mac msgType ip sid xid).2 =
      settleReply mac msgType xid (lookupSwitch srv.clients (scanClients srv.clients mac ip) msgType
        (decide (sid = 0 ∨ srv.serverIpAddr = sid))) := by
  cases h : lookupSwitch srv.clients (scanClients srv.clients mac ip) msgType
      (decide (sid = 0 ∨ srv.serverIpAddr = sid)) with
  | mk t ret =>
    simp only [handleMessage, clientTableLookup, h]
    cases ret <;> rfl

theorem reply_inform (srv : DhcpServer) (mac : Mac) (ip sid xid : UInt32) :
    (handleMessage srv mac 8 ip sid xid).2 = some (.nak mac xid) := by
  rw [handleMessage_reply]
  rfl

theorem reply_release (srv : DhcpServer) (mac : Mac) (ip sid xid : UInt32) :
    (handleMessage srv mac msgRelease ip sid xid).2 = none := by
  rw [handleMessage_reply]
  unfold lookupSwitch lookupRelease
  rw [if_neg (by decide), if_neg (by decide), if_pos rfl]
  cases (scanClients srv.clients mac ip).pMyClient <;> rfl

theorem settleReply_discover {t : Table} {mac : Mac} {i : Slot} (xid : UInt32) (h : (t i).state = .idle) :
    settleReply mac msgDiscover xid (t, some i) = some (.offer (t i).ipAddr mac xid) := by
  simp [settleReply, dhcpClientSMEHandle, setMac, h]

theorem settleReply_request {t : Table} {mac : Mac} {i : Slot} (xid : UInt32) (h : (t i).state ≠ .select) :
    settleReply mac msgRequest xid (t, some i) = some (.ack (t i).ipAddr mac xid) := by
  have hne : msgRequest ≠ msgDiscover := by decide
  cases hs : (t i).state with
  | select => exact absurd hs h
  | idle => simp [settleReply, dhcpClientSMEHandle, setMac, hs, hne]
  | request => simp [settleReply, dhcpClientSMEHandle, setMac, hs]
  | bind => simp [settleReply, dhcpClientSMEHandle, setMac, hs]

section
variable {srv : DhcpServer} {mac : Mac} {ip sid xid : UInt32}

theorem scan_mine {my : Slot} (h : (scanClients srv.clients mac ip).pMyClient = some my) : Mine srv.clients mac my :=
  (scanClients_spec srv.clients mac ip).my my h

theorem scan_stranger (h : (scanClients srv.clients mac ip).pMyClient = none) : Stranger srv.clients mac :=
  fun i hi => (scanClients_spec srv.clients mac ip).noMy h i (List.mem_finRange i) hi.1 hi.2

abbrev HandledBy (srv : DhcpServer) (mac : Mac) (ip sid xid : UInt32) (msgType : UInt8) (r : Table × Option Slot) : Prop :=
  Handled srv mac ip sid xid msgType (settle mac msgType xid r) (settleReply mac msgType xid r)

theorem discover_handled : HandledBy srv mac ip sid xid msgDiscover
    (lookupDiscover srv.clients (scanClients srv.clients mac ip)) := by
  cases hmy : (scanClients srv.clients mac ip).pMyClient with
  | some my =>
    have hmine := scan_mine hmy
    cases hreq : (scanClients srv.clients mac ip).pReqClient with
    | some req =>
      simp only [HandledBy, lookupDiscover, hmy, hreq, forget_goIdle]
      rw [scan_req] at hreq
      have hne : req ≠ my := fun e => hmine.1 (e ▸ (idleWith_some hreq).1)
      have hidle : (dropForget srv.clients my req).state = .idle := by
        rw [dropForget, modify_other _ _ hne]; exact (idleWith_some hreq).1
      rw [settle_discover xid hidle, settleReply_discover xid hidle, dropForget, modify_other _ _ hne]
      exact .discoverMove my req rfl hmine hreq
    | none =>
      simp only [HandledBy, lookupDiscover, hmy, hreq]
      have hidle : (modify srv.clients my goIdle my).state = .idle := by simp [goIdle]
      rw [settle_discover xid hidle, settleReply_discover xid hidle, offerTo_goIdle, modify_self]
      exact .discoverAgain my rfl hmine (scan_req.symm.trans hreq)
  | none =>
    have hnone := scan_stranger hmy
    simp only [HandledBy, lookupDiscover, hmy, scan_req, scan_myHistory, scan_free, scan_history]
    change Handled srv mac ip sid xid msgDiscover (settle mac msgDiscover xid (srv.clients, available srv.clients mac ip))
      (settleReply mac msgDiscover xid (srv.clients, available srv.clients mac ip))
    cases hav : available srv.clients mac ip with
    | none => exact .discoverFull rfl hnone hav
    | some i =>
      rw [settle_discover xid (available_idle hav), settleReply_discover xid (available_idle hav)]
      exact .discoverNew i rfl hnone hav

theorem request_handled (hD : NoSelect srv.clients) : HandledBy srv mac ip sid xid msgRequest
    (lookupRequest srv.clients (scanClients srv.clients mac ip) (decide (Ours srv sid))) := by
  cases hmy : (scanClients srv.clients mac ip).pMyClient with
  | some my =>
    have hmine := scan_mine hmy
    simp only [HandledBy, lookupRequest, hmy, scan_unavailable, scan_req]
    cases hun : takenByOther srv.clients mac ip with
    | true => exact .requestTaken my rfl hmine hun
    | false =>
      cases hreq : idleWith srv.clients fun c => c.ipAddr = ip with
      | some req =>
        by_cases hours : Ours srv sid
        · have hne : req ≠ my := fun e => hmine.1 (e ▸ (idleWith_some hreq).1)
          have hs : (drop srv.clients my req).state ≠ .select := by
            rw [drop, modify_other _ _ hne]; exact hD req
          simp only [hours, decide_true, if_true, Bool.false_eq_true, if_false]
          rw [← drop, settle_request xid hs, settleReply_request xid hs, drop, modify_other _ _ hne]
          exact .requestMove my req rfl hmine hun hreq hours
        · simp only [hours, decide_false, Bool.false_eq_true, if_false]
          exact .requestRefuse my req rfl hmine hun hreq hours
      | none =>
        by_cases hours : Ours srv sid
        · simp only [hours, decide_true, if_true, Bool.false_eq_true, if_false]
          rw [settle_request xid (hD my), settleReply_request xid (hD my)]
          exact .requestKeep my rfl hmine hun hreq hours
        · simp only [hours, decide_false, Bool.false_eq_true, if_false]
          exact .requestNone my rfl hmine hun hreq hours
  | none =>
    have hnone := scan_stranger hmy
    simp only [HandledBy, lookupRequest, hmy, scan_unavailable, scan_req]
    cases hun : takenByOther srv.clients mac ip with
    | true => exact .requestNak rfl hnone (.inl hun)
    | false =>
      by_cases hours : Ours srv sid
      · simp only [hours, decide_true, if_true, Bool.false_eq_true, if_false]
        cases hreq : idleWith srv.clients fun c => c.ipAddr = ip with
        | none => exact .requestNak rfl hnone (.inr (.inl hreq))
        | some req =>
          rw [settle_request xid (hD req), settleReply_request xid (hD req)]
          exact .requestNew req rfl hnone hun hreq hours
      · simp only [hours, decide_false, Bool.false_eq_true, if_false]
        exact .requestNak rfl hnone (.inr (.inr hours))

theorem release_handled {msgType : UInt8} (h : msgType = msgRelease ∨ msgType = msgDecline) :
    HandledBy srv mac ip sid xid msgType (lookupRelease srv.clients (scanClients srv.clients mac ip)) := by
  have hquiet : ¬(msgType ≠ msgRelease ∧ msgType ≠ msgDecline) := by
    rintro ⟨h1, h2⟩
    exact h.elim h1 h2
  cases hmy : (scanClients srv.clients mac ip).pMyClient with
  | some my =>
    simp only [HandledBy, lookupRelease, hmy, settle_none, settleReply, if_neg hquiet]
    exact .release my h (scan_mine hmy)
  | none =>
    simp only [HandledBy, lookupRelease, hmy, settle_none, settleReply, if_neg hquiet]
    exact .releaseNone h (scan_stranger hmy)

theorem handled (hD : NoSelect srv.clients) (msgType : UInt8) : Handled srv mac ip sid xid msgType
    (handleMessage srv mac msgType ip sid xid).1.clients (handleMessage srv mac msgType ip sid xid).2 := by
  rw [handleMessage_clients, handleMessage_reply]
  change HandledBy srv mac ip sid xid msgType
    (lookupSwitch srv.clients (scanClients srv.clients mac ip) msgType (decide (Ours srv sid)))
  unfold lookupSwitch
  by_cases h1 : msgType = msgDiscover
  · rw [if_pos h1, h1]; exact discover_handled
  by_cases h2 : msgType = msgRequest
  · rw [if_neg h1, if_pos h2, h2]; exact request_handled hD
  by_cases h3 : msgType = msgRelease
  · rw [if_neg h1, if_neg h2, if_pos h3]; exact release_handled (.inl h3)
  by_cases h4 : msgType = msgDecline
  · rw [if_neg h1, if_neg h2, if_neg h3, if_pos h4]; exact release_handled (.inr h4)
  rw [if_neg h1, if_neg h2, if_neg h3, if_neg h4]
  simp only [HandledBy, settle_none, settleReply, if_pos (And.intro h3 h4)]
  exact .other h1 h2 h3 h4

theorem discover_stranger (hD : NoSelect srv.clients) (hs : Stranger srv.clients mac) :
    (∃ i, available srv.clients mac ip = some i ∧
      (handleMessage srv mac msgDiscover ip sid xid).1.clients = offerTo srv.clients i mac ∧
      (handleMessage srv mac msgDiscover ip sid xid).2 = some (.offer (srv.clients i).ipAddr mac xid)) ∨
    (available srv.clients mac ip = none ∧
      (handleMessage srv mac msgDiscover ip sid xid).2 = some (.nak mac xid)) := by
  have h := @handled srv mac ip sid xid hD msgDiscover
  generalize (handleMessage srv mac msgDiscover ip sid xid).1.clients = t' at h
  generalize (handleMessage srv mac msgDiscover ip sid xid).2 = r at h
  cases h with
  | discoverMove my _ _ hm => exact absurd hm (hs my)
  | discoverAgain my _ hm => exact absurd hm (hs my)
  | discoverNew i _ _ hav => exact .inl ⟨i, hav, rfl, rfl⟩
  | discoverFull _ _ hav => exact .inr ⟨hav, rfl⟩
  | requestTaken _ h | requestMove _ _ h | requestRefuse _ _ h | requestKeep _ h | requestNone _ h | requestNew _ h
  | requestNak h => exact absurd h (by decide)
  | release _ h | releaseNone h => exact absurd h (by decide)
  | other h => exact absurd rfl h

end

end SerialNet.Dhcp
