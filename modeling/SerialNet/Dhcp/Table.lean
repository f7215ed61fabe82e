import SerialNet.Dhcp.Server

/-!
# What a message does to the lease table

`scanClients_spec` says what the pointers of the scan name, `message_cases`
lists the tables a message can leave.
-/

namespace SerialNet.Dhcp

def Active (c : DhcpClient) : Prop := c.state ≠ .idle

instance (c : DhcpClient) : Decidable (Active c) := inferInstanceAs (Decidable (_ ≠ _))

@[simp] theorem modify_self (t : Table) (i : Slot) (f : DhcpClient → DhcpClient) :
    modify t i f i = f (t i) := by simp [modify]

@[simp] theorem modify_other (t : Table) {i j : Slot} (f : DhcpClient → DhcpClient) (h : j ≠ i) :
    modify t i f j = t j := by simp [modify, h]

theorem modify_modify (t : Table) (i : Slot) (f g : DhcpClient → DhcpClient) :
    modify (modify t i f) i g = modify t i fun c => g (f c) := by simp [modify]

/-! ## The scan -/

structure ScanSpec (t : Table) (mac : Mac) (seen : List Slot) (l : Scan) : Prop where
  free : ∀ i, l.pFreeClient = some i → (t i).state = .idle
  req : ∀ i, l.pReqClient = some i → (t i).state = .idle
  myHistory : ∀ i, l.pMyHistoryClient = some i → (t i).state = .idle
  history : ∀ i, l.pHistoryClient = some i → (t i).state = .idle
  my : ∀ i, l.pMyClient = some i → Active (t i) ∧ (t i).macAddr = mac
  noMy : l.pMyClient = none → ∀ i ∈ seen, Active (t i) → (t i).macAddr ≠ mac

theorem scanClient_spec {t : Table} {mac : Mac} (ip : UInt32) {seen : List Slot} {l : Scan}
    (h : ScanSpec t mac seen l) (i : Slot) : ScanSpec t mac (seen ++ [i]) (scanClient t mac ip l i) := by
  have some_or {p : Option Slot} {P : Prop} [Decidable P] {j : Slot}
      (hp : ∀ j, p = some j → (t j).state = .idle) (hi : (t i).state = .idle)
      (hj : (if P then some i else p) = some j) : (t j).state = .idle := by
    split at hj
    · cases hj; exact hi
    · exact hp j hj
  have snoc {p : Option Slot} (hp : p = none → ∀ j ∈ seen, Active (t j) → (t j).macAddr ≠ mac)
      (hi : Active (t i) → (t i).macAddr ≠ mac) :
      p = none → ∀ j ∈ seen ++ [i], Active (t j) → (t j).macAddr ≠ mac := by
    intro hn j hj
    rcases List.mem_append.mp hj with hj | hj
    · exact hp hn j hj
    · rw [List.mem_singleton.mp hj]; exact hi
  unfold scanClient
  by_cases hidle : (t i).state = .idle
  · simp only [hidle, if_true]
    exact
      { free := fun j => some_or h.free hidle
        req := fun j => some_or h.req hidle
        myHistory := fun j => some_or h.myHistory hidle
        history := fun j => some_or h.history hidle
        my := h.my
        noMy := snoc h.noMy fun ha => absurd hidle ha }
  · simp only [hidle, if_false]
    by_cases hmac : (t i).macAddr = mac
    · simp only [hmac, if_true]
      refine { h with my := ?_, noMy := fun hn => by simp at hn }
      rintro j ⟨⟩
      exact ⟨hidle, hmac⟩
    · simp only [hmac, if_false]
      split
      · exact { h with noMy := snoc h.noMy fun _ => hmac }
      · exact { h with noMy := snoc h.noMy fun _ => hmac }

theorem foldl_scanClient_spec {t : Table} {mac : Mac} (ip : UInt32) :
    ∀ (is seen : List Slot) (l : Scan), ScanSpec t mac seen l →
      ScanSpec t mac (seen ++ is) (is.foldl (scanClient t mac ip) l)
  | [], seen, l, h => by simpa using h
  | i :: is, seen, l, h => by
    have := foldl_scanClient_spec ip is (seen ++ [i]) _ (scanClient_spec ip h i)
    simpa [List.append_assoc] using this

theorem scanClients_spec (t : Table) (mac : Mac) (ip : UInt32) :
    ScanSpec t mac (List.finRange historyClientNum) (scanClients t mac ip) := by
  have h0 : ScanSpec t mac [] {} := by constructor <;> simp
  have := foldl_scanClient_spec ip (List.finRange historyClientNum) [] {} h0
  rwa [List.nil_append] at this

/-! ## The tables a message leaves -/

/-- The client's entry goes idle; its MAC stays if it was in BIND. -/
def drop (t : Table) (i : Slot) : Table := modify t i fun c => goIdle (forgetUnlessBind c)

def dropForget (t : Table) (i : Slot) : Table :=
  modify t i fun c => { c with state := .idle, macAddr := zeroMac }

def offerTo (t : Table) (i : Slot) (mac : Mac) : Table :=
  modify t i fun c => { c with macAddr := mac, timeout := defaultTimeout, state := .request }

/-- The entry `i` is bound to `mac`, whose history is cleaned. -/
def bindTo (t : Table) (i : Slot) (mac : Mac) : Table :=
  cleanClientHistory (modify t i fun c => { c with macAddr := mac, lease := defaultLeaseTime, state := .bind }) mac

/-- `t'` is `t`, or `t` with the entry of `mac` gone idle. -/
inductive Dropped (t : Table) (mac : Mac) : Table → Prop
  | same : Dropped t mac t
  | drop (my : Slot) : Active (t my) → (t my).macAddr = mac → Dropped t mac (drop t my)
  | dropForget (my : Slot) : Active (t my) → (t my).macAddr = mac → Dropped t mac (dropForget t my)

def UniqueActive (t : Table) : Prop :=
  ∀ i j, Active (t i) → Active (t j) → (t i).macAddr = (t j).macAddr → i = j

def NoOther (t : Table) (mac : Mac) (i : Slot) : Prop := ∀ j, j ≠ i → Active (t j) → (t j).macAddr ≠ mac

/-- Where the table of `handleMessage` can come from. -/
inductive MessageOutcome (t : Table) (mac : Mac) : Table → Prop
  | dropped (t' : Table) : Dropped t mac t' → MessageOutcome t mac t'
  | offer (t' : Table) (i : Slot) : Dropped t mac t' → NoOther t' mac i →
      ((t i).state = .idle ∨ (t i).macAddr = mac) → MessageOutcome t mac (offerTo t' i mac)
  | bind (t' : Table) (i : Slot) : Dropped t mac t' → NoOther t' mac i →
      ((t i).state = .idle ∨ (t i).macAddr = mac) → MessageOutcome t mac (bindTo t' i mac)

theorem drop_idle (t : Table) (i : Slot) : (drop t i i).state = .idle := by
  simp [drop, goIdle]

theorem noOther_drop {t : Table} {mac : Mac} {my : Slot} (hA : UniqueActive t) (ha : Active (t my))
    (hm : (t my).macAddr = mac) (i : Slot) : NoOther (drop t my) mac i := by
  intro j _ haj hmj
  by_cases hj : j = my
  · subst hj; exact haj (drop_idle t j)
  · rw [drop, modify_other _ _ hj] at haj hmj
    exact hj (hA j my haj ha (hmj.trans hm.symm))

theorem noOther_dropForget {t : Table} {mac : Mac} {my : Slot} (hA : UniqueActive t) (ha : Active (t my))
    (hm : (t my).macAddr = mac) (i : Slot) : NoOther (dropForget t my) mac i := by
  intro j _ haj hmj
  by_cases hj : j = my
  · subst hj; exact haj (by simp [dropForget])
  · rw [dropForget, modify_other _ _ hj] at haj hmj
    exact hj (hA j my haj ha (hmj.trans hm.symm))

theorem noOther_my {t : Table} {mac : Mac} {my : Slot} (hA : UniqueActive t) (ha : Active (t my))
    (hm : (t my).macAddr = mac) : NoOther t mac my :=
  fun j hj haj hmj => hj (hA j my haj ha (hmj.trans hm.symm))

def NoSelect (t : Table) : Prop := ∀ i, (t i).state ≠ .select

/-- What the state machine makes of the answer of the lookup. -/
def settle (mac : Mac) (msgType : UInt8) (xid : UInt32) (r : Table × Option Slot) : Table :=
  match r.2 with
  | some i => (dhcpClientSMEHandle (modify r.1 i (setMac mac)) i msgType xid).1
  | none => r.1

@[simp] theorem settle_none (mac : Mac) (msgType : UInt8) (xid : UInt32) (t : Table) :
    settle mac msgType xid (t, none) = t := rfl

theorem handleMessage_clients (srv : DhcpServer) (mac : Mac) (msgType : UInt8) (ip sid xid : UInt32) :
    (handleMessage srv mac msgType ip sid xid).1.clients =
      settle mac msgType xid (lookupSwitch srv.clients (scanClients srv.clients mac ip) msgType
        (decide (sid = 0 ∨ srv.serverIpAddr = sid))) := by
  cases h : lookupSwitch srv.clients (scanClients srv.clients mac ip) msgType
      (decide (sid = 0 ∨ srv.serverIpAddr = sid)) with
  | mk t ret =>
    simp only [handleMessage, clientTableLookup, h]
    cases ret <;> rfl

theorem settle_discover {t : Table} {mac : Mac} {i : Slot} (xid : UInt32) (h : (t i).state = .idle) :
    settle mac msgDiscover xid (t, some i) = offerTo t i mac := by
  simp [settle, dhcpClientSMEHandle, setMac, h, modify_modify, offerTo, offerClient]

theorem settle_request {t : Table} {mac : Mac} {i : Slot} (xid : UInt32) (h : (t i).state ≠ .select) :
    settle mac msgRequest xid (t, some i) = bindTo t i mac := by
  have hne : msgRequest ≠ msgDiscover := by decide
  cases hs : (t i).state with
  | select => exact absurd hs h
  | idle => simp [settle, dhcpClientSMEHandle, setMac, hs, hne, modify_modify, bindTo, ackClient]
  | request => simp [settle, dhcpClientSMEHandle, setMac, hs, modify_modify, bindTo, ackClient]
  | bind => simp [settle, dhcpClientSMEHandle, setMac, hs, modify_modify, bindTo, ackClient]

/-- Setting the client's own entry idle and offering it again is the offer. -/
theorem offerTo_goIdle (t : Table) (my : Slot) (mac : Mac) :
    offerTo (modify t my goIdle) my mac = offerTo t my mac := by
  simp [offerTo, modify_modify, goIdle]

/-- BIND is never seen after `State = IDLE`, so the MAC is always cleared. -/
theorem forget_goIdle (t : Table) (my : Slot) :
    modify (modify t my goIdle) my forgetUnlessBind = dropForget t my := by
  simp [modify_modify, dropForget, goIdle, forgetUnlessBind]

theorem mem_orElse {a b c d : Option Slot} {i : Slot} (h : (a <|> b <|> c <|> d) = some i) :
    a = some i ∨ b = some i ∨ c = some i ∨ d = some i := by
  cases a <;> cases b <;> cases c <;> simp_all

section
variable {t : Table} {mac : Mac} {ip : UInt32} (hA : UniqueActive t)

theorem noOther_of_none (h : (scanClients t mac ip).pMyClient = none) (i : Slot) : NoOther t mac i :=
  fun j _ => (scanClients_spec t mac ip).noMy h j (List.mem_finRange j)

include hA

theorem discover_cases (xid : UInt32) :
    MessageOutcome t mac (settle mac msgDiscover xid (lookupDiscover t (scanClients t mac ip))) := by
  have spec := scanClients_spec t mac ip
  cases hmy : (scanClients t mac ip).pMyClient with
  | some my =>
    obtain ⟨ha, hm⟩ := spec.my my hmy
    cases hreq : (scanClients t mac ip).pReqClient with
    | some req =>
      simp only [lookupDiscover, hmy, hreq, forget_goIdle]
      have hidle := spec.req req hreq
      have hne : req ≠ my := fun e => ha (e ▸ hidle)
      rw [settle_discover xid (by rw [dropForget, modify_other _ _ hne]; exact hidle)]
      exact .offer _ req (.dropForget my ha hm) (noOther_dropForget hA ha hm req) (.inl hidle)
    | none =>
      simp only [lookupDiscover, hmy, hreq]
      rw [settle_discover xid (by simp [goIdle]), offerTo_goIdle]
      exact .offer t my .same (noOther_my hA ha hm) (.inr hm)
  | none =>
    simp only [lookupDiscover, hmy]
    cases hret : ((scanClients t mac ip).pReqClient <|> (scanClients t mac ip).pMyHistoryClient <|>
        (scanClients t mac ip).pFreeClient <|> (scanClients t mac ip).pHistoryClient) with
    | none => exact .dropped _ .same
    | some i =>
      have hidle : (t i).state = .idle := by
        rcases mem_orElse hret with h | h | h | h
        · exact spec.req i h
        · exact spec.myHistory i h
        · exact spec.free i h
        · exact spec.history i h
      rw [settle_discover xid hidle]
      exact .offer t i .same (noOther_of_none hmy i) (.inl hidle)

theorem request_cases (hD : NoSelect t) (xid : UInt32) (ours : Bool) :
    MessageOutcome t mac (settle mac msgRequest xid (lookupRequest t (scanClients t mac ip) ours)) := by
  have spec := scanClients_spec t mac ip
  cases hmy : (scanClients t mac ip).pMyClient with
  | some my =>
    obtain ⟨ha, hm⟩ := spec.my my hmy
    cases hun : (scanClients t mac ip).ipUnavailable with
    | true =>
      simp only [lookupRequest, hmy, hun, if_true]
      exact .dropped _ (.drop my ha hm)
    | false =>
      cases hreq : (scanClients t mac ip).pReqClient with
      | some req =>
        simp only [lookupRequest, hmy, hun, hreq, Bool.false_eq_true, if_false]
        cases ours with
        | true =>
          have hidle := spec.req req hreq
          have hne : req ≠ my := fun e => ha (e ▸ hidle)
          have hs : (drop t my req).state ≠ .select := by
            rw [drop, modify_other _ _ hne]; exact hD req
          show MessageOutcome t mac (settle mac msgRequest xid (drop t my, some req))
          rw [settle_request xid hs]
          exact .bind _ req (.drop my ha hm) (noOther_drop hA ha hm req) (.inl hidle)
        | false => exact .dropped _ (.drop my ha hm)
      | none =>
        simp only [lookupRequest, hmy, hun, hreq, Bool.false_eq_true, if_false]
        cases ours with
        | true =>
          show MessageOutcome t mac (settle mac msgRequest xid (t, some my))
          rw [settle_request xid (hD my)]
          exact .bind t my .same (noOther_my hA ha hm) (.inr hm)
        | false => exact .dropped _ .same
  | none =>
    simp only [lookupRequest, hmy]
    split
    · exact .dropped _ .same
    · cases ours with
      | false => exact .dropped _ .same
      | true =>
        cases hreq : (scanClients t mac ip).pReqClient with
        | none => exact .dropped _ .same
        | some req =>
          show MessageOutcome t mac (settle mac msgRequest xid (t, some req))
          rw [settle_request xid (hD req)]
          exact .bind t req .same (noOther_of_none hmy req) (.inl (spec.req req hreq))

omit hA in
theorem release_cases (msgType : UInt8) (xid : UInt32) :
    MessageOutcome t mac (settle mac msgType xid (lookupRelease t (scanClients t mac ip))) := by
  cases hmy : (scanClients t mac ip).pMyClient with
  | some my =>
    obtain ⟨ha, hm⟩ := (scanClients_spec t mac ip).my my hmy
    simp only [lookupRelease, hmy, settle_none]
    exact .dropped _ (.drop my ha hm)
  | none =>
    simp only [lookupRelease, hmy, settle_none]
    exact .dropped _ .same

end

/-- **Every message** leaves the table as it was, with the sender's entry gone
idle, or with one entry offered or bound to the sender. -/
theorem message_cases (srv : DhcpServer) (hA : UniqueActive srv.clients) (hD : NoSelect srv.clients)
    (mac : Mac) (msgType : UInt8) (ip sid xid : UInt32) :
    MessageOutcome srv.clients mac (handleMessage srv mac msgType ip sid xid).1.clients := by
  rw [handleMessage_clients]
  unfold lookupSwitch
  by_cases h1 : msgType = msgDiscover
  · rw [if_pos h1, h1]; exact discover_cases hA xid
  rw [if_neg h1]
  by_cases h2 : msgType = msgRequest
  · rw [if_pos h2, h2]; exact request_cases hA hD xid _
  rw [if_neg h2]
  split
  · exact release_cases msgType xid
  · split
    · exact release_cases msgType xid
    · exact .dropped _ .same

end SerialNet.Dhcp
