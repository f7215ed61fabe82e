import SerialNet.Dhcp.History

/-!
# The order of allocation and the end of offers

`allocation_run`: whatever starts, stops, messages, ticks and deletes came
before, a DISCOVER gets the entry `allocated` names, and ten ticks end every
offer.
-/

namespace SerialNet.Dhcp

open Run

/-! ## The entry a DISCOVER gets -/

/-- The requested address, the client's history, an entry never used, the
history of another client. -/
def allocated (t : Table) (mac : Mac) (ip : UInt32) : Option Slot :=
  reqEntry t ip <|> historyEntry t mac <|> historyEntry t zeroMac <|>
    idleWith t fun c => c.macAddr ≠ zeroMac ∧ c.macAddr ≠ mac

def NoOffer (reply : Option Reply) : Prop := ∀ yiaddr chaddr xid, reply ≠ some (.offer yiaddr chaddr xid)

/-- The packet `p` is a DISCOVER `q` of a client without an active entry. -/
structure Allocates (d : Device) (p : List UInt8) (q : Request) : Prop where
  offer : ∀ i, allocated d.srv.clients q.mac q.reqIpAddr = some i → ∀ alloc,
    (dhcpsRecvCb d p alloc).1.srv.clients = offerTo d.srv.clients i q.mac ∧
      sentReply d p alloc = if alloc then some (.offer (d.srv.clients i).ipAddr q.mac q.xid) else none
  full : ∀ alloc, NoOffer (sentReply d p alloc) ↔ alloc = false ∨ ∀ i, Active (d.srv.clients i)

theorem noOffer_none : NoOffer none := by
  rintro _ _ _ ⟨⟩

theorem noOffer_nak (mac : Mac) (xid : UInt32) : NoOffer (some (.nak mac xid)) := by
  rintro _ _ _ ⟨⟩

theorem allocated_eq {t : Table} {mac : Mac} {ip : UInt32} : allocated t mac ip = available t mac ip := by
  unfold allocated available
  cases hh : historyEntry t mac with
  | some i => cases reqEntry t ip <;> rfl
  | none =>
    have hother : (idleWith t fun c => c.macAddr ≠ zeroMac ∧ c.macAddr ≠ mac) =
        idleWith t fun c => c.macAddr ≠ zeroMac := by
      unfold idleWith
      congr 1
      funext i
      have := idleWith_none.mp hh i
      by_cases hi : (t i).state = .idle
      · simp [hi, this hi]
      · simp [hi]
    rw [hother]

theorem allocates {d : Device} {p : List UInt8} {q : Request} (hD : NoSelect d.srv.clients) (hq : d.takes p = some q)
    (ht : q.msgType = msgDiscover) (hs : Stranger d.srv.clients q.mac) : Allocates d p q := by
  have hout := fun alloc => recvCb_some hq alloc
  simp only [Request.handle, ht] at hout
  rcases @discover_stranger d.srv q.mac q.reqIpAddr q.serverId q.xid hD hs with ⟨i, hav, hclients, hreply⟩ | ⟨hav, hreply⟩
  · have hidle := available_idle hav
    constructor
    · intro j hj alloc
      rw [allocated_eq, hav] at hj
      cases hj
      rw [(hout alloc).1, (hout alloc).2, hclients, hreply]
      exact ⟨rfl, rfl⟩
    · intro alloc
      rw [(hout alloc).2, hreply]
      cases alloc with
      | false => exact ⟨fun _ => .inl rfl, fun _ => noOffer_none⟩
      | true => exact ⟨fun h => absurd rfl (h _ _ _), fun h => absurd hidle ((h.resolve_left (by decide)) i)⟩
  · constructor
    · intro j hj
      rw [allocated_eq, hav] at hj
      cases hj
    · intro alloc
      rw [(hout alloc).2, hreply]
      refine ⟨fun _ => .inr (available_none.mp hav), fun _ => ?_⟩
      cases alloc with
      | false => exact noOffer_none
      | true => exact noOffer_nak _ _

/-! ## Offers run out -/

def OfferTimed (t : Table) : Prop := ∀ i, (t i).state = .request → 1 ≤ (t i).timeout ∧ (t i).timeout ≤ defaultTimeout

theorem offerTimed_modify {t : Table} {i : Slot} {f : DhcpClient → DhcpClient} (h : OfferTimed t)
    (hf : (f (t i)).state = .request → 1 ≤ (f (t i)).timeout ∧ (f (t i)).timeout ≤ defaultTimeout) :
    OfferTimed (modify t i f) := by
  intro j hj
  by_cases e : j = i
  · subst e
    rw [modify_self] at hj ⊢
    exact hf hj
  · rw [modify_other _ _ e] at hj ⊢
    exact h j hj

theorem offerTimed_dropped {t t' : Table} {mac : Mac} (h : OfferTimed t) (hd : Dropped t mac t') : OfferTimed t' := by
  cases hd with
  | same => exact h
  | drop my _ _ => exact offerTimed_modify h fun hr => absurd hr (show ClientState.idle ≠ .request by decide)
  | dropForget my _ _ => exact offerTimed_modify h fun hr => absurd hr (show ClientState.idle ≠ .request by decide)

theorem offerTimed_message {t t' : Table} {mac : Mac} (h : OfferTimed t) (ho : MessageOutcome t mac t') : OfferTimed t' := by
  cases ho with
  | dropped t' hd => exact offerTimed_dropped h hd
  | offer t₁ i hd _ _ => exact offerTimed_modify (offerTimed_dropped h hd) fun _ =>
    ⟨(by decide : 1 ≤ defaultTimeout), UInt32.le_refl defaultTimeout⟩
  | bind t₁ i hd _ _ =>
    intro j hj
    have h₁ := offerTimed_dropped h hd
    by_cases e : j = i
    · subst e
      rw [bindTo_self] at hj
      cases hj
    · have hst := bindTo_state t₁ mac e
      rw [bindTo_active t₁ mac e (by rw [Active, ← hst, hj]; decide)]
      exact h₁ j (hst ▸ hj)

theorem toNat_pred {x : UInt32} (h : 1 ≤ x) : (x - 1).toNat = x.toNat - 1 := UInt32.toNat_sub_of_le x 1 h

theorem tickRequest_ends {c : DhcpClient} (h : c.timeout = 1) :
    tickRequest c = { c with timeout := 0, macAddr := zeroMac, state := .idle } := by
  simp [tickRequest, h]

theorem tickRequest_counts {c : DhcpClient} (h : 1 < c.timeout) : tickRequest c = { c with timeout := c.timeout - 1 } := by
  have h0 : c.timeout ≠ 0 := fun e => absurd (e ▸ h) (by decide)
  have h1 : c.timeout - 1 ≠ 0 := by
    rw [UInt32.lt_iff_toNat_lt, UInt32.toNat_one] at h
    rw [ne_eq, ← UInt32.toNat_inj, toNat_pred (by rw [UInt32.le_iff_toNat_le]; exact Nat.le_of_lt h), UInt32.toNat_zero]
    omega
  simp [tickRequest, h0, h1]

/-- Only an entry that was in REQUEST is in REQUEST after a tick. -/
theorem request_before {ap : UInt8} {c : DhcpClient} (hc : (tickClient ap c).state = .request) : c.state = .request := by
  cases hs : c.state with
  | request => rfl
  | idle | select => simp [tickClient, hs] at hc
  | bind =>
    rcases aged_tickBind ap hs with ⟨h, _⟩ | ⟨h, _⟩
    · simp [tickClient, hs, h] at hc
    · simp [tickClient, hs, h] at hc

theorem timed_cases {x : UInt32} (h : 1 ≤ x) : x = 1 ∨ 1 < x := by
  rw [UInt32.le_iff_toNat_le, UInt32.toNat_one] at h
  rw [UInt32.lt_iff_toNat_lt, ← UInt32.toNat_inj, UInt32.toNat_one]
  omega

theorem offerTimed_tick {t : Table} (h : OfferTimed t) (ap : Slot → UInt8) : OfferTimed fun i => tickClient (ap i) (t i) := by
  intro i hi
  have hs := request_before hi
  obtain ⟨hlow, hhigh⟩ := h i hs
  simp only [tickClient, hs] at hi ⊢
  rcases timed_cases hlow with h1 | h1
  · rw [tickRequest_ends h1] at hi
    cases hi
  · rw [tickRequest_counts h1]
    simp only [UInt32.le_iff_toNat_le, UInt32.lt_iff_toNat_lt, UInt32.toNat_one, toNat_pred hlow] at *
    omega

def tickAll (aps : List UInt8) (c : DhcpClient) : DhcpClient := aps.foldl (fun c ap => tickClient ap c) c

theorem tickAll_idle {c : DhcpClient} (h : c.state = .idle) : ∀ aps, tickAll aps c = c
  | [] => rfl
  | ap :: aps => by
    have hc : tickClient ap c = c := by simp [tickClient, h]
    rw [tickAll, List.foldl_cons, hc]
    exact tickAll_idle h aps

/-- Every tick brings an offer closer to its end. -/
theorem tickAll_request : ∀ {aps : List UInt8} {c : DhcpClient}, c.state = .request → 1 ≤ c.timeout →
    c.timeout.toNat ≤ aps.length → tickAll aps c = { c with timeout := 0, macAddr := zeroMac, state := .idle }
  | [], c, _, hlow, hlen => by
    rw [UInt32.le_iff_toNat_le, UInt32.toNat_one] at hlow
    exact absurd (Nat.le_trans hlow hlen) (by decide)
  | ap :: aps, c, hs, hlow, hlen => by
    have hc : tickClient ap c = tickRequest c := by simp [tickClient, hs]
    rw [tickAll, List.foldl_cons, hc]
    rcases timed_cases hlow with h1 | h1
    · rw [tickRequest_ends h1]
      exact tickAll_idle rfl aps
    · have hlow' : 1 ≤ c.timeout - 1 := by
        simp only [UInt32.le_iff_toNat_le, UInt32.lt_iff_toNat_lt, UInt32.toNat_one, toNat_pred hlow] at *
        omega
      rw [tickRequest_counts h1]
      refine tickAll_request hs hlow' ?_
      rw [toNat_pred hlow]
      simp only [List.length_cons] at hlen
      omega

theorem tickAll_not_request {c : DhcpClient} (h : c.state ≠ .request) : ∀ aps : List UInt8, (tickAll aps c).state ≠ .request
  | [] => h
  | _ :: aps => tickAll_not_request (fun hc => h (request_before hc)) aps

/-! ## Runs -/

/-- What happens to the device: the server is started and stopped, and serves. -/
inductive LifeOp
  | start (netif : Netif) (udpNew : Option Nat)
  | stop
  | serve (op : DevOp)

def reaches (srv : DhcpServer) : DevOp → Bool
  | .recv _ _ => srv.socket.isSome
  | _ => true

/-- A start that divides by zero does not come back. -/
def startedBy (srv : DhcpServer) (netif : Netif) (udpNew : Option Nat) : DhcpServer :=
  ((dhcpsStart srv netif udpNew).map Prod.fst).getD srv

def lifeStep (d : Device) : LifeOp → Device
  | .start netif udpNew => { d with srv := startedBy d.srv netif udpNew }
  | .stop => { d with srv := (dhcpsStop d.srv).1 }
  | .serve op => if reaches d.srv op then devStep d op else d

def ticks (aps : List (Slot → UInt8)) : List LifeOp := aps.map fun ap => .serve (.tick ap)

structure LifeInv (srv : DhcpServer) : Prop where
  lease : LeaseInv srv.clients
  timed : OfferTimed srv.clients
  enabled : srv.enable = srv.socket.isSome
  stopped : srv.enable = false → ∀ i, (srv.clients i).state = .idle

theorem lifeInv_fresh {srv : DhcpServer} (he : srv.enable = srv.socket.isSome)
    (hc : ∀ i, (srv.clients i).state = .idle ∧ (srv.clients i).macAddr = zeroMac) : LifeInv srv where
  lease :=
    { uniqueActive := fun i j hi _ _ => absurd (hc i).1 hi
      uniqueHistory := fun i j hz _ _ _ => absurd (hc i).2 hz
      boundAlone := fun i j hz _ _ => absurd (hc i).2 hz
      noSelect := fun i hi => by rw [(hc i).1] at hi; cases hi }
  timed i hi := by rw [(hc i).1] at hi; cases hi
  enabled := he
  stopped _ i := (hc i).1

theorem start_cases (srv : DhcpServer) (netif : Netif) (udpNew : Option Nat) :
    startedBy srv netif udpNew = srv ∨
      ((startedBy srv netif udpNew).enable = (startedBy srv netif udpNew).socket.isSome ∧
        ∀ i, ((startedBy srv netif udpNew).clients i).state = .idle ∧
          ((startedBy srv netif udpNew).clients i).macAddr = zeroMac) := by
  simp only [startedBy, dhcpsStart]
  split
  · exact .inl rfl
  · cases modOrOne ((htonl netif.ipAddr &&& ~~~htonl netif.netmask) + 1) (~~~htonl netif.netmask) with
    | none => exact .inl rfl
    | some tmp =>
      simp only [Option.bind_some]
      split
      · exact .inr ⟨rfl, fun i => ⟨rfl, rfl⟩⟩
      · exact .inl rfl

theorem step_switch (srv : DhcpServer) (op : Op) :
    (step srv op).enable = srv.enable ∧ (step srv op).socket = srv.socket := by
  cases op with
  | message mac msgType ip sid xid =>
    simp only [step, handleMessage]
    split <;> exact ⟨rfl, rfl⟩
  | tick ap =>
    simp only [step, dhcpTickHandle]
    split <;> exact ⟨rfl, rfl⟩
  | clientDelete mac =>
    simp only [step, dhcpsClientDelete]
    repeat' split
    all_goals exact ⟨rfl, rfl⟩

theorem offerTimed_step {srv : DhcpServer} (hl : LeaseInv srv.clients) (h : OfferTimed srv.clients) (op : Op) :
    OfferTimed (step srv op).clients := by
  cases op with
  | message mac msgType ip sid xid =>
    exact offerTimed_message h (message_cases srv hl.uniqueActive hl.noSelect mac msgType ip sid xid)
  | tick ap =>
    simp only [step, dhcpTickHandle]
    split
    · exact offerTimed_tick h ap
    · exact h
  | clientDelete mac =>
    simp only [step]
    rcases clientDelete_cases srv mac with hc | ⟨k, -, hc⟩
    · rwa [hc]
    · rw [hc]
      exact offerTimed_modify h fun hr => absurd hr (show ClientState.idle ≠ .request by decide)

theorem lifeStep_disabled {d : Device} (h : LifeInv d.srv) (he : d.srv.enable = false) (op : DevOp) :
    (lifeStep d (.serve op)).srv = d.srv := by
  cases op with
  | recv p alloc => simp [lifeStep, reaches, ← h.enabled, he]
  | tick => simp [lifeStep, reaches, devStep, dhcpTickHandle, he]
  | clientDelete => simp [lifeStep, reaches, devStep, dhcpsClientDelete, he]
  | elsewhere => rfl

theorem lifeInv_served {srv : DhcpServer} (h : LifeInv srv) (he : srv.enable = true) (op : Op) : LifeInv (step srv op) := by
  obtain ⟨hen, hso⟩ := step_switch srv op
  exact
    { lease := inv_step h.lease op
      timed := offerTimed_step h.lease h.timed op
      enabled := by rw [hen, hso, h.enabled]
      stopped := fun hf => by rw [hen, he] at hf; cases hf }

theorem lifeInv_step {d : Device} (h : LifeInv d.srv) (op : LifeOp) : LifeInv (lifeStep d op).srv := by
  cases op with
  | start netif udpNew =>
    rcases start_cases d.srv netif udpNew with hc | ⟨he, hc⟩
    · rw [lifeStep, hc]
      exact h
    · exact lifeInv_fresh he hc
  | stop => exact lifeInv_fresh rfl fun i => ⟨rfl, rfl⟩
  | serve op =>
    cases he : d.srv.enable with
    | false => rwa [lifeStep_disabled h he op]
    | true =>
      rw [lifeStep]
      split
      · rw [devStep_srv]
        cases served d op with
        | none => exact h
        | some op' => exact lifeInv_served h he op'
      · exact h

theorem lifeInv_run {d : Device} (h : LifeInv d.srv) (ops : List LifeOp) : LifeInv (run lifeStep d ops).srv :=
  run_inv lifeStep (I := fun d => LifeInv d.srv) (fun _ op h => lifeInv_step h op) h ops

theorem ticks_clients : ∀ (aps : List (Slot → UInt8)) {d : Device}, d.srv.enable = true →
    (run lifeStep d (ticks aps)).srv.clients = fun i => tickAll (aps.map fun ap => ap i) (d.srv.clients i)
  | [], _, _ => rfl
  | ap :: aps, d, he => by
    have hstep : lifeStep d (.serve (.tick ap)) =
        { d with srv := { d.srv with clients := fun i => tickClient (ap i) (d.srv.clients i) } } := by
      simp [lifeStep, reaches, devStep, dhcpTickHandle, he]
    rw [ticks, List.map_cons, run_cons, hstep]
    exact ticks_clients aps he

theorem ticks_disabled : ∀ (aps : List (Slot → UInt8)) {d : Device}, LifeInv d.srv → d.srv.enable = false →
    (run lifeStep d (ticks aps)).srv = d.srv
  | [], _, _, _ => rfl
  | ap :: aps, d, h, he => by
    have hsrv := lifeStep_disabled h he (.tick ap)
    rw [ticks, List.map_cons, run_cons]
    exact (ticks_disabled aps (hsrv ▸ h) (hsrv ▸ he)).trans hsrv

/-- No offer is left: those that stood lost their MAC, and only bound entries
keep an address from a client that asks. -/
structure OffersEnded (t : Table) (d : Device) : Prop where
  none : ∀ i, (d.srv.clients i).state ≠ .request
  cleared : ∀ i, (t i).state = .request → (d.srv.clients i).state = .idle ∧ (d.srv.clients i).macAddr = zeroMac
  room : ∀ p q, d.takes p = some q → q.msgType = msgDiscover → Stranger d.srv.clients q.mac →
    (NoOffer (sentReply d p true) ↔ ∀ i, (d.srv.clients i).state = .bind)

theorem offers_end {d : Device} (h : LifeInv d.srv) {aps : List (Slot → UInt8)} (hlen : defaultTimeout.toNat ≤ aps.length) :
    OffersEnded d.srv.clients (run lifeStep d (ticks aps)) := by
  have hinv := lifeInv_run h (ticks aps)
  have hnone : ∀ i, ((run lifeStep d (ticks aps)).srv.clients i).state ≠ .request ∧ ((d.srv.clients i).state = .request →
      ((run lifeStep d (ticks aps)).srv.clients i).state = .idle ∧
        ((run lifeStep d (ticks aps)).srv.clients i).macAddr = zeroMac) := by
    intro i
    cases he : d.srv.enable with
    | false =>
      rw [ticks_disabled aps h he, h.stopped he i]
      exact ⟨nofun, nofun⟩
    | true =>
      simp only [ticks_clients aps he]
      by_cases hi : (d.srv.clients i).state = .request
      · obtain ⟨hlow, hhigh⟩ := h.timed i hi
        have hall : (d.srv.clients i).timeout.toNat ≤ (aps.map fun ap => ap i).length := by
          rw [List.length_map]
          exact Nat.le_trans (UInt32.le_iff_toNat_le.mp hhigh) hlen
        rw [tickAll_request hi hlow hall]
        exact ⟨nofun, fun _ => ⟨rfl, rfl⟩⟩
      · exact ⟨tickAll_not_request hi _, fun hr => absurd hr hi⟩
  refine ⟨fun i => (hnone i).1, fun i => (hnone i).2, fun p q hq ht hs => ?_⟩
  rw [(allocates hinv.lease.noSelect hq ht hs).full true, or_iff_right (by decide)]
  refine forall_congr' fun i => ?_
  have hsel := hinv.lease.noSelect i
  have hreq := (hnone i).1
  rw [Active]
  cases hst : ((run lifeStep d (ticks aps)).srv.clients i).state with
  | idle => simp
  | select => exact absurd hst hsel
  | request => exact absurd hst hreq
  | bind => simp

/-- **Allocation.** In every state of the device a DISCOVER of a client without
an active entry gets the entry `allocated` names, and no OFFER is sent only
when there is no buffer for it or no entry is idle; every offer counts down
from at most ten; and ten ticks end them all. -/
theorem allocation_run (mem : Mem) (ops : List LifeOp) :
    (∀ p q, (run lifeStep { srv := .zero, mem := mem } ops).takes p = some q → q.msgType = msgDiscover →
      Stranger (run lifeStep { srv := .zero, mem := mem } ops).srv.clients q.mac →
      Allocates (run lifeStep { srv := .zero, mem := mem } ops) p q) ∧
      OfferTimed (run lifeStep { srv := .zero, mem := mem } ops).srv.clients ∧
      ∀ aps : List (Slot → UInt8), defaultTimeout.toNat ≤ aps.length →
        OffersEnded (run lifeStep { srv := .zero, mem := mem } ops).srv.clients
          (run lifeStep (run lifeStep { srv := .zero, mem := mem } ops) (ticks aps)) := by
  have h := @lifeInv_run { srv := .zero, mem := mem } (lifeInv_fresh rfl fun _ => ⟨rfl, rfl⟩) ops
  exact ⟨fun _ _ hq ht hs => allocates h.lease.noSelect hq ht hs, h.timed, fun _ hlen => offers_end h hlen⟩

def startSample : Device := run lifeStep { srv := .zero, mem := fun _ => 0 } [.start sampleNetif (some 1)]

theorem allocation_run_sample :
    Allocates startSample (sampleBoot msgDiscover).packet (sampleBoot msgDiscover).request ∧
      allocated startSample.srv.clients (sampleBoot msgDiscover).mac 0 = some 0 := by
  have hmac : (sampleBoot msgDiscover).mac = sampleMac := bootOf_mac ..
  refine ⟨(allocation_run _ [.start sampleNetif (some 1)]).1 _ _ ((sampleBoot msgDiscover).takes_boot _) rfl ?_, ?_⟩
  · rw [show (sampleBoot msgDiscover).request.mac = sampleMac from hmac]
    decide
  · rw [hmac]
    decide

/-- Without a buffer a DISCOVER gets no OFFER though every entry is idle. -/
theorem offer_unsent : (sampleBoot msgDiscover).mac ≠ zeroMac ∧ Stranger startSample.srv.clients (sampleBoot msgDiscover).mac ∧
    ¬(NoOffer (sentReply startSample (sampleBoot msgDiscover).packet false) ↔ ∀ i, Active (startSample.srv.clients i)) := by
  rw [(recvCb_some ((sampleBoot msgDiscover).takes_boot startSample) false).2,
    show (sampleBoot msgDiscover).mac = sampleMac from bootOf_mac ..]
  exact ⟨by decide, by decide, fun h => absurd (h.mp noOffer_none 0) (by decide)⟩

end SerialNet.Dhcp
