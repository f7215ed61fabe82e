import SerialNet.Dhcp.Table
import SerialNet.Lib.Run

/-!
# The lease table invariant

`leaseTable_run`: from the table `DHCPS_Start` builds, over every sequence of
messages, ticks and deletes, no client holds two active entries, a bound
client holds no other entry, and no message touches another client's active
entry.
-/

namespace SerialNet.Dhcp

open Run

inductive Op
  | message (mac : Mac) (msgType : UInt8) (reqIpAddr serverId xid : UInt32)
  | tick (ap : Slot → UInt8)
  | clientDelete (mac : Option Mac)

def step (srv : DhcpServer) : Op → DhcpServer
  | .message mac msgType reqIpAddr serverId xid => (handleMessage srv mac msgType reqIpAddr serverId xid).1
  | .tick ap => dhcpTickHandle srv ap
  | .clientDelete mac => (dhcpsClientDelete srv mac).1

structure LeaseInv (t : Table) : Prop where
  uniqueActive : UniqueActive t
  uniqueHistory : ∀ i j, (t i).macAddr ≠ zeroMac → (t i).state = .idle → (t j).state = .idle →
    (t i).macAddr = (t j).macAddr → i = j
  boundAlone : ∀ i j, (t i).macAddr ≠ zeroMac → (t i).state = .bind → (t j).macAddr = (t i).macAddr → j = i
  noSelect : NoSelect t

/-! ## Entries that go idle -/

/-- `c'` is `c` with its counters changed, or gone idle. A MAC survives going
idle only from BIND. -/
def Aged (c c' : DhcpClient) : Prop :=
  (c'.state = c.state ∧ c'.macAddr = c.macAddr) ∨
    (c'.state = .idle ∧ (c'.macAddr = zeroMac ∨ (c.state = .bind ∧ c'.macAddr = c.macAddr)))

theorem Aged.refl (c : DhcpClient) : Aged c c := .inl ⟨rfl, rfl⟩

theorem Aged.active {c c' : DhcpClient} (h : Aged c c') (ha : Active c') :
    c'.state = c.state ∧ c'.macAddr = c.macAddr :=
  h.resolve_right fun h => ha h.1

theorem Aged.mac {c c' : DhcpClient} (h : Aged c c') (hz : c'.macAddr ≠ zeroMac) : c'.macAddr = c.macAddr := by
  rcases h with ⟨_, h⟩ | ⟨_, h | ⟨_, h⟩⟩
  · exact h
  · exact absurd h hz
  · exact h

theorem Aged.idle {c c' : DhcpClient} (h : Aged c c') (hi : c'.state = .idle) (hz : c'.macAddr ≠ zeroMac) :
    c.state = .idle ∨ c.state = .bind := by
  rcases h with ⟨h, _⟩ | ⟨_, h | ⟨h, _⟩⟩
  · exact .inl (h ▸ hi)
  · exact absurd h hz
  · exact .inr h

theorem inv_aged {t t' : Table} (h : LeaseInv t) (ha : ∀ i, Aged (t i) (t' i)) : LeaseInv t' where
  uniqueActive i j hi hj hm := by
    obtain ⟨si, mi⟩ := (ha i).active hi
    obtain ⟨sj, mj⟩ := (ha j).active hj
    exact h.uniqueActive i j (fun e => hi (si.trans e)) (fun e => hj (sj.trans e)) (by rw [← mi, ← mj, hm])
  uniqueHistory i j hz hi hj hm := by
    have mi := (ha i).mac hz
    have mj := (ha j).mac (hm ▸ hz)
    have hm' : (t i).macAddr = (t j).macAddr := by rw [← mi, ← mj, hm]
    rcases (ha i).idle hi hz with si | si
    · rcases (ha j).idle hj (hm ▸ hz) with sj | sj
      · exact h.uniqueHistory i j (mi ▸ hz) si sj hm'
      · exact h.boundAlone j i (mj ▸ hm ▸ hz) sj hm'
    · exact (h.boundAlone i j (mi ▸ hz) si hm'.symm).symm
  boundAlone i j hz hb hm := by
    obtain ⟨si, mi⟩ := (ha i).active (by simp [Active, hb])
    have mj := (ha j).mac (hm ▸ hz)
    exact h.boundAlone i j (mi ▸ hz) (si ▸ hb) (by rw [← mi, ← mj, hm])
  noSelect i hs := by
    obtain ⟨si, _⟩ := (ha i).active (by simp [Active, hs])
    exact h.noSelect i (si ▸ hs)

theorem aged_modify {t : Table} {i : Slot} {f : DhcpClient → DhcpClient} (h : Aged (t i) (f (t i))) (j : Slot) :
    Aged (t j) (modify t i f j) := by
  by_cases hj : j = i
  · subst hj; simpa using h
  · simpa [hj] using Aged.refl (t j)

theorem aged_goIdle_forget (c : DhcpClient) : Aged c (goIdle (forgetUnlessBind c)) := by
  unfold forgetUnlessBind
  split
  · exact .inr ⟨rfl, .inl rfl⟩
  · rename_i hb
    exact .inr ⟨rfl, .inr ⟨not_not.mp hb, rfl⟩⟩

theorem aged_tickRequest (c : DhcpClient) : Aged c (tickRequest c) := by
  simp only [tickRequest]
  split
  · split
    · exact .inr ⟨rfl, .inl rfl⟩
    · exact .inl ⟨rfl, rfl⟩
  · exact Aged.refl c

/-- Whichever counter ran out, the MAC of the bound client stays. -/
theorem aged_tickBind (ap : UInt8) {c : DhcpClient} (hb : c.state = .bind) : Aged c (tickBind ap c) := by
  unfold tickBind
  extract_lets d
  have hm : d.macAddr = c.macAddr := rfl
  have hs : d.state = c.state := rfl
  by_cases hl : c.lease ≠ 0 ∧ d.lease = 0
  · rw [if_pos hl]; exact .inr ⟨rfl, .inr ⟨hb, hm⟩⟩
  rw [if_neg hl]
  by_cases ha : ap = 0
  · rw [if_pos ha]; exact .inr ⟨rfl, .inr ⟨hb, hm⟩⟩
  · rw [if_neg ha]; exact .inl ⟨hs, hm⟩

theorem aged_tickClient (ap : UInt8) (c : DhcpClient) : Aged c (tickClient ap c) := by
  cases hs : c.state with
  | idle => simpa [tickClient, hs] using Aged.refl c
  | select => simpa [tickClient, hs] using Aged.refl c
  | request => simpa [tickClient, hs] using aged_tickRequest c
  | bind => simpa [tickClient, hs] using aged_tickBind ap hs

/-! ## Entries that are given to a client -/

theorem noOther_eq {t : Table} {mac : Mac} {i : Slot} (h : NoOther t mac i) {j : Slot} (ha : Active (t j))
    (hm : (t j).macAddr = mac) : j = i :=
  Classical.byContradiction fun hj => h j hj ha hm

theorem offerTo_other (t : Table) {i j : Slot} (mac : Mac) (h : j ≠ i) : offerTo t i mac j = t j :=
  modify_other _ _ h

theorem inv_offerTo {t : Table} {mac : Mac} {i : Slot} (h : LeaseInv t) (hn : NoOther t mac i) :
    LeaseInv (offerTo t i mac) := by
  have si : (offerTo t i mac i).state = .request := by simp [offerTo]
  have mi : (offerTo t i mac i).macAddr = mac := by simp [offerTo]
  have ne_of_idle : ∀ {j}, (offerTo t i mac j).state ≠ .request → j ≠ i := fun hj e => hj (e ▸ si)
  constructor
  · intro j k hj hk hm
    by_cases ej : j = i
    · by_cases ek : k = i
      · rw [ej, ek]
      · subst ej
        rw [offerTo_other t mac ek] at hk hm
        rw [mi] at hm
        exact (noOther_eq hn hk hm.symm).symm
    · rw [offerTo_other t mac ej] at hj hm
      by_cases ek : k = i
      · subst ek
        rw [mi] at hm
        exact noOther_eq hn hj hm
      · rw [offerTo_other t mac ek] at hk hm
        exact h.uniqueActive j k hj hk hm
  · intro j k hz hj hk hm
    have ej : j ≠ i := ne_of_idle (by simp [hj])
    have ek : k ≠ i := ne_of_idle (by simp [hk])
    rw [offerTo_other t mac ej] at hz hj hm
    rw [offerTo_other t mac ek] at hk hm
    exact h.uniqueHistory j k hz hj hk hm
  · intro j k hz hj hm
    have ej : j ≠ i := ne_of_idle (by simp [hj])
    rw [offerTo_other t mac ej] at hz hj hm
    by_cases ek : k = i
    · subst ek
      rw [mi] at hm
      exact (noOther_eq hn (by simp [Active, hj]) hm.symm).symm
    · rw [offerTo_other t mac ek] at hm
      exact h.boundAlone j k hz hj hm
  · intro j hj
    have ej : j ≠ i := ne_of_idle (by simp [hj])
    rw [offerTo_other t mac ej] at hj
    exact h.noSelect j hj

theorem bindTo_self (t : Table) (i : Slot) (mac : Mac) :
    bindTo t i mac i = { t i with macAddr := mac, lease := defaultLeaseTime, state := .bind } := by
  simp [bindTo, cleanClientHistory]

theorem bindTo_other (t : Table) {i j : Slot} (mac : Mac) (h : j ≠ i) :
    bindTo t i mac j = if (t j).state = .idle ∧ (t j).macAddr = mac then { t j with macAddr := zeroMac } else t j := by
  simp [bindTo, cleanClientHistory, modify_other _ _ h]

theorem bindTo_active (t : Table) {i j : Slot} (mac : Mac) (h : j ≠ i) (ha : Active (t j)) :
    bindTo t i mac j = t j := by
  rw [bindTo_other t mac h, if_neg fun hc => ha hc.1]

theorem bindTo_state (t : Table) {i j : Slot} (mac : Mac) (h : j ≠ i) : (bindTo t i mac j).state = (t j).state := by
  rw [bindTo_other t mac h]; split <;> rfl

/-- No other entry holds the bound client's MAC, unless it is the zero MAC. -/
theorem bindTo_mac {t : Table} {mac : Mac} {i : Slot} (hn : NoOther t mac i) {j : Slot} (h : j ≠ i)
    (hz : (bindTo t i mac j).macAddr ≠ zeroMac) :
    (bindTo t i mac j).macAddr ≠ mac ∧ (bindTo t i mac j).macAddr = (t j).macAddr := by
  rw [bindTo_other t mac h] at hz ⊢
  by_cases hc : (t j).state = .idle ∧ (t j).macAddr = mac
  · simp [hc] at hz
  · rw [if_neg hc]
    refine ⟨fun hm => ?_, rfl⟩
    by_cases hi : (t j).state = .idle
    · exact hc ⟨hi, hm⟩
    · exact hn j h hi hm

theorem inv_bindTo {t : Table} {mac : Mac} {i : Slot} (h : LeaseInv t) (hn : NoOther t mac i) :
    LeaseInv (bindTo t i mac) := by
  have si : (bindTo t i mac i).state = .bind := by rw [bindTo_self]
  have mi : (bindTo t i mac i).macAddr = mac := by rw [bindTo_self]
  have back : ∀ {j}, j ≠ i → Active (bindTo t i mac j) → Active (t j) := fun hj ha => by
    rwa [Active, bindTo_state t mac hj] at ha
  constructor
  · intro j k hj hk hm
    by_cases ej : j = i
    · by_cases ek : k = i
      · rw [ej, ek]
      · subst ej
        have hk' := back ek hk
        rw [mi, bindTo_active t mac ek hk'] at hm
        exact (noOther_eq hn hk' hm.symm).symm
    · have hj' := back ej hj
      rw [bindTo_active t mac ej hj'] at hm
      by_cases ek : k = i
      · subst ek
        rw [mi] at hm
        exact noOther_eq hn hj' hm
      · have hk' := back ek hk
        rw [bindTo_active t mac ek hk'] at hm
        exact h.uniqueActive j k hj' hk' hm
  · intro j k hz hj hk hm
    have ej : j ≠ i := fun e => by rw [e, si] at hj; cases hj
    have ek : k ≠ i := fun e => by rw [e, si] at hk; cases hk
    have mj := (bindTo_mac hn ej hz).2
    have mk := (bindTo_mac hn ek (hm ▸ hz)).2
    rw [bindTo_state t mac ej] at hj
    rw [bindTo_state t mac ek] at hk
    exact h.uniqueHistory j k (mj ▸ hz) hj hk (by rw [← mj, ← mk, hm])
  · intro j k hz hj hm
    by_cases ej : j = i
    · subst ej
      by_cases ek : k = j
      · exact ek
      · exact absurd (hm.trans mi) (bindTo_mac hn ek (hm ▸ hz)).1
    · have mj := bindTo_mac hn ej hz
      rw [bindTo_state t mac ej] at hj
      by_cases ek : k = i
      · subst ek
        exact absurd (hm.symm.trans mi) mj.1
      · have mk := (bindTo_mac hn ek (hm ▸ hz)).2
        exact h.boundAlone j k (mj.2 ▸ hz) hj (by rw [← mj.2, ← mk, hm])
  · intro j hj
    by_cases ej : j = i
    · rw [ej, si] at hj; cases hj
    · rw [bindTo_state t mac ej] at hj
      exact h.noSelect j hj

/-! ## One step -/

theorem inv_dropped {t t' : Table} {mac : Mac} (h : LeaseInv t) (hd : Dropped t mac t') : LeaseInv t' := by
  cases hd with
  | same => exact h
  | drop my _ _ => exact inv_aged h (aged_modify (aged_goIdle_forget _))
  | dropForget my _ _ => exact inv_aged h (aged_modify (.inr ⟨rfl, .inl rfl⟩))

theorem inv_message {t t' : Table} {mac : Mac} (h : LeaseInv t) (ho : MessageOutcome t mac t') : LeaseInv t' := by
  cases ho with
  | dropped t' hd => exact inv_dropped h hd
  | offer t' i hd hn _ => exact inv_offerTo (inv_dropped h hd) hn
  | bind t' i hd hn _ => exact inv_bindTo (inv_dropped h hd) hn

theorem inv_clientDelete {srv : DhcpServer} (h : LeaseInv srv.clients) (mac : Option Mac) :
    LeaseInv (dhcpsClientDelete srv mac).1.clients := by
  unfold dhcpsClientDelete
  split
  · exact h
  cases mac with
  | none => exact h
  | some mac =>
    dsimp only
    split
    · exact h
    · rename_i i _
      split
      · exact h
      · rename_i hb
        exact inv_aged h (aged_modify (.inr ⟨rfl, .inr ⟨not_not.mp hb, rfl⟩⟩))

theorem inv_step {srv : DhcpServer} (h : LeaseInv srv.clients) (op : Op) : LeaseInv (step srv op).clients := by
  cases op with
  | message mac msgType ip sid xid =>
    exact inv_message h (message_cases srv h.uniqueActive h.noSelect mac msgType ip sid xid)
  | tick ap =>
    simp only [step, dhcpTickHandle]
    split
    · exact inv_aged h fun i => aged_tickClient (ap i) (srv.clients i)
    · exact h
  | clientDelete mac => exact inv_clientDelete h mac

theorem inv_start {srv₀ srv : DhcpServer} {netif : Netif} {udpNew : Option Nat} {rc : Int}
    (hup : netif.isUp = true) (h : dhcpsStart srv₀ netif udpNew = some (srv, rc)) : LeaseInv srv.clients := by
  have fresh : ∀ i, (srv.clients i).state = .idle ∧ (srv.clients i).macAddr = zeroMac := by
    simp only [dhcpsStart, hup, Bool.true_eq_false, if_false, Option.bind_eq_some_iff] at h
    obtain ⟨tmp, _, h⟩ := h
    split at h
    · simp only [Option.some.injEq, Prod.mk.injEq] at h
      obtain ⟨rfl, _⟩ := h
      exact fun i => ⟨rfl, rfl⟩
    · cases h
  constructor
  · intro i j hi _ _; exact absurd (fresh i).1 hi
  · intro i j hz _ _ _; exact absurd (fresh i).2 hz
  · intro i j hz _ _; exact absurd (fresh i).2 hz
  · intro i hi; rw [(fresh i).1] at hi; cases hi

/-! ## Other clients' entries -/

theorem dropped_other {t t' : Table} {mac : Mac} (hd : Dropped t mac t') {j : Slot} (hm : (t j).macAddr ≠ mac) :
    t' j = t j := by
  have ne : ∀ {my}, (t my).macAddr = mac → j ≠ my := fun hmy e => hm (e ▸ hmy)
  cases hd with
  | same => rfl
  | drop my _ hmy => exact modify_other _ _ (ne hmy)
  | dropForget my _ hmy => exact modify_other _ _ (ne hmy)

/-- A message from `mac` leaves every active entry of another client as it was. -/
theorem message_other {t t' : Table} {mac : Mac} (ho : MessageOutcome t mac t') {j : Slot} (ha : Active (t j))
    (hm : (t j).macAddr ≠ mac) : t' j = t j := by
  have ne : ∀ {i}, ((t i).state = .idle ∨ (t i).macAddr = mac) → j ≠ i := by
    rintro i (hi | hi) rfl
    · exact ha hi
    · exact hm hi
  cases ho with
  | dropped t' hd => exact dropped_other hd hm
  | offer t₁ i hd _ hi =>
    rw [offerTo_other t₁ mac (ne hi), dropped_other hd hm]
  | bind t₁ i hd _ hi =>
    have h₁ := dropped_other hd hm
    rw [bindTo_active t₁ mac (ne hi) (h₁ ▸ ha), h₁]

/-! ## Runs -/

theorem inv_run {srv : DhcpServer} (h : LeaseInv srv.clients) (ops : List Op) :
    LeaseInv (run step srv ops).clients :=
  run_inv step (I := fun srv => LeaseInv srv.clients) (fun _ op h => inv_step h op) h ops

/-- **The lease table.** Whatever messages, ticks and deletes follow
`DHCPS_Start`, each client holds at most one active entry and at most one idle
one, a bound client only the bound one, no entry is left in SELECT, and the
next message changes no active entry of another client. -/
theorem leaseTable_run {srv₀ srv : DhcpServer} {netif : Netif} {udpNew : Option Nat} {rc : Int}
    (hup : netif.isUp = true) (h : dhcpsStart srv₀ netif udpNew = some (srv, rc)) (ops : List Op) :
    LeaseInv (run step srv ops).clients ∧
      ∀ mac msgType ip sid xid j, Active ((run step srv ops).clients j) →
        ((run step srv ops).clients j).macAddr ≠ mac →
        (run step srv (ops ++ [.message mac msgType ip sid xid])).clients j = (run step srv ops).clients j := by
  have hi := inv_run (inv_start hup h) ops
  refine ⟨hi, fun mac msgType ip sid xid j ha hm => ?_⟩
  rw [run_snoc]
  exact message_other (message_cases _ hi.uniqueActive hi.noSelect mac msgType ip sid xid) ha hm

def sampleNetif : Netif := { isUp := true, ipAddr := 0x0100a8c0, netmask := 0x00ffffff }

def sampleMac : Mac := .replicate 6 2

def noServer : DhcpServer :=
  { enable := false, socket := none, serverIpAddr := 0, startIpAddr := 0, subnetMask := 0, gateWay := 0
    dns1 := 0, dns2 := 0, leaseTime := 0
    clients := fun _ => { state := .idle, timeout := 0, ipAddr := 0, macAddr := zeroMac, lease := 0 } }

theorem leaseTable_run_sample :
    ∃ srv rc, dhcpsStart noServer sampleNetif (some 1) = some (srv, rc) ∧ LeaseInv (run step srv
      [.message sampleMac msgDiscover 0 0 1, .message sampleMac msgRequest 0 0 1, .tick fun _ => 1]).clients := by
  cases h : dhcpsStart noServer sampleNetif (some 1) with
  | none => exact absurd h (by decide)
  | some p => exact ⟨p.1, p.2, rfl, (leaseTable_run rfl h _).1⟩

end SerialNet.Dhcp
