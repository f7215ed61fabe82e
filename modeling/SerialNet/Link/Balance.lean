import SerialNet.Link.Services

/-!
# When the services follow the link

The pcbs and the tick balance along a run exactly when no link-up starts a server
that is open, and each link-down stops what is open, once. Starting and stopping
are described by what they do to the books, the same for both servers.
-/

namespace SerialNet.Link

open Run
open Dhcp (DhcpServer dhcpsStart)
open Param (CfgParam)

/-! ## The books -/

structure Books (s : Services) : Prop where
  removedOnce : s.removed.Nodup
  numbered : ∀ v n, (v, n) ∈ s.created → n < s.created.length
  removedOld : ∀ n ∈ s.removed, n < s.created.length
  owner : ∀ v w n, (v, n) ∈ s.created → (w, n) ∈ s.created → v = w
  field : ∀ v n, s.socket v = some n → (v, n) ∈ s.created
  notLost : ∀ v n, s.Open v n → s.socket v = some n

/-- `s'` is `s` after the start of `v`. -/
structure Started (v : Service) (ok : Bool) (s s' : Services) : Prop where
  created : s'.created = if ok then (v, s.created.length) :: s.created else s.created
  removed : s'.removed = s.removed
  socket : s'.socket v = s.udpNew ok
  other : ∀ w, w ≠ v → s'.socket w = s.socket w

/-- `s'` is `s` after the stop of `v`. -/
structure Stopped (v : Service) (s s' : Services) : Prop where
  created : s'.created = s.created
  removed : s'.removed = (s.socket v).toList ++ s.removed
  socket : s'.socket v = none ∨ s'.socket v = s.socket v
  other : ∀ w, w ≠ v → s'.socket w = s.socket w

section
variable {s s' : Services} {v : Service} {ok : Bool}

theorem Books.holds_iff (hb : Books s) : s.Holds v ↔ ∃ n, s.Open v n := by
  constructor
  · rintro ⟨n, hs, hn⟩
    exact ⟨n, hb.field v n hs, hn⟩
  · rintro ⟨n, hn⟩
    exact ⟨n, hb.notLost v n hn, hn.2⟩

theorem Started.books (h : Started v ok s s') (hb : Books s) (hh : ¬s.Holds v) : Books s' := by
  have hlen : s.created.length ≤ s'.created.length := by
    rw [h.created]
    split
    · exact Nat.le_succ _
    · exact Nat.le_refl _
  have hmem : ∀ w n, (w, n) ∈ s'.created → (w, n) ∈ s.created ∨ (w = v ∧ ok = true ∧ n = s.created.length) := by
    intro w n hn
    rw [h.created] at hn
    split at hn
    · rename_i hok
      rcases List.mem_cons.mp hn with he | hn
      · cases he
        exact .inr ⟨rfl, hok, rfl⟩
      · exact .inl hn
    · exact .inl hn
  have hsub : ∀ w n, (w, n) ∈ s.created → (w, n) ∈ s'.created := by
    intro w n hn
    rw [h.created]
    split
    · exact List.mem_cons_of_mem _ hn
    · exact hn
  refine ⟨?_, ?_, ?_, ?_, ?_, ?_⟩
  · rw [h.removed]
    exact hb.removedOnce
  · intro w n hn
    rcases hmem w n hn with hn | ⟨_, hok, rfl⟩
    · exact Nat.lt_of_lt_of_le (hb.numbered w n hn) hlen
    · rw [h.created, if_pos hok]
      exact Nat.lt_succ_self _
  · intro n hn
    rw [h.removed] at hn
    exact Nat.lt_of_lt_of_le (hb.removedOld n hn) hlen
  · intro w₁ w₂ n hn₁ hn₂
    rcases hmem w₁ n hn₁ with h₁ | ⟨rfl, _, rfl⟩
    · rcases hmem w₂ n hn₂ with h₂ | ⟨_, _, rfl⟩
      · exact hb.owner w₁ w₂ n h₁ h₂
      · exact absurd (hb.numbered _ _ h₁) (Nat.lt_irrefl _)
    · rcases hmem w₂ _ hn₂ with h₂ | ⟨rfl, _, _⟩
      · exact absurd (hb.numbered _ _ h₂) (Nat.lt_irrefl _)
      · rfl
  · intro w n hn
    by_cases hw : w = v
    · subst hw
      rw [h.socket, Services.udpNew] at hn
      split at hn
      · rename_i hok
        cases hn
        rw [h.created, if_pos hok]
        exact List.mem_cons_self
      · cases hn
    · rw [h.other w hw] at hn
      exact hsub w n (hb.field w n hn)
  · rintro w n ⟨hn, hr⟩
    rw [h.removed] at hr
    rcases hmem w n hn with hn | ⟨rfl, hok, rfl⟩
    · by_cases hw : w = v
      · subst hw
        exact absurd (hb.holds_iff.mpr ⟨n, hn, hr⟩) hh
      · rw [h.other w hw]
        exact hb.notLost w n ⟨hn, hr⟩
    · rw [h.socket, Services.udpNew, if_pos hok]

theorem Started.stillOpen (h : Started v ok s s') {w : Service} {n : Nat} (ho : s.Open w n) : s'.Open w n := by
  refine ⟨?_, by rw [h.removed]; exact ho.2⟩
  rw [h.created]
  split
  · exact List.mem_cons_of_mem _ ho.1
  · exact ho.1

/-- Starting a server that is open loses its pcb. -/
theorem Started.lost (h : Started v ok s s') (hb : Books s) (hh : s.Holds v) :
    ∃ n, s'.Open v n ∧ s'.socket v ≠ some n := by
  obtain ⟨n, hn, hr⟩ := hb.holds_iff.mp hh
  refine ⟨n, h.stillOpen ⟨hn, hr⟩, ?_⟩
  · rw [h.socket, Services.udpNew]
    have := hb.numbered v n hn
    split
    · intro he
      cases he
      omega
    · nofun

theorem Started.holds (h : Started v ok s s') {w : Service} (hw : w ≠ v) : s'.Holds w ↔ s.Holds w := by
  unfold Services.Holds
  rw [h.other w hw, h.removed]

theorem Stopped.closed (h : Stopped v s s') (hb : Books s) (n : Nat) : ¬s'.Open v n := by
  rintro ⟨hn, hr⟩
  rw [h.created] at hn
  rw [h.removed, List.mem_append, not_or] at hr
  have := hb.notLost v n ⟨hn, hr.2⟩
  exact hr.1 (by simp [this])

theorem Stopped.books (h : Stopped v s s') (hb : Books s) (hf : ∀ n, s.socket v = some n → n ∉ s.removed) :
    Books s' := by
  have hrem : ∀ n ∈ s'.removed, s.socket v = some n ∨ n ∈ s.removed := by
    intro n hn
    rw [h.removed] at hn
    exact (List.mem_append.mp hn).imp (by simp) id
  refine ⟨?_, ?_, ?_, ?_, ?_, ?_⟩
  · rw [h.removed]
    cases hs : s.socket v with
    | none => exact hb.removedOnce
    | some n => exact List.nodup_cons.mpr ⟨hf n hs, hb.removedOnce⟩
  · rw [h.created]
    exact hb.numbered
  · intro n hn
    rw [h.created]
    rcases hrem n hn with hs | hr
    · exact hb.numbered v n (hb.field v n hs)
    · exact hb.removedOld n hr
  · rw [h.created]
    exact hb.owner
  · intro w n hn
    rw [h.created]
    by_cases hw : w = v
    · subst hw
      rcases h.socket with he | he
      · rw [he] at hn
        cases hn
      · exact hb.field w n (he ▸ hn)
    · exact hb.field w n (h.other w hw ▸ hn)
  · intro w n hn
    by_cases hw : w = v
    · subst hw
      exact absurd hn (h.closed hb n)
    · rw [h.other w hw]
      obtain ⟨hc, hr⟩ := hn
      rw [h.created] at hc
      rw [h.removed, List.mem_append, not_or] at hr
      exact hb.notLost w n ⟨hc, hr.2⟩

/-- Stopping one server leaves the pcb of the other open. -/
theorem Stopped.stillOpen (h : Stopped v s s') (hb : Books s) {w : Service} (hw : w ≠ v) {n : Nat}
    (ho : s.Open w n) : s'.Open w n := by
  refine ⟨by rw [h.created]; exact ho.1, ?_⟩
  rw [h.removed, List.mem_append, not_or]
  refine ⟨fun hn => ?_, ho.2⟩
  have hs : s.socket v = some n := by simpa using hn
  exact hw (hb.owner w v n ho.1 (hb.field v n hs))

theorem Stopped.wasOpen (h : Stopped v s s') {w : Service} {n : Nat} (ho : s'.Open w n) : s.Open w n := by
  refine ⟨by rw [← h.created]; exact ho.1, fun hn => ho.2 ?_⟩
  rw [h.removed]
  exact List.mem_append_right _ hn

/-- Stopping a server whose field names a removed pcb removes it again. -/
theorem Stopped.twice (h : Stopped v s s') {n : Nat} (hs : s.socket v = some n) (hr : n ∈ s.removed) :
    ¬s'.removed.Nodup := by
  rw [h.removed, hs]
  exact fun hd => (List.nodup_cons.mp hd).1 hr

end

/-! ## The operations -/

@[simp] theorem create_created (s : Services) (v : Service) (ok : Bool) :
    (s.create v (s.udpNew ok)).created = if ok then (v, s.created.length) :: s.created else s.created := by
  cases ok <;> rfl

@[simp] theorem create_removed (s : Services) (v : Service) (pcb : Option Nat) : (s.create v pcb).removed = s.removed := by
  cases pcb <;> rfl

@[simp] theorem create_dhcp (s : Services) (v : Service) (pcb : Option Nat) : (s.create v pcb).dhcp = s.dhcp := by
  cases pcb <;> rfl

@[simp] theorem create_dns (s : Services) (v : Service) (pcb : Option Nat) : (s.create v pcb).dns = s.dns := by
  cases pcb <;> rfl

@[simp] theorem create_ticks (s : Services) (v : Service) (pcb : Option Nat) : (s.create v pcb).ticks = s.ticks := by
  cases pcb <;> rfl

@[simp] theorem create_halted (s : Services) (v : Service) (pcb : Option Nat) : (s.create v pcb).halted = s.halted := by
  cases pcb <;> rfl

@[simp] theorem remove_removed (s : Services) (pcb : Option Nat) : (s.remove pcb).removed = pcb.toList ++ s.removed := by
  cases pcb <;> rfl

@[simp] theorem remove_created (s : Services) (pcb : Option Nat) : (s.remove pcb).created = s.created := by
  cases pcb <;> rfl

@[simp] theorem remove_dhcp (s : Services) (pcb : Option Nat) : (s.remove pcb).dhcp = s.dhcp := by
  cases pcb <;> rfl

@[simp] theorem remove_dns (s : Services) (pcb : Option Nat) : (s.remove pcb).dns = s.dns := by
  cases pcb <;> rfl

@[simp] theorem remove_ticks (s : Services) (pcb : Option Nat) : (s.remove pcb).ticks = s.ticks := by
  cases pcb <;> rfl

theorem dhcpsStart_div {srv : DhcpServer} {cfg : CfgParam} {pcb : Option Nat} (h : Divides cfg) :
    dhcpsStart srv (netifOf cfg) pcb = none := by
  have h' : ~~~(Dhcp.htonl (netifOf cfg).netmask) = 0 := h
  simp only [dhcpsStart, Dhcp.modOrOne, h', if_true, Option.bind_none]
  rfl

theorem dhcpsStart_some (srv : DhcpServer) {cfg : CfgParam} (pcb : Option Nat) (h : ¬Divides cfg) :
    ∃ srv' rc, dhcpsStart srv (netifOf cfg) pcb = some (srv', rc) ∧ srv'.socket = pcb ∧ srv'.enable = pcb.isSome := by
  have h' : ~~~(Dhcp.htonl (netifOf cfg).netmask) ≠ 0 := h
  have hall : ∀ start, (List.finRange Dhcp.historyClientNum).all
      (fun i => (Dhcp.poolAddr start (Dhcp.htonl (netifOf cfg).netmask) i).isSome) = true := by
    intro start
    rw [List.all_eq_true]
    intro i _
    simp only [Dhcp.poolAddr, Dhcp.modOrOne, h', if_false, Option.map_some, Option.isSome_some]
  simp only [dhcpsStart, Dhcp.modOrOne, h', if_false, Option.bind_some, hall, if_true]
  exact ⟨_, _, rfl, rfl, rfl⟩

theorem Service.eq_dns {w : Service} (h : w ≠ .dhcp) : w = .dns := by
  cases w with
  | dhcp => exact absurd rfl h
  | dns => rfl

theorem Service.eq_dhcp {w : Service} (h : w ≠ .dns) : w = .dhcp := by
  cases w with
  | dhcp => rfl
  | dns => exact absurd rfl h

theorem startDhcp_started (s : Services) (cfg : CfgParam) (ok : Bool) :
    ∃ ok', Started .dhcp ok' s (startDhcp s cfg ok).1 ∧
      (startDhcp s cfg ok).1.ticks = s.ticks + ok'.toNat ∧ (startDhcp s cfg ok).1.dhcp.enable = ok' ∧
      (startDhcp s cfg ok).1.halted = (s.halted || decide (Divides cfg)) := by
  by_cases hd : Divides cfg
  · have he : (startDhcp s cfg ok).1 = { s with dhcp := .zero, halted := true } := by
      rw [startDhcp, dhcpsStart_div hd]
    rw [he]
    refine ⟨false, ⟨rfl, rfl, rfl, fun w hw => ?_⟩, rfl, rfl, by simp [hd]⟩
    rw [Service.eq_dns hw]
    rfl
  · obtain ⟨srv, rc, hsrv, hsock, hen⟩ := dhcpsStart_some s.dhcp (s.udpNew ok) hd
    have he : (startDhcp s cfg ok).1 =
        { s.create .dhcp (s.udpNew ok) with dhcp := srv, ticks := if ok then s.ticks + 1 else s.ticks } := by
      rw [startDhcp, hsrv]
    rw [he]
    refine ⟨ok, ⟨create_created s .dhcp ok, create_removed s .dhcp _, hsock, fun w hw => ?_⟩, ?_, ?_, ?_⟩
    · rw [Service.eq_dns hw]
      exact congrArg Dns.DnsServer.socket (create_dns s .dhcp _)
    · cases ok <;> rfl
    · cases ok <;> exact hen
    · simp [hd]

theorem startDns_started (s : Services) (cfg : CfgParam) (ok : Bool)
    (hlen : (dnsNameOf cfg).chars.length ≤ Dns.maxName) :
    Started .dns ok s (startDns s cfg ok).1 ∧ (startDns s cfg ok).1.dhcp = s.dhcp ∧
      (startDns s cfg ok).1.ticks = s.ticks ∧ (startDns s cfg ok).1.halted = s.halted := by
  have hlen' : ¬(dnsNameOf cfg).chars.length > Dns.maxName := by omega
  obtain ⟨srv, rc, hsrv, hsock⟩ : ∃ srv rc,
      Dns.dnssStart s.dns true cfg.ipCfg.ip (dnsNameOf cfg) (s.udpNew ok) = (srv, rc) ∧ srv.socket = s.udpNew ok := by
    rw [Dns.dnssStart, if_neg hlen', if_neg (by decide)]
    exact ⟨_, _, rfl, rfl⟩
  have he : (startDns s cfg ok).1 = { s.create .dns (s.udpNew ok) with dns := srv } := by
    rw [startDns, hsrv]
    dsimp only
    rw [if_neg hlen']
  rw [he]
  refine ⟨⟨create_created s .dns ok, create_removed s .dns _, hsock, fun w hw => ?_⟩, create_dhcp s .dns _,
    create_ticks s .dns _, create_halted s .dns _⟩
  rw [Service.eq_dhcp hw]
  exact congrArg DhcpServer.socket (create_dhcp s .dns _)

theorem startDns_long (s : Services) (cfg : CfgParam) (ok : Bool)
    (hlen : ¬(dnsNameOf cfg).chars.length ≤ Dns.maxName) : (startDns s cfg ok).1 = s := by
  rw [startDns]
  dsimp only
  rw [if_pos (by omega)]

theorem stopDhcp_stopped (s : Services) :
    Stopped .dhcp s (stopDhcp s) ∧ (stopDhcp s).dhcp = .zero ∧ (stopDhcp s).ticks = s.ticks - 1 := by
  refine ⟨⟨?_, ?_, .inl rfl, fun w hw => ?_⟩, rfl, rfl⟩
  · exact remove_created s s.dhcp.socket
  · exact remove_removed s s.dhcp.socket
  · rw [Service.eq_dns hw]
    exact congrArg Dns.DnsServer.socket (remove_dns s s.dhcp.socket)

theorem stopDns_stopped (s : Services) :
    Stopped .dns s (stopDns s) ∧ (stopDns s).dhcp = s.dhcp ∧ (stopDns s).ticks = s.ticks := by
  refine ⟨⟨?_, ?_, .inr ?_, fun w hw => ?_⟩, remove_dhcp s _, remove_ticks s _⟩
  · exact remove_created s s.dns.socket
  · exact remove_removed s s.dns.socket
  · exact congrArg Dns.DnsServer.socket (remove_dns s s.dns.socket)
  · rw [Service.eq_dhcp hw]
    exact congrArg DhcpServer.socket (remove_dhcp s s.dns.socket)

/-! ## The events -/

theorem l2LinkUp_eq (s : Services) (cfg : CfgParam) (okDhcp okDns : Bool) :
    (l2LinkUp s cfg okDhcp okDns).1 =
      let s₁ := if runsDhcp cfg then (startDhcp s cfg okDhcp).1 else s
      if cfg.wifiCfg.protocol = netModeSoftap ∧ s₁.halted = true then s₁
      else if runsDns cfg then (startDns s₁ cfg okDns).1 else s₁ := by
  unfold l2LinkUp runsDhcp runsDns
  by_cases hp : cfg.wifiCfg.protocol = netModeSoftap
  · by_cases hd : cfg.bDhcpServer = 0
    · by_cases hn : cfg.bDnsServer = 0
      · simp [hp, hd, hn]
      · by_cases hh : s.halted = true <;> simp [hp, hd, hn, hh]
    · by_cases hn : cfg.bDnsServer = 0
      · simp only [hp, hd, hn, ne_eq, not_true_eq_false, not_false_eq_true, if_true, if_false, true_and, and_self,
          and_false, ite_self]
        split <;> rfl
      · by_cases hh : (startDhcp s cfg okDhcp).1.halted = true <;> simp [hp, hd, hn, hh]
  · simp [hp]

theorem l2LinkDown_eq (s : Services) (cfg : CfgParam) :
    l2LinkDown s cfg =
      let s₁ := if runsDhcp cfg then stopDhcp s else s
      if runsDns cfg then stopDns s₁ else s₁ := by
  unfold l2LinkDown runsDhcp runsDns
  by_cases hp : cfg.wifiCfg.protocol = netModeSoftap
  · simp only [hp, if_true, true_and]
  · simp only [hp, if_false, false_and]

theorem linkUp_cases (s : Services) (cfg : CfgParam) (okDhcp okDns : Bool) (hh : s.halted = false) :
    ∃ s₁ s₂ ok₁, step s (.linkUp cfg okDhcp okDns) = s₂ ∧
      (runsDhcp cfg → Started .dhcp ok₁ s s₁ ∧ s₁.ticks = s.ticks + ok₁.toNat ∧ s₁.dhcp.enable = ok₁) ∧
      (¬runsDhcp cfg → s₁ = s) ∧
      (startsDns cfg → Started .dns okDns s₁ s₂ ∧ s₂.dhcp = s₁.dhcp ∧ s₂.ticks = s₁.ticks) ∧
      (¬startsDns cfg → s₂ = s₁) := by
  obtain ⟨ok₁, hst, ht, hen, hhalt⟩ := startDhcp_started s cfg okDhcp
  obtain ⟨s₁, hs₁⟩ : ∃ s₁, (if runsDhcp cfg then (startDhcp s cfg okDhcp).1 else s) = s₁ := ⟨_, rfl⟩
  have hhalt₁ : s₁.halted = true ↔ runsDhcp cfg ∧ Divides cfg := by
    by_cases hd : runsDhcp cfg
    · rw [← hs₁, if_pos hd, hhalt, hh]
      simp [hd]
    · rw [← hs₁, if_neg hd, hh]
      simp [hd]
  have hstep : step s (.linkUp cfg okDhcp okDns) =
      if cfg.wifiCfg.protocol = netModeSoftap ∧ s₁.halted = true then s₁
      else if runsDns cfg then (startDns s₁ cfg okDns).1 else s₁ := by
    rw [step, if_neg (by simp [hh]), l2LinkUp_eq]
    dsimp only
    rw [hs₁]
  refine ⟨s₁, _, ok₁, rfl, fun h => ?_, fun h => ?_, fun h => ?_, fun h => ?_⟩
  · rw [← hs₁, if_pos h]
    exact ⟨hst, ht, hen⟩
  · rw [← hs₁, if_neg h]
  · obtain ⟨hdns, hlen, hdiv⟩ := h
    obtain ⟨hs, hdhcp, hticks, _⟩ := startDns_started s₁ cfg okDns hlen
    rw [hstep, if_neg (fun hc => hdiv (hhalt₁.mp hc.2)), if_pos hdns]
    exact ⟨hs, hdhcp, hticks⟩
  · rw [hstep]
    split
    · rfl
    · rename_i hnot
      split
      · rename_i hdns
        exact startDns_long s₁ cfg okDns fun hlen => h ⟨hdns, hlen, fun hc => hnot ⟨hdns.1, hhalt₁.mpr hc⟩⟩
      · rfl

theorem linkDown_cases (s : Services) (cfg : CfgParam) (hh : s.halted = false) :
    ∃ s₁ s₂, step s (.linkDown cfg) = s₂ ∧
      (runsDhcp cfg → Stopped .dhcp s s₁ ∧ s₁.dhcp = .zero ∧ s₁.ticks = s.ticks - 1) ∧
      (¬runsDhcp cfg → s₁ = s) ∧
      (runsDns cfg → Stopped .dns s₁ s₂ ∧ s₂.dhcp = s₁.dhcp ∧ s₂.ticks = s₁.ticks) ∧
      (¬runsDns cfg → s₂ = s₁) := by
  have hstep : step s (.linkDown cfg) = l2LinkDown s cfg := by
    rw [step, if_neg (by simp [hh])]
  refine ⟨if runsDhcp cfg then stopDhcp s else s, _, rfl, fun h => ?_, fun h => if_neg h, fun h => ?_, fun h => ?_⟩
  · rw [if_pos h]
    exact stopDhcp_stopped s
  · rw [hstep, l2LinkDown_eq]
    dsimp only
    rw [if_pos h]
    exact stopDns_stopped _
  · rw [hstep, l2LinkDown_eq]
    exact if_neg h

/-! ## The invariant of a run -/

structure Inv (s : Services) : Prop where
  books : Books s
  dhcpOpen : ∀ n, s.dhcp.socket = some n → n ∉ s.removed
  ticks : s.ticks = s.dhcp.enable.toNat
  enable : s.dhcp.enable = s.dhcp.socket.isSome

theorem inv_init : Inv Services.init := by
  refine ⟨⟨List.nodup_nil, nofun, nofun, nofun, ?_, nofun⟩, nofun, rfl, rfl⟩
  intro v n h
  cases v <;> cases h

section
variable {s s' : Services} {ok : Bool}

theorem Inv.balanced (hi : Inv s) : Balanced s := by
  refine ⟨hi.books.removedOnce, hi.books.notLost, fun v n n' hn hn' => ?_, ?_⟩
  · have h := hi.books.notLost v n hn
    rw [hi.books.notLost v n' hn', Option.some.injEq] at h
    exact h.symm
  · rw [hi.ticks]
    exact Bool.toNat_le _

theorem Inv.idle (hi : Inv s) (hh : ¬s.Holds .dhcp) : s.dhcp.socket = none ∧ s.ticks = 0 := by
  have hs : s.dhcp.socket = none := by
    cases hs : s.dhcp.socket with
    | none => rfl
    | some n => exact absurd ⟨n, hs, hi.dhcpOpen n hs⟩ hh
  refine ⟨hs, ?_⟩
  rw [hi.ticks, hi.enable, hs]
  rfl

theorem Inv.startedDhcp (hi : Inv s) (hh : ¬s.Holds .dhcp) (h : Started .dhcp ok s s')
    (ht : s'.ticks = s.ticks + ok.toNat) (hen : s'.dhcp.enable = ok) : Inv s' := by
  have hsock : s'.dhcp.socket = s.udpNew ok := h.socket
  refine ⟨h.books hi.books hh, fun n hn => ?_, ?_, ?_⟩
  · rw [hsock, Services.udpNew] at hn
    rw [h.removed]
    split at hn
    · cases hn
      exact fun hr => Nat.lt_irrefl _ (hi.books.removedOld _ hr)
    · cases hn
  · rw [ht, hen, (hi.idle hh).2, Nat.zero_add]
  · rw [hen, hsock, Services.udpNew]
    cases ok <;> rfl

theorem Inv.startedDns (hi : Inv s) (hh : ¬s.Holds .dns) (h : Started .dns ok s s') (hd : s'.dhcp = s.dhcp)
    (ht : s'.ticks = s.ticks) : Inv s' := by
  refine ⟨h.books hi.books hh, ?_, ?_, ?_⟩
  · rw [hd, h.removed]
    exact hi.dhcpOpen
  · rw [hd, ht]
    exact hi.ticks
  · rw [hd]
    exact hi.enable

theorem Inv.stoppedDhcp (hi : Inv s) (h : Stopped .dhcp s s') (hd : s'.dhcp = .zero) (ht : s'.ticks = s.ticks - 1) :
    Inv s' := by
  refine ⟨h.books hi.books hi.dhcpOpen, ?_, ?_, ?_⟩
  · rw [hd]
    nofun
  · have := hi.balanced.oneTick
    rw [hd, ht]
    show s.ticks - 1 = 0
    omega
  · rw [hd]
    rfl

theorem Inv.stoppedDns (hi : Inv s) (hf : ∀ n, s.dns.socket = some n → n ∉ s.removed) (h : Stopped .dns s s')
    (hd : s'.dhcp = s.dhcp) (ht : s'.ticks = s.ticks) : Inv s' := by
  refine ⟨h.books hi.books hf, fun n hn => ?_, ?_, ?_⟩
  · rw [hd] at hn
    have ho : s.Open .dhcp n := ⟨hi.books.field .dhcp n hn, hi.dhcpOpen n hn⟩
    exact (h.stillOpen hi.books (by decide) ho).2
  · rw [hd, ht]
    exact hi.ticks
  · rw [hd]
    exact hi.enable

theorem Inv.tick (hi : Inv s) (ap : Dhcp.Slot → UInt8) : Inv (tick s ap) := by
  rw [Link.tick]
  split
  · exact hi
  · rename_i h0
    have hen : s.dhcp.enable = true := by
      cases he : s.dhcp.enable with
      | true => rfl
      | false => exact absurd (by rw [hi.ticks, he]; rfl) h0
    have hsock : (Dhcp.dhcpTickHandle s.dhcp ap).socket = s.dhcp.socket := by
      rw [Dhcp.dhcpTickHandle, if_pos hen]
    have hen' : (Dhcp.dhcpTickHandle s.dhcp ap).enable = s.dhcp.enable := by
      rw [Dhcp.dhcpTickHandle, if_pos hen]
    rw [if_pos hen]
    refine ⟨⟨hi.books.removedOnce, hi.books.numbered, hi.books.removedOld, hi.books.owner, ?_, ?_⟩, ?_, ?_, ?_⟩
    · intro v n hn
      cases v with
      | dhcp => exact hi.books.field .dhcp n (hsock.symm.trans hn)
      | dns => exact hi.books.field .dns n hn
    · intro v n ho
      cases v with
      | dhcp => exact hsock.trans (hi.books.notLost .dhcp n ho)
      | dns => exact hi.books.notLost .dns n ho
    · intro n hn
      exact hi.dhcpOpen n (hsock ▸ hn)
    · exact hi.ticks.trans (congrArg Bool.toNat hen'.symm)
    · exact hen'.trans (hi.enable.trans (congrArg Option.isSome hsock.symm))

end

/-! ## Steps and runs -/

theorem inv_linkUp {s : Services} (hi : Inv s) (hh : s.halted = false) {cfg : CfgParam} {okDhcp okDns : Bool}
    (hk : Keeps s (.linkUp cfg okDhcp okDns)) : Inv (step s (.linkUp cfg okDhcp okDns)) := by
  obtain ⟨s₁, s₂, ok₁, he, hd, hd', hn, hn'⟩ := linkUp_cases s cfg okDhcp okDns hh
  obtain ⟨hkd, hkn⟩ := hk hh
  have h₁ : Inv s₁ ∧ (s₁.Holds .dns ↔ s.Holds .dns) := by
    by_cases hr : runsDhcp cfg
    · obtain ⟨hst, ht, hen⟩ := hd hr
      exact ⟨hi.startedDhcp (hkd hr) hst ht hen, hst.holds (by decide)⟩
    · rw [hd' hr]
      exact ⟨hi, Iff.rfl⟩
  rw [he]
  by_cases hr : startsDns cfg
  · obtain ⟨hst, hdhcp, ht⟩ := hn hr
    exact h₁.1.startedDns (fun h => hkn hr (h₁.2.mp h)) hst hdhcp ht
  · rw [hn' hr]
    exact h₁.1

theorem inv_linkDown {s : Services} (hi : Inv s) (hh : s.halted = false) {cfg : CfgParam}
    (hk : Keeps s (.linkDown cfg)) : Inv (step s (.linkDown cfg)) ∧ Quiet (step s (.linkDown cfg)) := by
  obtain ⟨s₁, s₂, he, hd, hd', hn, hn'⟩ := linkDown_cases s cfg hh
  obtain ⟨hkd, hkn, hfresh⟩ := hk hh
  have h₁ : Inv s₁ ∧ (∀ n, ¬s₁.Open .dhcp n) ∧ s₁.ticks = 0 ∧
      (∀ n, s₁.Open .dns n → s.Open .dns n) ∧ (runsDns cfg → ∀ n, s₁.dns.socket = some n → n ∉ s₁.removed) := by
    by_cases hr : runsDhcp cfg
    · obtain ⟨hst, hz, ht⟩ := hd hr
      have ht1 := hi.balanced.oneTick
      refine ⟨hi.stoppedDhcp hst hz ht, hst.closed hi.books, by omega, fun n => hst.wasOpen, fun hr' n hs => ?_⟩
      have hs' : s.dns.socket = some n := (hst.other .dns (by decide)).symm.trans hs
      exact (hst.stillOpen hi.books (by decide) ⟨hi.books.field .dns n hs', hfresh hr' n hs'⟩).2
    · have hno := mt hkd hr
      rw [hd' hr]
      exact ⟨hi, fun n ho => hno (hi.books.holds_iff.mpr ⟨n, ho⟩), (hi.idle hno).2, fun n => id, hfresh⟩
  obtain ⟨hi₁, hc₁, ht₁, hdns₁, hf₁⟩ := h₁
  rw [he]
  by_cases hr : runsDns cfg
  · obtain ⟨hst, hdhcp, ht⟩ := hn hr
    refine ⟨hi₁.stoppedDns (hf₁ hr) hst hdhcp ht, ⟨fun v n ho => ?_, by rw [ht, ht₁]⟩⟩
    cases v with
    | dhcp => exact hc₁ n (hst.wasOpen ho)
    | dns => exact hst.closed hi₁.books n ho
  · rw [hn' hr]
    refine ⟨hi₁, ⟨fun v n ho => ?_, ht₁⟩⟩
    cases v with
    | dhcp => exact hc₁ n ho
    | dns => exact mt hkn hr (hi.books.holds_iff.mpr ⟨n, hdns₁ n ho⟩)

theorem inv_step (s : Services) (e : Event) (hi : Inv s) (hk : Keeps s e) : Inv (step s e) := by
  cases hh : s.halted with
  | true =>
    have he : step s e = s := if_pos hh
    rwa [he]
  | false =>
    cases e with
    | linkUp cfg okDhcp okDns => exact inv_linkUp hi hh hk
    | linkDown cfg => exact (inv_linkDown hi hh hk).1
    | tick ap =>
      have he : step s (.tick ap) = tick s ap := if_neg (by simp [hh])
      rw [he]
      exact hi.tick ap

theorem follows_of_keeps {s : Services} {e : Event} (hi : Inv s) (hk : Keeps s e) : Follows s e := by
  refine ⟨(inv_step s e hi hk).balanced, fun cfg he hh => ?_⟩
  subst he
  exact (inv_linkDown hi hh hk).2

/-- A link-up that starts an open server loses its pcb. -/
theorem keeps_of_balanced_up {s : Services} (hi : Inv s) (hh : s.halted = false) {cfg : CfgParam} {okDhcp okDns : Bool}
    (hb : Balanced (step s (.linkUp cfg okDhcp okDns))) :
    (runsDhcp cfg → ¬s.Holds .dhcp) ∧ (startsDns cfg → ¬s.Holds .dns) := by
  obtain ⟨s₁, s₂, ok₁, he, hd, hd', hn, hn'⟩ := linkUp_cases s cfg okDhcp okDns hh
  rw [he] at hb
  have hdhcp : runsDhcp cfg → ¬s.Holds .dhcp := by
    intro hr hold
    obtain ⟨n, ho, hs⟩ := (hd hr).1.lost hi.books hold
    by_cases hr' : startsDns cfg
    · have hst := (hn hr').1
      exact hs ((hst.other .dhcp (by decide)).symm.trans (hb.notLost .dhcp n (hst.stillOpen ho)))
    · rw [hn' hr'] at hb
      exact hs (hb.notLost .dhcp n ho)
  refine ⟨hdhcp, fun hr hold => ?_⟩
  have h₁ : Books s₁ ∧ s₁.Holds .dns := by
    by_cases hr' : runsDhcp cfg
    · have hst := (hd hr').1
      exact ⟨hst.books hi.books (hdhcp hr'), (hst.holds (by decide)).mpr hold⟩
    · rw [hd' hr']
      exact ⟨hi.books, hold⟩
  obtain ⟨n, ho, hs⟩ := (hn hr).1.lost h₁.1 h₁.2
  exact hs (hb.notLost .dns n ho)

/-- A link-down that leaves nothing open, and removes nothing twice. -/
theorem keeps_of_quiet {s : Services} (hi : Inv s) (hh : s.halted = false) {cfg : CfgParam}
    (hb : Balanced (step s (.linkDown cfg))) (hq : Quiet (step s (.linkDown cfg))) :
    (s.Holds .dhcp → runsDhcp cfg) ∧ (s.Holds .dns → runsDns cfg) ∧
      (runsDns cfg → ∀ n, s.dns.socket = some n → n ∉ s.removed) := by
  obtain ⟨s₁, s₂, he, hd, hd', hn, hn'⟩ := linkDown_cases s cfg hh
  rw [he] at hb hq
  have h₁ : Books s₁ := by
    by_cases hr : runsDhcp cfg
    · exact (hd hr).1.books hi.books hi.dhcpOpen
    · rw [hd' hr]
      exact hi.books
  have hdns : ∀ n, s.Open .dns n → s₁.Open .dns n := by
    intro n ho
    by_cases hr : runsDhcp cfg
    · exact (hd hr).1.stillOpen hi.books (by decide) ho
    · rwa [hd' hr]
  refine ⟨fun hold => ?_, fun hold => ?_, fun hr n hs hrem => ?_⟩
  · by_contra hr
    obtain ⟨n, ho⟩ := hi.books.holds_iff.mp hold
    rw [← hd' hr] at ho
    by_cases hr' : runsDns cfg
    · exact hq.noneOpen .dhcp n ((hn hr').1.stillOpen h₁ (by decide) ho)
    · rw [hn' hr'] at hq
      exact hq.noneOpen .dhcp n ho
  · by_contra hr
    obtain ⟨n, ho⟩ := hi.books.holds_iff.mp hold
    rw [hn' hr] at hq
    exact hq.noneOpen .dns n (hdns n ho)
  · have h₂ : s₁.dns.socket = some n ∧ n ∈ s₁.removed := by
      by_cases hr' : runsDhcp cfg
      · have hst := (hd hr').1
        refine ⟨(hst.other .dns (by decide)).trans hs, ?_⟩
        rw [hst.removed]
        exact List.mem_append_right _ hrem
      · rw [hd' hr']
        exact ⟨hs, hrem⟩
    exact (hn hr).1.twice h₂.1 h₂.2 hb.removedOnce

theorem keeps_of_follows {s : Services} {e : Event} (hi : Inv s) (h : Follows s e) : Keeps s e := by
  intro hh
  cases e with
  | linkUp cfg okDhcp okDns => exact keeps_of_balanced_up hi hh h.1
  | linkDown cfg => exact keeps_of_quiet hi hh h.1 (h.2 cfg rfl hh)
  | tick ap => trivial

/-- The pcbs and the tick follow the link along a run exactly when every step
keeps the condition. -/
theorem services_follow (events : List Event) :
    Meets step Follows Services.init events ↔ Meets step Keeps Services.init events :=
  meets_iff_of_inv inv_step (fun _ _ hi => ⟨keeps_of_follows hi, follows_of_keeps hi⟩) inv_init events

/-- A soft AP at 192.168.0.1 with both servers. -/
def softapCfg : CfgParam :=
  { CfgParam.zero with
    wifiCfg := { Param.WifiCfg.zero with protocol := netModeSoftap }
    ipCfg := { Param.IpCfg.zero with ip := Param.defaultIpCfg.ip, netmask := Param.defaultIpCfg.netmask }
    bDhcpServer := 1
    bDnsServer := 1 }

/-- The same after the protocol has been changed to that of a station. -/
def stationCfg : CfgParam := { softapCfg with wifiCfg := { softapCfg.wifiCfg with protocol := netModeStaBss } }

/-- A link-down under a changed protocol stops nothing; a second link-down removes
the DNS server's pcb again. -/
theorem services_left :
    ¬Meets step Follows Services.init [.linkUp softapCfg true true, .linkDown stationCfg] ∧
      ¬Meets step Follows Services.init [.linkUp softapCfg true true, .linkDown softapCfg, .linkDown softapCfg] := by
  constructor
  · intro h
    have hq := h.2.1.2 stationCfg rfl (by decide)
    exact hq.noneOpen .dhcp 0 ⟨by decide, by decide⟩
  · intro h
    exact absurd h.2.2.1.1.removedOnce (by decide)

end SerialNet.Link
