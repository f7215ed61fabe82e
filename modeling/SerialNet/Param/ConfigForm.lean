import SerialNet.Param.ConfigStep
import SerialNet.Param.FormAtomic

/-!
# The ranges and the web forms

Each form, from a configuration in its ranges, either breaks them or keeps
them, by a condition on the bytes posted alone.
-/

namespace SerialNet.Param

/-- A store outside its array, or a scan that leaves the received bytes, is not
allowed; a word that was not initialised is. -/
structure Tolerates (allowed : Fault → Prop) : Prop where
  uninitRead : allowed .uninitRead
  overrun : ¬allowed .overrun
  storeOutside : ∀ array, ¬allowed (.storeOutside array)

/-- `UserParam` and `wl_workmode` are in their ranges, and nothing worse than
`allowed` has happened. -/
structure Globals.Ranges (allowed : Fault → Prop) (g : Globals) : Prop where
  userParam : g.userParam.InRange
  wlWorkmode : g.wlWorkmode ≤ 1
  only : g.Only allowed

theorem outside_eq_false {hi : Nat} (hhi : hi < 2 ^ 31) {x : UInt32} : outside 0 hi x = false ↔ x.toNat ≤ hi := by
  have hx := x.toNat_lt
  have hlt : x < 0x80000000 ↔ x.toNat < 0x80000000 := UInt32.lt_iff_toNat_lt
  simp only [outside, Bool.or_eq_false_iff, decide_eq_false_iff_not, Int.not_lt]
  unfold toInt
  split
  · omega
  · next hge =>
    rw [hlt] at hge
    omega

section
variable {allowed : Fault → Prop} {g : Globals}

theorem only_addFaults {l : List Fault} : (g.addFaults l).Only allowed ↔ g.Only allowed ∧ ∀ f ∈ l, allowed f := by
  simp only [Globals.Only, Globals.addFaults, List.mem_append, or_imp, forall_and]

theorem faultIf_only {c : Bool} {f : Fault} : (∀ f' ∈ faultIf c f, allowed f') ↔ (c = true → allowed f) := by
  cases c <;> simp [faultIf]

theorem isNone_or {α : Type} {p : Option α} {q : Prop} : (p.isNone = true → q) ↔ p.isSome = true ∨ q := by
  cases p <;> simp

theorem overrun_breaks (ha : Tolerates allowed) : ¬(g.fault .overrun).Ranges allowed := fun h =>
  ha.overrun (h.only .overrun (List.mem_append_right _ (List.mem_singleton_self _)))

theorem Globals.Config.ranges (h : g.Config) (ho : g.Only allowed) : g.Ranges allowed := ⟨h.userParam.inRange, h.wlWorkmode, ho⟩

end

/-! ### The serial form -/

structure UartForm.InRange (f : UartForm) : Prop where
  framelen : 32 ≤ (atoiPtr f.framelen).toNat
  frametime : 30 ≤ (atoiPtr f.frametime).toNat % 65536 ∧ (atoiPtr f.frametime).toNat % 65536 ≤ 10000

def UartInRange (rx : List UInt8) (rxLen : Nat) : Prop :=
  ∃ fields, scan uartKeys rx rxLen = some fields ∧ ((readUart fields).rejected = false → (readUart fields).InRange)

theorem UartForm.store_inRange {f : UartForm} {u : UserCfgParam} (hu : u.Ok) (hr : f.rejected = false) :
    (f.store u).InRange ↔ f.InRange := by
  simp only [UartForm.rejected, Bool.or_eq_false_iff] at hr
  have hlen : (atoiPtr f.framelen).toNat ≤ 1400 := (outside_eq_false (by decide)).mp hr.1.2
  have hlength : (atoiPtr f.framelen).toUInt16.toNat = (atoiPtr f.framelen).toNat := by
    rw [UInt32.toNat_toUInt16]
    omega
  have hgap : (atoiPtr f.frametime).toUInt16.toNat = (atoiPtr f.frametime).toNat % 65536 := UInt32.toNat_toUInt16 _
  constructor
  · intro h
    have h1 := UInt16.le_iff_toNat_le.mp h.frameLength.1
    have h2 := UInt16.le_iff_toNat_le.mp h.frameGap.1
    have h3 := UInt16.le_iff_toNat_le.mp h.frameGap.2
    exact ⟨by rwa [← hlength], by rwa [← hgap], by rwa [← hgap]⟩
  · intro h
    refine { hu.inRange with frameLength := ⟨?_, ?_⟩, frameGap := ⟨?_, ?_⟩ }
    · exact UInt16.le_iff_toNat_le.mpr (by rw [UartForm.store, hlength]; exact h.framelen)
    · exact UInt16.le_iff_toNat_le.mpr (by rw [UartForm.store, hlength]; exact hlen)
    · exact UInt16.le_iff_toNat_le.mpr (by rw [UartForm.store, hgap]; exact h.frametime.1)
    · exact UInt16.le_iff_toNat_le.mpr (by rw [UartForm.store, hgap]; exact h.frametime.2)

section
variable {allowed : Fault → Prop} {g : Globals} (ha : Tolerates allowed) (h : g.Config) (ho : g.Only allowed)
include ha h ho

theorem uart_ranges (rx : List UInt8) (rxLen : Nat) : (httpSetupUart g rx rxLen).Ranges allowed ↔ UartInRange rx rxLen := by
  unfold httpSetupUart UartInRange
  cases hs : scan uartKeys rx rxLen with
  | none => exact iff_of_false (overrun_breaks ha) fun ⟨_, hf, _⟩ => by cases hf
  | some fields =>
    simp only [Option.some.injEq, exists_eq_left']
    generalize readUart fields = f
    cases hr : f.rejected with
    | true => exact iff_of_true (h.ranges ho) fun hf => by cases hf
    | false =>
      simp only [Bool.false_eq_true, if_false, forall_const]
      rw [← UartForm.store_inRange h.userParam hr]
      exact ⟨fun hv => hv.userParam, fun hu => ⟨hu, h.wlWorkmode, ho⟩⟩

end

/-! ### The network form -/

/-- The work mode is stored whatever the check says, and the port has no lower bound. -/
structure NetForm.InRange (f : NetForm) : Prop where
  workmode : atoiPtr f.workmode ≤ 1
  port : f.rejected = false → (atoiPtr f.port).toNat % 65536 ≠ 0

def NetInRange (rx : List UInt8) (rxLen : Nat) : Prop :=
  ∃ fields, scan netKeys rx rxLen = some fields ∧ (readNet fields).InRange

/-- The field that is read without a look at the pointer is there. -/
def NetForm.Pointers (f : NetForm) : Prop := f.remoteip.isSome = true

theorem inside_byte_le {x : UInt32} {n : UInt8} (h : outside 0 n.toNat x = false) : x.toUInt8 ≤ n := by
  have hn := n.toNat_lt
  rw [outside_eq_false (by omega)] at h
  rw [UInt8.le_iff_toNat_le, UInt32.toNat_toUInt8]
  omega

theorem NetForm.store_inRange {f : NetForm} {ip : UInt32} {u : UserCfgParam} (hu : u.Ok) (hr : f.rejected = false) :
    (f.store ip u).InRange ↔ (atoiPtr f.port).toNat % 65536 ≠ 0 := by
  simp only [NetForm.rejected, Bool.or_eq_false_iff] at hr
  have hport : (atoiPtr f.port).toUInt16.toNat = (atoiPtr f.port).toNat % 65536 := UInt32.toNat_toUInt16 _
  have hz : (atoiPtr f.port).toUInt16 ≠ 0 ↔ (atoiPtr f.port).toNat % 65536 ≠ 0 := by
    rw [← hport, ne_eq, ne_eq, ← UInt16.toNat_inj, UInt16.toNat_zero]
  rw [← hz]
  constructor
  · exact fun h => h.socketPort
  · intro h
    exact { hu.inRange with
      socketProtocol := inside_byte_le (n := 1) hr.1.1.1, socketType := inside_byte_le (n := 1) hr.1.1.2, socketPort := h }

section
variable {allowed : Fault → Prop} {g : Globals} (ha : Tolerates allowed) (h : g.Config) (ho : g.Only allowed)
include ha h ho

theorem net_ranges (env : Env) (rx : List UInt8) (rxLen : Nat) : (httpSetupNet env g rx rxLen).Ranges allowed ↔
    NetInRange rx rxLen ∧ ((∀ fields ∈ scan netKeys rx rxLen, (readNet fields).Pointers) ∨ allowed .nullRead) := by
  unfold httpSetupNet NetInRange
  cases hs : scan netKeys rx rxLen with
  | none => exact iff_of_false (overrun_breaks ha) fun ⟨⟨_, hf, _⟩, _⟩ => by cases hf
  | some fields =>
    simp only [Option.some.injEq, exists_eq_left', Option.mem_def, forall_eq']
    generalize readNet fields = f
    have hread : (g.addFaults (faultIf f.remoteip.isNone .nullRead)).Only allowed ↔ f.Pointers ∨ allowed .nullRead := by
      rw [only_addFaults, faultIf_only, isNone_or]
      exact and_iff_right ho
    cases hr : f.rejected with
    | true =>
      rw [if_pos rfl]
      constructor
      · intro hv
        exact ⟨⟨hv.wlWorkmode, fun hf => by cases hr.symm.trans hf⟩, hread.mp hv.only⟩
      · rintro ⟨hf, hp⟩
        exact ⟨h.userParam.inRange, hf.workmode, hread.mpr hp⟩
    | false =>
      rw [if_neg Bool.false_ne_true]
      -- the address may be uninitialised, and nothing depends on it
      have hunset : ∀ f' ∈ faultIf (unset f.remoteip) .uninitRead, allowed f' := faultIf_only.mpr fun _ => ha.uninitRead
      constructor
      · intro hv
        exact ⟨⟨hv.wlWorkmode, fun _ => (NetForm.store_inRange h.userParam hr).mp hv.userParam⟩,
          hread.mp (only_addFaults.mp hv.only).1⟩
      · rintro ⟨hf, hp⟩
        exact ⟨(NetForm.store_inRange h.userParam hr).mpr (hf.port hr), hf.workmode,
          only_addFaults.mpr ⟨hread.mpr hp, hunset⟩⟩

end

/-! ### The Wi-Fi form -/

/-- The strings fit their arrays, and there is no authentication without encryption. -/
structure WifiForm.InRange (f : WifiForm) : Prop where
  webSsid : (strPtr f.webSsid).length < 32
  webKey : (strPtr f.webKey).length < 64
  ssid : f.rejected = false → (strPtr f.ssid).length < 33
  key : f.rejected = false → (strPtr f.key).length ≤ 64
  auth : f.rejected = false → atoiPtr f.encrymode = 0 → atoiPtr f.authmode = 0

def WifiInRange (rx : List UInt8) (rxLen : Nat) : Prop :=
  ∃ fields, scan wifiKeys rx rxLen = some fields ∧ (readWifi fields).InRange

/-- The fields that are read without a look at the pointer are there. -/
structure WifiForm.Pointers (f : WifiForm) : Prop where
  webIpaddr : f.webIpaddr.isSome = true
  webNetmask : f.webNetmask.isSome = true
  ipaddr : f.ipaddr.isSome = true
  netmask : f.netmask.isSome = true
  gateway : f.gateway.isSome = true
  dnsserv : f.dnsserv.isSome = true

theorem inside_byte_zero {x : UInt32} {n : UInt8} (h : outside 0 n.toNat x = false) : x.toUInt8 = 0 ↔ x = 0 := by
  have hn := n.toNat_lt
  rw [outside_eq_false (by omega)] at h
  rw [← UInt8.toNat_inj, ← UInt32.toNat_inj, UInt32.toNat_toUInt8, UInt8.toNat_zero, UInt32.toNat_zero]
  omega

theorem WifiForm.storeWifi_inRange {f : WifiForm} {w : WifiCfg} (hw : w.Ok) (hr : f.rejected = false)
    (hssid : (strPtr f.ssid).length < 33) (hkey : (strPtr f.key).length ≤ 64) :
    (f.storeWifi w).InRange ↔ (atoiPtr f.encrymode = 0 → atoiPtr f.authmode = 0) := by
  simp only [WifiForm.rejected, Bool.or_eq_false_iff] at hr
  obtain ⟨⟨⟨-, ha⟩, he⟩, hc⟩ := hr
  rw [← inside_byte_zero (n := 4) he, ← inside_byte_zero (n := 3) ha]
  constructor
  · exact fun h => h.auth
  · intro h
    refine ⟨?_, inside_byte_le (n := 4) he, inside_byte_le (n := 3) ha, h, mem_putZero hssid, ?_⟩
    · -- 0 and 14 and above leave the channel as it was
      unfold WifiForm.storeWifi
      dsimp only
      split
      · next hch =>
        have e1 := UInt32.lt_iff_toNat_lt.mp hch.1
        have e2 := UInt32.lt_iff_toNat_lt.mp hch.2
        have e3 : (0 : UInt32).toNat = 0 := rfl
        have e4 : (14 : UInt32).toNat = 14 := rfl
        have e5 : (1 : UInt8).toNat = 1 := rfl
        have e6 : (13 : UInt8).toNat = 13 := rfl
        rw [UInt8.le_iff_toNat_le, UInt8.le_iff_toNat_le, UInt32.toNat_toUInt8]
        omega
      · exact hw.channel
    · exact ofNat_le ((length_counted_le _).trans hkey) (by decide)

/-- The fields that a Wi-Fi form leaves alone. -/
def UserCfgParam.rest (u : UserCfgParam) : UInt8 × UInt8 × UInt8 × UInt16 × UInt16 × UInt16 :=
  (u.atMode, u.socketProtocol, u.socketType, u.socketPort, u.frameLength, u.frameGap)

theorem inRange_iff_rest {u v : UserCfgParam} (hrest : v.rest = u.rest) (hu : u.Ok) :
    v.InRange ↔ v.cfg.wifiCfg.InRange := by
  simp only [UserCfgParam.rest, Prod.mk.injEq] at hrest
  obtain ⟨h1, h2, h3, h4, h5, h6⟩ := hrest
  constructor
  · exact fun h => h.wifi
  · intro h
    refine ⟨?_, ?_, ?_, ?_, ?_, ?_, h⟩
    · rw [h1]; exact hu.atMode
    · rw [h2]; exact hu.socketProtocol
    · rw [h3]; exact hu.socketType
    · rw [h4]; exact hu.socketPort
    · rw [h5]; exact hu.frameLength
    · rw [h6]; exact hu.frameGap

theorem WifiForm.store_inRange {f : WifiForm} {junk : UInt32} {u : UserCfgParam} (hu : u.Ok) (hr : f.rejected = false)
    (hssid : (strPtr f.ssid).length < 33) (hkey : (strPtr f.key).length ≤ 64) :
    (f.store junk u).InRange ↔ (atoiPtr f.encrymode = 0 → atoiPtr f.authmode = 0) := by
  have hrest : (f.store junk u).rest = u.rest := by
    unfold WifiForm.store UserCfgParam.rest
    dsimp only
  have hwifi : (f.store junk u).cfg.wifiCfg = f.storeWifi u.cfg.wifiCfg := by
    unfold WifiForm.store
    dsimp only
  rw [inRange_iff_rest hrest hu, hwifi]
  exact WifiForm.storeWifi_inRange hu.wifi hr hssid hkey

theorem WifiForm.storeWeb_ok {f : WifiForm} {u : UserCfgParam} (hu : u.Ok) : (f.storeWeb u).Ok := by
  have hrest : (f.storeWeb u).rest = u.rest := by
    unfold WifiForm.storeWeb UserCfgParam.rest
    dsimp only
  have hcfg : (f.storeWeb u).cfg = u.cfg := by
    unfold WifiForm.storeWeb
    dsimp only
  refine ((inRange_iff_rest hrest hu).mpr ?_).ok ?_
  · rw [hcfg]
    exact hu.wifi.inRange
  · rw [hcfg]
    exact hu.wifi.protocol

section
variable {allowed : Fault → Prop} (ha : Tolerates allowed)
include ha

theorem WifiForm.readFaults_only {f : WifiForm} : (∀ f' ∈ f.readFaults, allowed f') ↔
    ((strPtr f.webSsid).length < 32 ∧ (strPtr f.webKey).length < 64) ∧ (f.Pointers ∨ allowed .nullRead) := by
  simp only [WifiForm.readFaults, List.mem_append, or_imp, forall_and, faultIf_only, isNone_or, decide_eq_true_eq,
    ha.storeOutside, imp_false, Nat.not_le]
  by_cases hn : allowed .nullRead
  · simp [hn]
  · simp only [hn, or_false]
    constructor
    · rintro ⟨⟨⟨⟨⟨⟨⟨h1, h2⟩, h3⟩, h4⟩, h5⟩, h6⟩, h7⟩, h8⟩
      exact ⟨⟨h3, h4⟩, h1, h2, h5, h6, h7, h8⟩
    · rintro ⟨⟨h3, h4⟩, h⟩
      exact ⟨⟨⟨⟨⟨⟨⟨h.webIpaddr, h.webNetmask⟩, h3⟩, h4⟩, h.ipaddr⟩, h.netmask⟩, h.gateway⟩, h.dnsserv⟩

theorem WifiForm.storeFaults_only {f : WifiForm} : (∀ f' ∈ f.storeFaults, allowed f') ↔
    (strPtr f.ssid).length < 33 ∧ (strPtr f.key).length ≤ 64 := by
  simp only [WifiForm.storeFaults, List.mem_append, or_imp, forall_and, faultIf_only, decide_eq_true_eq, ha.uninitRead,
    ha.storeOutside, imp_false, Nat.not_le, Nat.not_lt, implies_true, true_and]

variable {g : Globals} (h : g.Config) (ho : g.Only allowed)
include h ho

theorem wifi_ranges (env : Env) (rx : List UInt8) (rxLen : Nat) : (httpSetupWifibase env g rx rxLen).Ranges allowed ↔
    WifiInRange rx rxLen ∧ ((∀ fields ∈ scan wifiKeys rx rxLen, (readWifi fields).Pointers) ∨ allowed .nullRead) := by
  unfold httpSetupWifibase WifiInRange
  cases hs : scan wifiKeys rx rxLen with
  | none => exact iff_of_false (overrun_breaks ha) fun ⟨⟨_, hf, _⟩, _⟩ => by cases hf
  | some fields =>
    simp only [Option.some.injEq, exists_eq_left', Option.mem_def, forall_eq']
    generalize readWifi fields = f
    have hweb : (f.storeWeb g.userParam).Ok := WifiForm.storeWeb_ok h.userParam
    generalize f.storeWeb g.userParam = u at hweb ⊢
    have hread : (g.addFaults f.readFaults).Only allowed ↔ _ :=
      only_addFaults.trans ((and_iff_right ho).trans (WifiForm.readFaults_only ha))
    cases hr : f.rejected with
    | true =>
      have hno : ¬f.rejected = false := by rw [hr]; decide
      rw [if_pos rfl]
      constructor
      · intro hv
        obtain ⟨⟨hssid, hkey⟩, hp⟩ := hread.mp hv.only
        exact ⟨⟨hssid, hkey, fun hf => absurd hf hno, fun hf => absurd hf hno, fun hf => absurd hf hno⟩, hp⟩
      · rintro ⟨hf, hp⟩
        exact ⟨hweb.inRange, h.wlWorkmode, hread.mpr ⟨⟨hf.webSsid, hf.webKey⟩, hp⟩⟩
    | false =>
      rw [if_neg Bool.false_ne_true, setUser_userParam]
      have hstore (hssid : (strPtr f.ssid).length < 33) (hkey : (strPtr f.key).length ≤ 64) :
          (f.store env.junk u).InRange ↔ _ := WifiForm.store_inRange hweb hr hssid hkey
      generalize f.store env.junk u = v at hstore ⊢
      constructor
      · intro hv
        obtain ⟨h1, h2⟩ := only_addFaults.mp hv.only
        obtain ⟨⟨hwssid, hwkey⟩, hp⟩ := hread.mp h1
        obtain ⟨hssid, hkey⟩ := (WifiForm.storeFaults_only ha).mp h2
        exact ⟨⟨hwssid, hwkey, fun _ => hssid, fun _ => hkey, fun _ => (hstore hssid hkey).mp hv.userParam⟩, hp⟩
      · rintro ⟨hf, hp⟩
        have hssid := hf.ssid hr
        have hkey := hf.key hr
        exact ⟨(hstore hssid hkey).mpr (hf.auth hr), h.wlWorkmode,
          only_addFaults.mpr ⟨hread.mpr ⟨⟨hf.webSsid, hf.webKey⟩, hp⟩, (WifiForm.storeFaults_only ha).mpr ⟨hssid, hkey⟩⟩⟩

end

end SerialNet.Param
