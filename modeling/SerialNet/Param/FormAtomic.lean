import SerialNet.Param.Form

/-!
# Web forms, all or nothing

A form should store every field it needs or nothing, and leave the received
bytes and the arrays alone. `Sound` says on which requests each handler does.
-/

namespace SerialNet.Param

/-! ## Fields -/

def number (p : Option (List UInt8)) : Option Nat :=
  match p with
  | some s => if allDigits s && s != [] then some (decimal s) else none
  | none => none

def numberIn (lo hi : Nat) (p : Option (List UInt8)) : Bool := (number p).any fun n => lo ≤ n && n ≤ hi

theorem number_atoi {p : Option (List UInt8)} {n : Nat} (h : number p = some n) : atoiPtr p = UInt32.ofNat n := by
  cases p with
  | none => cases h
  | some s =>
    simp only [number] at h
    split at h
    · next hs =>
      cases h
      exact atoi_decimal (Bool.and_eq_true_iff.mp hs).1
    · cases h

theorem numberIn_iff {lo hi : Nat} {p : Option (List UInt8)} (h : numberIn lo hi p = true) :
    ∃ n, number p = some n ∧ atoiPtr p = UInt32.ofNat n ∧ lo ≤ n ∧ n ≤ hi := by
  unfold numberIn at h
  cases hn : number p with
  | none => simp [hn] at h
  | some n =>
    simp only [hn, Option.any_some, Bool.and_eq_true, decide_eq_true_eq] at h
    exact ⟨n, rfl, number_atoi hn, h⟩

section
variable {lo hi : Nat} {p : Option (List UInt8)} (h : numberIn lo hi p = true)
include h

theorem numberIn_word (hhi : hi < 2 ^ 32) : number p = some (atoiPtr p).toNat := by
  obtain ⟨n, hn, ha, -, hle⟩ := numberIn_iff h
  rw [hn, ha, UInt32.toNat_ofNat_of_lt' (Nat.lt_of_le_of_lt hle hhi)]

theorem numberIn_half (hhi : hi < 2 ^ 16) : number p = some (atoiPtr p).toUInt16.toNat := by
  obtain ⟨n, hn, ha, -, hle⟩ := numberIn_iff h
  rw [hn, ha, UInt32.toUInt16_ofNat', UInt16.toNat_ofNat_of_lt' (Nat.lt_of_le_of_lt hle hhi)]

theorem numberIn_byte (hhi : hi < 2 ^ 8) : number p = some (atoiPtr p).toUInt8.toNat := by
  obtain ⟨n, hn, ha, -, hle⟩ := numberIn_iff h
  rw [hn, ha, UInt32.toUInt8_ofNat', UInt8.toNat_ofNat_of_lt' (Nat.lt_of_le_of_lt hle hhi)]

theorem numberIn_inside (hhi : hi < 2 ^ 31) : outside lo hi (atoiPtr p) = false := by
  obtain ⟨n, -, ha, hlo, hle⟩ := numberIn_iff h
  have hn : (UInt32.ofNat n).toNat = n := UInt32.toNat_ofNat_of_lt' (show n < 2 ^ 32 by omega)
  have hint : toInt (atoiPtr p) = n := by
    rw [ha, toInt, if_pos (UInt32.lt_iff_toNat_lt.mpr (by rw [hn]; exact Nat.lt_of_le_of_lt hle hhi)), hn]
  simp [outside, hint, hlo, hle]

end

/-! ## Outcomes -/

/-- Nothing undefined happened, and everything was stored or nothing. -/
structure AllOrNothing (g g' : Globals) (stored : Prop) : Prop where
  defined : g'.faults = g.faults
  stores : stored ∨ (g'.userParam = g.userParam ∧ g'.wlWorkmode = g.wlWorkmode)

theorem faultIf_nil {c : Bool} {f : Fault} : faultIf c f = [] ↔ c = false := by
  cases c with
  | true => exact iff_of_false (List.cons_ne_nil _ _) (by decide)
  | false => exact iff_of_true rfl rfl

theorem addFaults_iff {g : Globals} {l : List Fault} : (g.addFaults l).faults = g.faults ↔ l = [] :=
  List.append_right_eq_self

theorem allOrNothing_iff {g g' : Globals} {stored : Prop} :
    AllOrNothing g g' stored ↔
      g'.faults = g.faults ∧ (stored ∨ (g'.userParam = g.userParam ∧ g'.wlWorkmode = g.wlWorkmode)) :=
  ⟨fun h => ⟨h.1, h.2⟩, fun h => ⟨h.1, h.2⟩⟩

theorem fault_ne (g : Globals) (f : Fault) : (g.fault f).faults ≠ g.faults := by
  intro h
  have := congrArg List.length h
  simp [Globals.fault] at this

/-! ## http_setup_uart -/

def UartForm.complete (f : UartForm) : Bool :=
  numberIn 300 1250000 f.baudrate && numberIn 0 1400 f.framelen && numberIn 30 65535 f.frametime

structure UartForm.Stored (f : UartForm) (u : UserCfgParam) : Prop where
  baudrate : number f.baudrate = some u.baudrate.toNat
  framelen : number f.framelen = some u.frameLength.toNat
  frametime : number f.frametime = some u.frameGap.toNat

structure UartForm.Idle (f : UartForm) (u : UserCfgParam) : Prop where
  baudrate : atoiPtr f.baudrate = u.baudrate
  framelen : (atoiPtr f.framelen).toUInt16 = u.frameLength
  frametime : (atoiPtr f.frametime).toUInt16 = u.frameGap

theorem UartForm.stored {f : UartForm} (h : f.complete = true) (u : UserCfgParam) : f.Stored (f.store u) := by
  simp only [UartForm.complete, Bool.and_eq_true] at h
  exact ⟨numberIn_word h.1.1 (by decide), numberIn_half h.1.2 (by decide), numberIn_half h.2 (by decide)⟩

theorem UartForm.store_idle {f : UartForm} {u : UserCfgParam} : f.store u = u ↔ f.Idle u := by
  constructor
  · intro h
    exact ⟨congrArg UserCfgParam.baudrate h, congrArg UserCfgParam.frameLength h, congrArg UserCfgParam.frameGap h⟩
  · rintro ⟨h1, h2, h3⟩
    unfold UartForm.store
    rw [h1, h2, h3]

def UartSound (g : Globals) (rx : List UInt8) (rxLen : Nat) : Prop :=
  ∃ fields, scan uartKeys rx rxLen = some fields ∧
    ((readUart fields).rejected = true ∨ (readUart fields).complete = true ∨ (readUart fields).Idle g.userParam)

def UartStored (g' : Globals) (rx : List UInt8) (rxLen : Nat) : Prop :=
  ∃ fields, scan uartKeys rx rxLen = some fields ∧ (readUart fields).complete = true ∧
    (readUart fields).Stored g'.userParam

theorem uart_allOrNothing (g : Globals) (rx : List UInt8) (rxLen : Nat) :
    AllOrNothing g (httpSetupUart g rx rxLen) (UartStored (httpSetupUart g rx rxLen) rx rxLen) ↔
      UartSound g rx rxLen := by
  unfold httpSetupUart UartStored UartSound
  cases hs : scan uartKeys rx rxLen with
  | none => exact iff_of_false (fun h => fault_ne g _ h.defined) fun ⟨_, h, _⟩ => by cases h
  | some fields =>
    simp only [Option.some.injEq, exists_eq_left']
    cases hr : (readUart fields).rejected with
    | true => exact iff_of_true ⟨rfl, .inr ⟨rfl, rfl⟩⟩ (.inl rfl)
    | false =>
      simp only [Bool.false_eq_true, if_false, false_or]
      constructor
      · rintro ⟨-, hst | hun⟩
        · exact .inl hst.1
        · exact .inr (UartForm.store_idle.mp hun.1)
      · rintro (hc | hi)
        · exact ⟨rfl, .inl ⟨hc, UartForm.stored hc _⟩⟩
        · exact ⟨rfl, .inr ⟨UartForm.store_idle.mpr hi, rfl⟩⟩

/-! ## http_setup_net -/

def NetForm.complete (f : NetForm) : Bool :=
  numberIn 0 1 f.socktype && numberIn 0 1 f.conntype && (f.remoteip.bind inetAton).isSome && numberIn 0 65535 f.port &&
    numberIn 0 1 f.workmode

structure NetForm.Stored (f : NetForm) (u : UserCfgParam) (wlWorkmode : UInt32) : Prop where
  socktype : number f.socktype = some u.socketProtocol.toNat
  conntype : number f.conntype = some u.socketType.toNat
  remoteip : f.remoteip.bind inetAton = some u.remoteCommIp
  port : number f.port = some u.socketPort.toNat
  workmode : number f.workmode = some wlWorkmode.toNat

structure NetForm.Idle (f : NetForm) (remoteip : UInt32) (u : UserCfgParam) : Prop where
  socktype : (atoiPtr f.socktype).toUInt8 = u.socketProtocol
  conntype : (atoiPtr f.conntype).toUInt8 = u.socketType
  remoteip : remoteip = u.remoteCommIp
  port : (atoiPtr f.port).toUInt16 = u.socketPort

theorem atonPtr_some {junk : UInt32} {p : Option (List UInt8)} (h : (p.bind inetAton).isSome = true) :
    p.bind inetAton = some (atonPtr junk p) := by
  obtain ⟨a, ha⟩ := Option.isSome_iff_exists.mp h
  rw [atonPtr, ha]; rfl

theorem NetForm.stored {f : NetForm} (h : f.complete = true) (junk : UInt32) (u : UserCfgParam) :
    f.Stored (f.store (atonPtr junk f.remoteip) u) (atoiPtr f.workmode) := by
  simp only [NetForm.complete, Bool.and_eq_true] at h
  obtain ⟨⟨⟨⟨hs, hc⟩, hip⟩, hp⟩, hw⟩ := h
  exact ⟨numberIn_byte hs (by decide), numberIn_byte hc (by decide), atonPtr_some hip, numberIn_half hp (by decide),
    numberIn_word hw (by decide)⟩

theorem NetForm.store_idle {f : NetForm} {ip : UInt32} {u : UserCfgParam} : f.store ip u = u ↔ f.Idle ip u := by
  constructor
  · intro h
    exact ⟨congrArg UserCfgParam.socketProtocol h, congrArg UserCfgParam.socketType h,
      congrArg UserCfgParam.remoteCommIp h, congrArg UserCfgParam.socketPort h⟩
  · rintro ⟨h1, h2, h3, h4⟩
    unfold NetForm.store
    rw [h1, h2, h3, h4]

/-- The address is there; a rejected form names the present work mode; an
accepted one has an address that converts, and is complete or stores nothing new. -/
structure NetForm.Sound (f : NetForm) (env : Env) (g : Globals) : Prop where
  remoteip : f.remoteip.isSome = true
  rejected : f.rejected = true → atoiPtr f.workmode = g.wlWorkmode
  accepted : f.rejected = false → (f.remoteip.bind inetAton).isSome = true ∧
    (f.complete = true ∨ (f.Idle (atonPtr env.junk f.remoteip) g.userParam ∧ atoiPtr f.workmode = g.wlWorkmode))

def NetSound (env : Env) (g : Globals) (rx : List UInt8) (rxLen : Nat) : Prop :=
  ∃ fields, scan netKeys rx rxLen = some fields ∧ (readNet fields).Sound env g

def NetStored (g' : Globals) (rx : List UInt8) (rxLen : Nat) : Prop :=
  ∃ fields, scan netKeys rx rxLen = some fields ∧ (readNet fields).complete = true ∧
    (readNet fields).Stored g'.userParam g'.wlWorkmode

theorem NetForm.complete_passes {f : NetForm} (h : f.complete = true) : f.rejected = false := by
  simp only [NetForm.complete, Bool.and_eq_true] at h
  obtain ⟨⟨⟨⟨hs, hc⟩, -⟩, hp⟩, hw⟩ := h
  have hport := numberIn_inside hp (by decide)
  simp only [outside, Bool.or_eq_false_iff] at hport
  unfold NetForm.rejected
  rw [show outside 0 1 (atoiPtr f.socktype) = false from numberIn_inside hs (by decide),
    show outside 0 1 (atoiPtr f.conntype) = false from numberIn_inside hc (by decide),
    show outside 0 1 (atoiPtr f.workmode) = false from numberIn_inside hw (by decide)]
  simpa using hport.2

theorem converts {p : Option (List UInt8)} (hp : p.isSome = true) : unset p = false ↔ (p.bind inetAton).isSome = true := by
  unfold unset
  rw [hp, Bool.true_and]
  cases p.bind inetAton <;> simp

theorem NetForm.faults_iff {f : NetForm} {g : Globals} :
    ((g.addFaults (faultIf f.remoteip.isNone .nullRead)).addFaults (faultIf (unset f.remoteip) .uninitRead)).faults =
        g.faults ↔
      f.remoteip.isSome = true ∧ (f.remoteip.bind inetAton).isSome = true := by
  unfold Globals.addFaults
  rw [List.append_assoc, List.append_right_eq_self, List.append_eq_nil_iff, faultIf_nil, faultIf_nil,
    Option.isNone_eq_false_iff]
  exact and_congr_right fun h => converts h

theorem net_allOrNothing (env : Env) (g : Globals) (rx : List UInt8) (rxLen : Nat) :
    AllOrNothing g (httpSetupNet env g rx rxLen) (NetStored (httpSetupNet env g rx rxLen) rx rxLen) ↔
      NetSound env g rx rxLen := by
  unfold httpSetupNet NetStored NetSound
  cases hs : scan netKeys rx rxLen with
  | none => exact iff_of_false (fun h => fault_ne g _ h.defined) fun ⟨_, h, _⟩ => by cases h
  | some fields =>
    simp only [Option.some.injEq, exists_eq_left']
    generalize readNet fields = f
    cases hr : f.rejected with
    | true =>
      have hfaults : (g.addFaults (faultIf f.remoteip.isNone .nullRead)).faults = g.faults ↔ f.remoteip.isSome = true := by
        rw [addFaults_iff, faultIf_nil, Option.isNone_eq_false_iff]
      simp only [if_true]
      constructor
      · rintro ⟨hd, hst⟩
        refine ⟨hfaults.mp hd, fun _ => ?_, fun h => absurd (hr.symm.trans h) (by decide)⟩
        rcases hst with ⟨hc, -⟩ | ⟨-, hw⟩
        · exact absurd (NetForm.complete_passes hc) (by rw [hr]; decide)
        · exact hw
      · intro h
        exact ⟨hfaults.mpr h.remoteip, .inr ⟨rfl, h.rejected hr⟩⟩
    | false =>
      simp only [Bool.false_eq_true, if_false]
      constructor
      · rintro ⟨hd, hst⟩
        obtain ⟨hip, hconv⟩ := NetForm.faults_iff.mp hd
        refine ⟨hip, fun h => absurd (hr.symm.trans h) (by decide), fun _ => ⟨hconv, ?_⟩⟩
        rcases hst with ⟨hc, -⟩ | ⟨hu, hw⟩
        · exact .inl hc
        · exact .inr ⟨NetForm.store_idle.mp hu, hw⟩
      · intro h
        obtain ⟨hconv, hst⟩ := h.accepted hr
        refine ⟨NetForm.faults_iff.mpr ⟨h.remoteip, hconv⟩, ?_⟩
        rcases hst with hc | ⟨hi, hw⟩
        · exact .inl ⟨hc, NetForm.stored hc _ _⟩
        · exact .inr ⟨NetForm.store_idle.mpr hi, hw⟩

/-! ## What the scan reads -/

/-- A decoded field has no zero in it. -/
theorem urlDecode_nonzero (src : List UInt8) (len : Nat) : 0 ∉ (urlDecode src len).1 := by
  intro h
  have hkept := strrmvspace_sublist.mem h
  exact absurd (List.all_eq_true.mp List.all_takeWhile 0 hkept) (by decide)

theorem scanFrom_nonzero {keys : List String} :
    ∀ {n skip : Nat} {rx : List UInt8} {fields : List (String × List UInt8)},
      scanFrom keys n skip rx = some fields → ∀ kv ∈ fields, 0 ∉ kv.2 := by
  intro n
  induction n with
  | zero =>
    intro skip rx fields h kv hkv
    cases skip with
    | zero =>
      cases h
      cases hkv
    | succ skip => cases h
  | succ n ih =>
    intro skip rx fields h
    cases skip with
    | succ skip => exact ih h
    | zero =>
      simp only [scanFrom] at h
      split at h
      · exact ih h
      · split at h
        · exact ih h
        · obtain ⟨rest, hrest, rfl⟩ := Option.map_eq_some_iff.mp h
          intro kv hkv
          rcases List.mem_cons.mp hkv with rfl | hkv
          · exact urlDecode_nonzero _ _
          · exact ih hrest kv hkv

/-- What holds of the pointers after the scan. -/
structure WifiForm.Read (f : WifiForm) : Prop where
  protocol : f.wlProtocol = atoiPtr f.protocol
  ssid : ∀ s ∈ f.ssid, 0 ∉ s
  webSsid : ∀ s ∈ f.webSsid, 0 ∉ s
  webKey : ∀ s ∈ f.webKey, 0 ∉ s

theorem read_ite {c : Prop} [Decidable c] {f f' : WifiForm} (h : f.Read) (h' : f'.Read) : (if c then f else f').Read := by
  split
  · exact h
  · exact h'

theorem WifiForm.take_read {f : WifiForm} (hf : f.Read) (key : String) {value : List UInt8} (hv : 0 ∉ value) :
    (f.take key value).Read := by
  have hnew : ∀ s ∈ some value, 0 ∉ s := by
    intro s hs
    cases hs
    exact hv
  unfold WifiForm.take
  dsimp only
  repeat' apply read_ite
  all_goals first
    | exact ⟨hf.protocol, hf.ssid, hf.webSsid, hf.webKey⟩
    | exact ⟨rfl, hf.ssid, hf.webSsid, hf.webKey⟩
    | exact ⟨hf.protocol, hnew, hf.webSsid, hf.webKey⟩
    | exact ⟨hf.protocol, hf.ssid, hnew, hf.webKey⟩
    | exact ⟨hf.protocol, hf.ssid, hf.webSsid, hnew⟩

theorem readWifi_read {rx : List UInt8} {rxLen : Nat} {fields : List (String × List UInt8)}
    (h : scan wifiKeys rx rxLen = some fields) : (readWifi fields).Read := by
  have hz := scanFrom_nonzero h
  have hfold : ∀ (fs : List (String × List UInt8)) (f : WifiForm), (∀ kv ∈ fs, 0 ∉ kv.2) → f.Read →
      (fs.foldl (fun f kv => f.take kv.1 kv.2) f).Read := by
    intro fs
    induction fs with
    | nil => exact fun _ _ hf => hf
    | cons kv fs ih =>
      intro f hfs hf
      exact ih _ (fun kv' h' => hfs kv' (List.mem_cons_of_mem _ h'))
        (WifiForm.take_read hf kv.1 (hfs kv List.mem_cons_self))
  exact hfold fields .empty hz ⟨rfl, fun _ h => (nomatch h), fun _ h => (nomatch h), fun _ h => (nomatch h)⟩

/-! ## http_setup_wifibase -/

/-- The fields that are read without a look at the pointer, and the strings that
are copied before the check. -/
structure WifiForm.Readable (f : WifiForm) : Prop where
  webIpaddr : f.webIpaddr.isSome = true
  webNetmask : f.webNetmask.isSome = true
  webSsid : (strPtr f.webSsid).length < 32
  webKey : (strPtr f.webKey).length < 64
  ipaddr : f.ipaddr.isSome = true
  netmask : f.netmask.isSome = true
  gateway : f.gateway.isSome = true
  dnsserv : f.dnsserv.isSome = true

/-- The addresses that are stored without a look at the result, and the strings
that are copied after the check. -/
structure WifiForm.Fits (f : WifiForm) : Prop where
  ipaddr : (f.ipaddr.bind inetAton).isSome = true
  netmask : (f.netmask.bind inetAton).isSome = true
  gateway : (f.gateway.bind inetAton).isSome = true
  dnsserv : (f.dnsserv.bind inetAton).isSome = true
  ssid : (strPtr f.ssid).length < 33
  key : (strPtr f.key).length ≤ 64

def WifiForm.complete (f : WifiForm) : Bool :=
  numberIn 0 2 f.protocol && numberIn 0 3 f.authmode && numberIn 0 4 f.encrymode && numberIn 1 13 f.channel &&
    (f.wlProtocol != 0 || numberIn 0 255 f.dhcp) && f.ssid.isSome && f.key.isSome && f.webSsid.isSome &&
    f.webKey.isSome && (f.webIpaddr.bind inetAton).isSome && (f.webNetmask.bind inetAton).isSome

structure WifiForm.Stored (f : WifiForm) (u : UserCfgParam) : Prop where
  protocol : number f.protocol = some u.cfg.wifiCfg.protocol.toNat
  authmode : number f.authmode = some u.cfg.wifiCfg.authMode.toNat
  encrymode : number f.encrymode = some u.cfg.wifiCfg.encry.toNat
  channel : number f.channel = some u.cfg.wifiCfg.channel.toNat
  dhcp : f.wlProtocol = 0 → number f.dhcp = some u.cfg.ipCfg.bDhcp.toNat
  ssid : f.ssid = some (text u.cfg.wifiCfg.ssid)
  key : f.key = some (u.cfg.wifiCfg.psk.toList.take u.cfg.wifiCfg.keyLength.toNat)
  ipaddr : (f.ipaddr.bind inetAton).map ip4Addr = some u.cfg.ipCfg.ip
  netmask : (f.netmask.bind inetAton).map ip4Addr = some u.cfg.ipCfg.netmask
  gateway : (f.gateway.bind inetAton).map ip4Addr = some u.cfg.ipCfg.gateWay
  dnsserv : (f.dnsserv.bind inetAton).map ip4Addr = some u.cfg.ipCfg.dns
  webSsid : f.webSsid = some (text u.webSsid)
  webKey : f.webKey = some (text u.webKey)
  webIpaddr : (f.webIpaddr.bind inetAton).map ip4Addr = some u.webIpCfg.ip
  webNetmask : (f.webNetmask.bind inetAton).map ip4Addr = some u.webIpCfg.netmask

structure WifiForm.WebIdle (f : WifiForm) (u : UserCfgParam) : Prop where
  ip : ((f.webIpaddr.bind inetAton).map ip4Addr).getD u.webIpCfg.ip = u.webIpCfg.ip
  netmask : ((f.webNetmask.bind inetAton).map ip4Addr).getD u.webIpCfg.netmask = u.webIpCfg.netmask
  ssid : copyText u.webSsid (strPtr f.webSsid) = u.webSsid
  key : copyText u.webKey (strPtr f.webKey) = u.webKey

structure WifiForm.CfgIdle (f : WifiForm) (junk : UInt32) (u : UserCfgParam) : Prop where
  protocol : f.wlProtocol.toUInt8 = u.cfg.wifiCfg.protocol
  ssid : copyText u.cfg.wifiCfg.ssid (strPtr f.ssid) = u.cfg.wifiCfg.ssid
  psk : setPsk u.cfg.wifiCfg.psk (strPtr f.key) = u.cfg.wifiCfg.psk
  keyLength : UInt8.ofNat (counted (strPtr f.key)).length = u.cfg.wifiCfg.keyLength
  authMode : (atoiPtr f.authmode).toUInt8 = u.cfg.wifiCfg.authMode
  encry : (atoiPtr f.encrymode).toUInt8 = u.cfg.wifiCfg.encry
  channel : 0 < atoiPtr f.channel ∧ atoiPtr f.channel < 14 → (atoiPtr f.channel).toUInt8 = u.cfg.wifiCfg.channel
  ip : ip4Addr (atonPtr junk f.ipaddr) = u.cfg.ipCfg.ip
  netmask : ip4Addr (atonPtr junk f.netmask) = u.cfg.ipCfg.netmask
  gateWay : ip4Addr (atonPtr junk f.gateway) = u.cfg.ipCfg.gateWay
  dns : ip4Addr (atonPtr junk f.dnsserv) = u.cfg.ipCfg.dns
  bDhcp : f.wlProtocol = 0 → (atoiPtr f.dhcp).toUInt8 = u.cfg.ipCfg.bDhcp
  bDhcpServer : f.wlProtocol = 2 → 1 = u.cfg.bDhcpServer
  webGateWay : f.wlProtocol = 0 → ip4Addr (atonPtr junk f.gateway) = u.webIpCfg.gateWay
  webDns : f.wlProtocol = 0 → ip4Addr (atonPtr junk f.dnsserv) = u.webIpCfg.dns

theorem WifiForm.storeWeb_idle {f : WifiForm} {u : UserCfgParam} : f.storeWeb u = u ↔ f.WebIdle u := by
  constructor
  · intro h
    have h1 := congrArg (fun u => u.webIpCfg.ip) h
    have h2 := congrArg (fun u => u.webIpCfg.netmask) h
    have h3 := congrArg UserCfgParam.webSsid h
    have h4 := congrArg UserCfgParam.webKey h
    exact ⟨h1, h2, h3, h4⟩
  · rintro ⟨h1, h2, h3, h4⟩
    unfold WifiForm.storeWeb
    rw [h1, h2, h3, h4]

theorem WifiForm.store_idle {f : WifiForm} {junk : UInt32} {u : UserCfgParam} :
    f.store junk (f.storeWeb u) = u ↔ f.WebIdle u ∧ f.CfgIdle junk u := by
  constructor
  · intro h
    have hweb : f.WebIdle u := by
      have h1 := congrArg (fun u => u.webIpCfg.ip) h
      have h2 := congrArg (fun u => u.webIpCfg.netmask) h
      have h3 := congrArg UserCfgParam.webSsid h
      have h4 := congrArg UserCfgParam.webKey h
      exact ⟨h1, h2, h3, h4⟩
    rw [WifiForm.storeWeb_idle.mpr hweb] at h
    have hw := congrArg (fun u => u.cfg.wifiCfg) h
    have hip := congrArg (fun u => u.cfg.ipCfg) h
    have hsrv := congrArg (fun u => u.cfg.bDhcpServer) h
    have hwip := congrArg UserCfgParam.webIpCfg h
    have h1 := congrArg WifiCfg.protocol hw
    have h2 := congrArg WifiCfg.ssid hw
    have h3 := congrArg WifiCfg.psk hw
    have h4 := congrArg WifiCfg.keyLength hw
    have h5 := congrArg WifiCfg.authMode hw
    have h6 := congrArg WifiCfg.encry hw
    have h7 := congrArg WifiCfg.channel hw
    have h8 := congrArg IpCfg.ip hip
    have h9 := congrArg IpCfg.netmask hip
    have h10 := congrArg IpCfg.gateWay hip
    have h11 := congrArg IpCfg.dns hip
    have h12 := congrArg IpCfg.bDhcp hip
    have h13 := congrArg IpCfg.gateWay hwip
    have h14 := congrArg IpCfg.dns hwip
    exact ⟨hweb, h1, h2, h3, h4, h5, h6, ite_eq_right_iff.mp h7, h8, h9, h10, h11, ite_eq_right_iff.mp h12,
      ite_eq_right_iff.mp hsrv, ite_eq_right_iff.mp h13, ite_eq_right_iff.mp h14⟩
  · rintro ⟨hweb, h⟩
    rw [WifiForm.storeWeb_idle.mpr hweb]
    unfold WifiForm.store WifiForm.storeWifi wlSetIpconfig
    rw [h.protocol, h.ssid, h.psk, h.keyLength, h.authMode, h.encry, h.ip, h.netmask, h.gateWay, h.dns]
    dsimp only
    rw [ite_eq_right_iff.mpr h.channel, ite_eq_right_iff.mpr h.bDhcp, ite_eq_right_iff.mpr h.bDhcpServer,
      ite_eq_right_iff.mpr fun h0 => (h.gateWay.symm.trans (h.webGateWay h0)),
      ite_eq_right_iff.mpr fun h0 => (h.dns.symm.trans (h.webDns h0))]

theorem WifiForm.complete_passes {f : WifiForm} (hf : f.Read) (h : f.complete = true) : f.rejected = false := by
  simp only [WifiForm.complete, Bool.and_eq_true] at h
  obtain ⟨⟨⟨⟨⟨⟨⟨⟨⟨⟨hp, ha⟩, he⟩, hc⟩, -⟩, -⟩, -⟩, -⟩, -⟩, -⟩, -⟩ := h
  have hch := numberIn_inside hc (by decide)
  simp only [outside, Bool.or_eq_false_iff, decide_eq_false_iff_not, Int.not_lt] at hch
  unfold WifiForm.rejected
  rw [hf.protocol, show outside 0 2 (atoiPtr f.protocol) = false from numberIn_inside hp (by decide),
    show outside 0 3 (atoiPtr f.authmode) = false from numberIn_inside ha (by decide),
    show outside 0 4 (atoiPtr f.encrymode) = false from numberIn_inside he (by decide)]
  simp only [outside, Bool.false_or, Bool.or_eq_false_iff, decide_eq_false_iff_not, Int.not_lt]
  exact ⟨Int.le_trans (by decide) hch.1, hch.2⟩

theorem setPsk_take {psk : Vector UInt8 64} {key : List UInt8} (h : key.length ≤ 64) :
    (setPsk psk key).toList.take key.length = key := by
  unfold setPsk
  split
  · rw [putZero_take, moveMem_take h]
  · exact moveMem_take h

theorem strPtr_some {p : Option (List UInt8)} (h : p.isSome = true) : p = some (strPtr p) := by
  obtain ⟨s, rfl⟩ := Option.isSome_iff_exists.mp h
  rfl

theorem text_copyText {n : Nat} {dst : Vector UInt8 n} {p : Option (List UInt8)} (hp : p.isSome = true)
    (hlen : (strPtr p).length < n) (hz : ∀ s ∈ p, 0 ∉ s) : p = some (text (copyText dst (strPtr p))) := by
  rw [copyText, text_moveMem hlen (hz _ (strPtr_some hp))]
  exact strPtr_some hp

theorem ip4_atonPtr {junk : UInt32} {p : Option (List UInt8)} (h : (p.bind inetAton).isSome = true) :
    (p.bind inetAton).map ip4Addr = some (ip4Addr (atonPtr junk p)) := by
  rw [@atonPtr_some junk p h]
  rfl

theorem ip4_getD {p : Option (List UInt8)} (h : (p.bind inetAton).isSome = true) (v : Vector UInt8 4) :
    (p.bind inetAton).map ip4Addr = some (((p.bind inetAton).map ip4Addr).getD v) := by
  obtain ⟨a, ha⟩ := Option.isSome_iff_exists.mp h
  rw [ha]
  rfl

/-- A channel of the form is stored, as it is not 0. -/
theorem channel_stored {p : Option (List UInt8)} (h : numberIn 1 13 p = true) (old : UInt8) :
    (if 0 < atoiPtr p ∧ atoiPtr p < 14 then (atoiPtr p).toUInt8 else old) = (atoiPtr p).toUInt8 := by
  obtain ⟨n, -, ha, hlo, hhi⟩ := numberIn_iff h
  have hn : (UInt32.ofNat n).toNat = n := UInt32.toNat_ofNat_of_lt' (show n < 2 ^ 32 by omega)
  rw [ha, if_pos]
  rw [UInt32.lt_iff_toNat_lt, UInt32.lt_iff_toNat_lt, hn]
  exact ⟨hlo, Nat.lt_succ_of_le hhi⟩

theorem WifiForm.stored {f : WifiForm} (hf : f.Read) (hr : f.Readable) (hfit : f.Fits) (h : f.complete = true)
    (junk : UInt32) (u : UserCfgParam) : f.Stored (f.store junk (f.storeWeb u)) := by
  simp only [WifiForm.complete, Bool.and_eq_true] at h
  obtain ⟨⟨⟨⟨⟨⟨⟨⟨⟨⟨hp, ha⟩, he⟩, hc⟩, hd⟩, hs⟩, hk⟩, hws⟩, hwk⟩, hwi⟩, hwm⟩ := h
  have hchan := channel_stored hc u.cfg.wifiCfg.channel
  have hprot : number f.protocol = some f.wlProtocol.toUInt8.toNat := hf.protocol ▸ numberIn_byte hp (by decide)
  have hkey : (UInt8.ofNat (counted (strPtr f.key)).length).toNat = (strPtr f.key).length := by
    rw [counted_short (Nat.le_trans hfit.key (by decide))]
    exact UInt8.toNat_ofNat_of_lt' (Nat.lt_of_le_of_lt hfit.key (by decide))
  constructor
  case protocol => exact hprot
  case authmode => exact numberIn_byte ha (by decide)
  case encrymode => exact numberIn_byte he (by decide)
  case channel => exact (numberIn_byte hc (by decide)).trans (congrArg (fun c : UInt8 => some c.toNat) hchan.symm)
  case dhcp =>
    intro h0
    have hd' : numberIn 0 255 f.dhcp = true := by simpa [h0] using hd
    exact (numberIn_byte hd' (by decide)).trans (congrArg (fun c : UInt8 => some c.toNat) (if_pos h0).symm)
  case ssid => exact text_copyText hs hfit.ssid hf.ssid
  case key =>
    have htake : (setPsk u.cfg.wifiCfg.psk (strPtr f.key)).toList.take
        (UInt8.ofNat (counted (strPtr f.key)).length).toNat = strPtr f.key := by
      rw [hkey]
      exact setPsk_take hfit.key
    exact (strPtr_some hk).trans (congrArg some htake.symm)
  case ipaddr => exact ip4_atonPtr hfit.ipaddr
  case netmask => exact ip4_atonPtr hfit.netmask
  case gateway => exact ip4_atonPtr hfit.gateway
  case dnsserv => exact ip4_atonPtr hfit.dnsserv
  case webSsid => exact text_copyText hws hr.webSsid hf.webSsid
  case webKey => exact text_copyText hwk hr.webKey hf.webKey
  case webIpaddr => exact ip4_getD hwi _
  case webNetmask => exact ip4_getD hwm _

/-- The pointers and the strings are in order; a rejected form leaves what it
stored before the check as it was; an accepted one is in order too, and complete
or stores nothing new. -/
structure WifiForm.Sound (f : WifiForm) (env : Env) (g : Globals) : Prop where
  readable : f.Readable
  rejected : f.rejected = true → f.WebIdle g.userParam
  accepted : f.rejected = false →
    f.Fits ∧ (f.complete = true ∨ (f.WebIdle g.userParam ∧ f.CfgIdle env.junk g.userParam))

def WifiSound (env : Env) (g : Globals) (rx : List UInt8) (rxLen : Nat) : Prop :=
  ∃ fields, scan wifiKeys rx rxLen = some fields ∧ (readWifi fields).Sound env g

def WifiStored (g' : Globals) (rx : List UInt8) (rxLen : Nat) : Prop :=
  ∃ fields, scan wifiKeys rx rxLen = some fields ∧ (readWifi fields).complete = true ∧
    (readWifi fields).Stored g'.userParam

theorem WifiForm.readFaults_iff {f : WifiForm} : f.readFaults = [] ↔ f.Readable := by
  simp only [WifiForm.readFaults, List.append_assoc, List.append_eq_nil_iff, faultIf_nil, Option.isNone_eq_false_iff,
    decide_eq_false_iff_not, Nat.not_le]
  exact ⟨fun ⟨h1, h2, h3, h4, h5, h6, h7, h8⟩ => ⟨h1, h2, h3, h4, h5, h6, h7, h8⟩,
    fun h => ⟨h.1, h.2, h.3, h.4, h.5, h.6, h.7, h.8⟩⟩

theorem WifiForm.storeFaults_iff {f : WifiForm} (hr : f.Readable) : f.storeFaults = [] ↔ f.Fits := by
  simp only [WifiForm.storeFaults, List.append_assoc, List.append_eq_nil_iff, faultIf_nil, converts hr.ipaddr,
    converts hr.netmask, converts hr.gateway, converts hr.dnsserv, decide_eq_false_iff_not, Nat.not_le, Nat.not_lt]
  exact ⟨fun ⟨h1, h2, h3, h4, h5, h6⟩ => ⟨h1, h2, h3, h4, h5, h6⟩, fun h => ⟨h.1, h.2, h.3, h.4, h.5, h.6⟩⟩

theorem WifiForm.faults_iff {f : WifiForm} {g : Globals} :
    ((g.addFaults f.readFaults).addFaults f.storeFaults).faults = g.faults ↔ f.Readable ∧ f.Fits := by
  unfold Globals.addFaults
  rw [List.append_assoc, List.append_right_eq_self, List.append_eq_nil_iff, WifiForm.readFaults_iff]
  exact and_congr_right fun h => WifiForm.storeFaults_iff h

theorem wifibase_allOrNothing (env : Env) (g : Globals) (rx : List UInt8) (rxLen : Nat) :
    AllOrNothing g (httpSetupWifibase env g rx rxLen) (WifiStored (httpSetupWifibase env g rx rxLen) rx rxLen) ↔
      WifiSound env g rx rxLen := by
  unfold httpSetupWifibase WifiStored WifiSound
  cases hs : scan wifiKeys rx rxLen with
  | none => exact iff_of_false (fun h => fault_ne g _ h.defined) fun ⟨_, h, _⟩ => by cases h
  | some fields =>
    simp only [Option.some.injEq, exists_eq_left']
    have hread := readWifi_read hs
    generalize readWifi fields = f at hread ⊢
    cases hr : f.rejected with
    | true =>
      simp only [if_true, allOrNothing_iff, setUser_faults, setUser_userParam, setUser_wlWorkmode, addFaults_wlWorkmode,
        and_true, addFaults_iff, WifiForm.readFaults_iff, WifiForm.storeWeb_idle]
      constructor
      · rintro ⟨hd, ⟨hc, -⟩ | hu⟩
        · exact absurd (WifiForm.complete_passes hread hc) (by rw [hr]; decide)
        · exact ⟨hd, fun _ => hu, fun h => absurd (hr.symm.trans h) (by decide)⟩
      · exact fun h => ⟨h.readable, .inr (h.rejected hr)⟩
    | false =>
      simp only [Bool.false_eq_true, if_false, allOrNothing_iff, setUser_addFaults, setUser_setUser, setUser_faults,
        setUser_userParam, setUser_wlWorkmode, addFaults_wlWorkmode, and_true, WifiForm.faults_iff, WifiForm.store_idle]
      constructor
      · rintro ⟨⟨hreadable, hfits⟩, hst⟩
        refine ⟨hreadable, fun h => absurd (hr.symm.trans h) (by decide), fun _ => ⟨hfits, ?_⟩⟩
        exact hst.imp_left And.left
      · intro h
        obtain ⟨hfits, hst⟩ := h.accepted hr
        refine ⟨⟨h.readable, hfits⟩, hst.imp_left fun hc => ⟨hc, ?_⟩⟩
        exact WifiForm.stored hread h.readable hfits hc env.junk g.userParam

/-! ## The three forms -/

inductive Form where
  | wifibase
  | setupuart
  | setupnet

def Form.handle (form : Form) (env : Env) (g : Globals) (rx : List UInt8) (rxLen : Nat) : Globals :=
  match form with
  | .wifibase => httpSetupWifibase env g rx rxLen
  | .setupuart => httpSetupUart g rx rxLen
  | .setupnet => httpSetupNet env g rx rxLen

def Form.Stored (form : Form) (g' : Globals) (rx : List UInt8) (rxLen : Nat) : Prop :=
  match form with
  | .wifibase => WifiStored g' rx rxLen
  | .setupuart => UartStored g' rx rxLen
  | .setupnet => NetStored g' rx rxLen

def Form.Sound (form : Form) (env : Env) (g : Globals) (rx : List UInt8) (rxLen : Nat) : Prop :=
  match form with
  | .wifibase => WifiSound env g rx rxLen
  | .setupuart => UartSound g rx rxLen
  | .setupnet => NetSound env g rx rxLen

/-- **Web forms.** Whatever was received, a form stores every field or nothing,
reads no null pointer, stores no uninitialised address and stays in its arrays,
exactly on the `Sound` requests. -/
theorem form_allOrNothing (form : Form) (env : Env) (g : Globals) (rx : List UInt8) (rxLen : Nat) :
    AllOrNothing g (form.handle env g rx rxLen) (form.Stored (form.handle env g rx rxLen) rx rxLen) ↔
      form.Sound env g rx rxLen := by
  cases form with
  | wifibase => exact wifibase_allOrNothing env g rx rxLen
  | setupuart => exact uart_allOrNothing g rx rxLen
  | setupnet => exact net_allOrNothing env g rx rxLen

/-- `baudrate=9600&frametime=100`: the frame length is missing. -/
def shortForm : List UInt8 :=
  [98, 97, 117, 100, 114, 97, 116, 101, 61, 57, 54, 48, 48, 38, 102, 114, 97, 109, 101, 116, 105, 109, 101, 61, 49, 48, 48]

/-- The missing length is stored as 0. -/
theorem missing_framelen_stored :
    ¬AllOrNothing (Globals.factory sampleEnv)
      (Form.setupuart.handle sampleEnv (Globals.factory sampleEnv) shortForm shortForm.length)
      (Form.setupuart.Stored (Form.setupuart.handle sampleEnv (Globals.factory sampleEnv) shortForm shortForm.length)
        shortForm shortForm.length) := by
  have hscan : scan uartKeys shortForm shortForm.length =
      some [("baudrate=", [57, 54, 48, 48]), ("frametime=", [49, 48, 48])] := by decide
  intro h
  obtain ⟨fields, hs, hr | hc | hi⟩ := (uart_allOrNothing (Globals.factory sampleEnv) shortForm shortForm.length).mp h
  all_goals
    rw [hscan] at hs
    cases hs
  · exact absurd hr (by decide)
  · exact absurd hc (by decide)
  · exact absurd hi.baudrate (by decide)

end SerialNet.Param
