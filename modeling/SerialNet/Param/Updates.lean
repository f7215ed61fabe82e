import SerialNet.Param.ConfigRun

/-!
# Updates of the configuration

The settings that the AT commands and the web forms edit, and what each
accepted request gives. `SysParam` is a second copy of the Wi-Fi part: a command
that copies it back undoes what only `UserParam` was given.
-/

namespace SerialNet.Param

open Uart (SysEvt)

/-! ## The settings -/

inductive CfgField where
  | protocol | ssid | key | channel | encry | authMode | ip | netmask | gateWay | dns | bDhcp
  deriving DecidableEq, Repr

inductive Field where
  | cfg (f : CfgField)
  | baudrate | frameLength | frameGap | socketProtocol | socketType | socketPort | remoteCommIp
  deriving DecidableEq, Repr

inductive Value where
  | number (n : Nat)
  | string (s : List UInt8)
  deriving DecidableEq, Repr

def CfgParam.setting (c : CfgParam) : CfgField → Value
  | .protocol => .number c.wifiCfg.protocol.toNat
  | .ssid => .string (text c.wifiCfg.ssid)
  | .key => .string (c.wifiCfg.psk.toList.take c.wifiCfg.keyLength.toNat)
  | .channel => .number c.wifiCfg.channel.toNat
  | .encry => .number c.wifiCfg.encry.toNat
  | .authMode => .number c.wifiCfg.authMode.toNat
  | .ip => .string c.ipCfg.ip.toList
  | .netmask => .string c.ipCfg.netmask.toList
  | .gateWay => .string c.ipCfg.gateWay.toList
  | .dns => .string c.ipCfg.dns.toList
  | .bDhcp => .number c.ipCfg.bDhcp.toNat

def UserCfgParam.setting (u : UserCfgParam) : Field → Value
  | .cfg f => u.cfg.setting f
  | .baudrate => .number u.baudrate.toNat
  | .frameLength => .number u.frameLength.toNat
  | .frameGap => .number u.frameGap.toNat
  | .socketProtocol => .number u.socketProtocol.toNat
  | .socketType => .number u.socketType.toNat
  | .socketPort => .number u.socketPort.toNat
  | .remoteCommIp => .number u.remoteCommIp.toNat

/-- The fields that a request names, with their values. -/
abbrev Given := Field → Option Value

/-- The fields given have their values, and the others are as they were. -/
def Given.Applied (given : Given) (u u' : UserCfgParam) : Prop := ∀ f, u'.setting f = (given f).getD (u.setting f)

def address (a : UInt32) : Value := .string (ip4Addr a).toList

/-- A text without what lies behind a zero. -/
def cstr (s : List UInt8) : List UInt8 := s.takeWhile (· != 0)

/-! ## What the requests give -/

section
variable (g : Globals) (argv : List (List UInt8))

/-- In station mode the channel is 1. -/
def WqsoptArgs.gives (a : WqsoptArgs) : Given
  | .cfg .protocol => some (.number a.mode.toNat)
  | .cfg .channel => some (.number a.channel.toNat)
  | .cfg .encry => some (.number a.encry.toNat)
  | .cfg .authMode => some (.number a.authMode.toNat)
  | _ => none

def wscapGives : Given
  | .cfg .ssid => some (.string (cstr (arg argv 1)))
  | .cfg .key => some (.string (arg argv 2))
  | _ => none

/-- A server has no remote address. -/
def nqscnnGives : Given
  | .socketProtocol => some (.number (atoi (arg argv 1)).toNat)
  | .socketType => some (.number (atoi (arg argv 2)).toNat)
  | .socketPort => some (.number (atoi (arg argv 3)).toNat)
  | .remoteCommIp => if (atoi (arg argv 2)).toUInt8 = 1 then none else (inetAton (arg argv 4)).map fun a => .number a.toNat
  | _ => none

/-- The gateway is the address itself, and the DHCP flag is the station's. -/
def nlocipGives : Given
  | .cfg .ip => (inetAton (arg argv 1)).map address
  | .cfg .gateWay => (inetAton (arg argv 1)).map address
  | .cfg .bDhcp => if g.sysParam.wifiCfg.protocol = 0 then some (.number (atoi (arg argv 2)).toNat) else none
  | _ => none

/-- The handlers bring the numbers of `AT+UARTFL` and `AT+UARTFT` into their ranges. -/
def Request.gives : Request → Given
  | .wqsopt => (wqsoptArgs argv).gives
  | .wscap => wscapGives argv
  | .nqscnn => nqscnnGives argv
  | .nlocip => nlocipGives g argv
  | .baudrate => fun | .baudrate => some (.number (atoi (arg argv 1)).toNat) | _ => none
  | .uartfl => fun | .frameLength => some (.number (max 32 (min 1400 (atoi (arg argv 1)).toNat))) | _ => none
  | .uartft => fun | .frameGap => some (.number (max 30 (min 10000 (atoi (arg argv 1)).toNat))) | _ => none
  | _ => fun _ => none

end

def UartForm.gives (f : UartForm) : Given
  | .baudrate => some (.number (atoiPtr f.baudrate).toNat)
  | .frameLength => some (.number (atoiPtr f.framelen).toNat)
  | .frameGap => some (.number (atoiPtr f.frametime).toNat)
  | _ => none

def NetForm.gives (f : NetForm) : Given
  | .socketProtocol => some (.number (atoiPtr f.socktype).toNat)
  | .socketType => some (.number (atoiPtr f.conntype).toNat)
  | .socketPort => some (.number (atoiPtr f.port).toNat)
  | .remoteCommIp => (f.remoteip.bind inetAton).map fun a => .number a.toNat
  | _ => none

/-- Channel 0 is not stored, and the DHCP flag is the station's. -/
def WifiForm.gives (f : WifiForm) : Given
  | .cfg .protocol => some (.number f.wlProtocol.toNat)
  | .cfg .ssid => some (.string (cstr (strPtr f.ssid)))
  | .cfg .key => some (.string (strPtr f.key))
  | .cfg .channel => if atoiPtr f.channel = 0 then none else some (.number (atoiPtr f.channel).toNat)
  | .cfg .encry => some (.number (atoiPtr f.encrymode).toNat)
  | .cfg .authMode => some (.number (atoiPtr f.authmode).toNat)
  | .cfg .ip => (f.ipaddr.bind inetAton).map address
  | .cfg .netmask => (f.netmask.bind inetAton).map address
  | .cfg .gateWay => (f.gateway.bind inetAton).map address
  | .cfg .dns => (f.dnsserv.bind inetAton).map address
  | .cfg .bDhcp => if f.wlProtocol = 0 then some (.number (atoiPtr f.dhcp).toNat) else none
  | _ => none

/-! ## Requests -/

def Request.configures : Request → Bool
  | .wqsopt | .wphymode | .wscap | .nqscnn | .nlocip | .baudrate | .uartfl | .uartft => true
  | _ => false

def requested (line : List UInt8) : Option Request := (parseParameter line).head?.bind stringTorequest

/-- A command, a form, a save with the boot after it, the reboot page, or a change of the link. -/
inductive CfgRequest where
  | command (env : Env) (line : List UInt8)
  | post (form : Form) (env : Env) (rx : List UInt8) (rxLen : Nat)
  | save (env : Env)
  | reboot (env : Env)
  | link (evt : SysEvt)

def CfgRequest.handle (g : Globals) : CfgRequest → Globals
  | .command env line => (atCommand env g line).1
  | .post form env rx rxLen => form.handle env g rx rxLen
  | .save env => (responseSAVE g [bytes "SAVE"]).1.boot env
  | .reboot env => httpResetsys env g
  | .link evt => { g with linkStatus := evt }

def Form.given (rx : List UInt8) (rxLen : Nat) : Form → Given
  | .wifibase, f => (scan wifiKeys rx rxLen).bind fun fields => (readWifi fields).gives f
  | .setupuart, f => (scan uartKeys rx rxLen).bind fun fields => (readUart fields).gives f
  | .setupnet, f => (scan netKeys rx rxLen).bind fun fields => (readNet fields).gives f

def CfgRequest.given (g : Globals) : CfgRequest → Given
  | .command _ line, f => (requested line).bind fun request => request.gives g (parseParameter line) f
  | .post form _ rx rxLen, f => form.given rx rxLen f
  | _, _ => none

/-- Neither a query nor refused. -/
structure CommandAccepted (env : Env) (g : Globals) (argv : List (List UInt8)) (request : Request) : Prop where
  configures : request.configures = true
  stores : ¬isQuery argv = true
  accepted : (respond env g argv request).failed = false
  answered : (respond env g argv request).2 ≠ []

/-- The scan ends with the received bytes, and the check passes. -/
def Form.Accepted (rx : List UInt8) (rxLen : Nat) : Form → Prop
  | .wifibase => ∃ fields, scan wifiKeys rx rxLen = some fields ∧ (readWifi fields).rejected = false
  | .setupuart => ∃ fields, scan uartKeys rx rxLen = some fields ∧ (readUart fields).rejected = false
  | .setupnet => ∃ fields, scan netKeys rx rxLen = some fields ∧ (readNet fields).rejected = false

def CfgRequest.Accepted (g : Globals) : CfgRequest → Prop
  | .command env line => ∃ request, requested line = some request ∧ CommandAccepted env g (parseParameter line) request
  | .post form _ rx rxLen => form.Accepted rx rxLen
  | _ => True

/-! ## Where nothing is lost -/

/-- The copies agree on what the request does not give. -/
def Agree (g : Globals) (given : Given) : Prop :=
  ∀ f, given (.cfg f) = none → g.sysParam.setting f = g.userParam.cfg.setting f

section
variable (g : Globals) (argv : List (List UInt8))

/-- In soft AP mode `UserParam` is copied first, and only the mode is the other
copy's; in ad hoc mode the key is stored with its ending zero. -/
structure WscapKeeps : Prop where
  station : g.sysParam.wifiCfg.protocol = 0 → Agree g (wscapGives argv)
  softAp : g.sysParam.wifiCfg.protocol = 2 → g.userParam.cfg.wifiCfg.protocol = 2
  adHoc : g.sysParam.wifiCfg.protocol ≠ 1

structure NlocipKeeps : Prop where
  agree : Agree g (nlocipGives g argv)
  address : (inetAton (arg argv 1)).isSome = true
  mode : g.sysParam.wifiCfg.protocol = 0 → (atoi (arg argv 2)).toNat < 256

structure NqscnnKeeps : Prop where
  agree : Agree g (nqscnnGives argv)
  address : (atoi (arg argv 2)).toUInt8 ≠ 1 → (inetAton (arg argv 4)).isSome = true

def Request.Keeps : Request → Prop
  | .wqsopt => Agree g (wqsoptArgs argv).gives
  | .wphymode => Agree g fun _ => none
  | .wscap => WscapKeeps g argv
  | .nqscnn => NqscnnKeeps g argv
  | .nlocip => NlocipKeeps g argv
  | .uartfl => (atoi (arg argv 1)).toNat < 65536
  | _ => True

end

structure WifiForm.Keeps (f : WifiForm) : Prop where
  webSsid : (strPtr f.webSsid).length < 32
  webKey : (strPtr f.webKey).length < 64
  ssid : (strPtr f.ssid).length < 33
  key : (strPtr f.key).length ≤ 64
  ipaddr : (f.ipaddr.bind inetAton).isSome = true
  netmask : (f.netmask.bind inetAton).isSome = true
  gateway : (f.gateway.bind inetAton).isSome = true
  dnsserv : (f.dnsserv.bind inetAton).isSome = true
  dhcp : f.wlProtocol = 0 → (atoiPtr f.dhcp).toNat < 256

structure NetForm.Keeps (f : NetForm) : Prop where
  remoteip : (f.remoteip.bind inetAton).isSome = true
  port : (atoiPtr f.port).toNat < 65536

def Form.Keeps (rx : List UInt8) (rxLen : Nat) : Form → Prop
  | .wifibase => ∀ fields ∈ scan wifiKeys rx rxLen, (readWifi fields).Keeps
  | .setupuart => ∀ fields ∈ scan uartKeys rx rxLen, (atoiPtr (readUart fields).frametime).toNat < 65536
  | .setupnet => ∀ fields ∈ scan netKeys rx rxLen, (readNet fields).Keeps

/-- A boot with the button held comes up with the defaults. -/
def CfgRequest.Keeps (g : Globals) : CfgRequest → Prop
  | .command _ line => ∀ request ∈ requested line, request.Keeps g (parseParameter line)
  | .post form _ rx rxLen => form.Keeps rx rxLen
  | .save env => env.factoryPin = false
  | .reboot env => env.factoryPin = false
  | .link _ => True

/-- The value given by the last request that names the field. -/
def lastGiven : Globals → List CfgRequest → Given
  | _, [], _ => none
  | g, r :: requests, f => (lastGiven (r.handle g) requests f).or (r.given g f)

/-! ## One command -/

section
variable {env : Env} {g g' : Globals} {argv : List (List UInt8)}

theorem CommandAccepted.not_refused {request : Request} (h : CommandAccepted env g argv request) :
    ¬Refused g argv (respond env g argv request) := by
  rintro ⟨-, hq | hf⟩
  · exact h.stores hq
  · cases h.accepted.symm.trans hf

theorem applied_of_setting {cfg : CfgParam} {given : Given} (hu : g'.userParam = { g.userParam with cfg := cfg })
    (hcfg : ∀ f, cfg.setting f = (given (.cfg f)).getD (g.userParam.cfg.setting f))
    (hown : ∀ f, (∀ c, f ≠ .cfg c) → given f = none) : given.Applied g.userParam g'.userParam := by
  intro f
  rw [hu]
  cases f with
  | cfg f => exact hcfg f
  | _ =>
    rw [hown _ (fun c h => by cases h)]
    rfl

/-- The Wi-Fi part is `SysParam` with what was given. -/
theorem applied_of_agree {cfg : CfgParam} {given : Given} (hu : g'.userParam = { g.userParam with cfg := cfg })
    (hcfg : ∀ f, cfg.setting f = (given (.cfg f)).getD (g.sysParam.setting f)) (hagree : Agree g given)
    (hown : ∀ f, (∀ c, f ≠ .cfg c) → given f = none) : given.Applied g.userParam g'.userParam := by
  refine applied_of_setting hu (fun f => (hcfg f).trans ?_) hown
  cases hf : given (.cfg f) with
  | none => exact hagree f hf
  | some v => rfl

/-! ### The Wi-Fi commands -/

theorem netModeSet_eq {sys : CfgParam} {mode : UInt8} (h : mode < 3) :
    infNetModeSet sys mode = (0, sys.setWifi { sys.wifiCfg with protocol := mode }) := if_neg (UInt8.not_le.mpr h)

theorem wqsopt_setting {sys : CfgParam} {a : WqsoptArgs} (ha : a.Ok) (f : CfgField) :
    (a.set sys).setting f = (a.gives (.cfg f)).getD (sys.setting f) := by
  have hmode : a.mode < 3 := by
    rcases ha.mode with h | h | h
    · rw [h]; decide
    · rw [h]; decide
    · rw [h]; decide
  unfold WqsoptArgs.set
  rw [netModeSet_eq hmode]
  cases f with
  | _ => rfl

theorem phyMode_setting {sys : CfgParam} {mode : UInt8} (f : CfgField) :
    (infPhyModeSet sys mode).2.setting f = sys.setting f := by
  unfold infPhyModeSet
  split
  · rfl
  · cases f with
    | _ => rfl

theorem wqsopt_applied (h : CommandAccepted env g argv .wqsopt) (hk : Agree g (wqsoptArgs argv).gives) :
    (wqsoptArgs argv).gives.Applied g.userParam (responseWQSOPT env g argv).1.userParam := by
  rcases @wqsopt_effect env g argv with hr | ⟨-, hok, -, hu, -⟩
  · exact absurd hr h.not_refused
  · refine applied_of_agree hu (wqsopt_setting hok) hk fun f hf => ?_
    cases f with
    | cfg c => exact absurd rfl (hf c)
    | _ => rfl

theorem wphymode_applied (h : CommandAccepted env g argv .wphymode) (hk : Agree g fun _ => none) :
    Given.Applied (fun _ => none) g.userParam (responseWPHYMODE g argv).1.userParam := by
  rcases @wphymode_effect g argv with hr | ⟨-, mode, -, hu, -⟩
  · exact absurd hr h.not_refused
  · exact applied_of_agree hu phyMode_setting hk fun _ _ => rfl

theorem takeWhile_ended {s t : List UInt8} : (s ++ 0 :: t).takeWhile (· != 0) = s.takeWhile (· != 0) := by
  induction s with
  | nil => rfl
  | cons c s ih => by_cases hc : c = 0 <;> simp [hc, ih]

theorem text_stored {n : Nat} {v : Vector UInt8 n} {s : List UInt8} (h : s.length < n) :
    text (putZero (moveMem v s) s.length) = cstr s := by
  rw [text, putZero_moveMem h, takeWhile_ended, cstr]

theorem wscapArgs_lengths (h : wscapArgs argv = true) :
    0 < (arg argv 1).length ∧ (arg argv 1).length ≤ 32 ∧ (arg argv 2).length ≤ 64 := by
  simp only [wscapArgs, Bool.and_eq_true, decide_eq_true_eq] at h
  exact ⟨h.1.2.2, h.1.2.1, h.2⟩

theorem infSsidSet_stored {sys : CfgParam} {s : List UInt8} (h1 : 0 < s.length) (h2 : s.length ≤ 32) :
    ∃ v, (infSsidSet sys (some s)).2 = sys.setWifi { sys.wifiCfg with ssid := v } ∧ text v = cstr s := by
  have hcond : ¬(32 < s.length ∨ s.length = 0) := by omega
  simp only [infSsidSet, if_neg hcond]
  exact ⟨_, rfl, text_stored (Nat.lt_succ_of_le h2)⟩

theorem infKeySet_stored {sys : CfgParam} {s : List UInt8} (h : s.length ≤ 64) :
    ∃ v k, (infKeySet sys 0 s).2 = sys.setWifi { sys.wifiCfg with keyIndex := 0, keyLength := k, psk := v } ∧
      v.toList.take k.toNat = s := by
  have hcond : ¬((3 : UInt8) < 0 ∨ 64 < s.length) := by
    rintro (h3 | h3)
    · exact absurd h3 (by decide)
    · omega
  have hk := @infKeySet_key sys s 0 (by decide) h
  rw [← hk.1] at hk
  rw [infKeySet, if_neg hcond] at hk ⊢
  exact ⟨_, _, rfl, hk.2⟩

theorem setSsidKey_setting {sys : CfgParam} (h : wscapArgs argv = true) (f : CfgField) :
    (setSsidKey sys (arg argv 1) (arg argv 2)).setting f = (wscapGives argv (.cfg f)).getD (sys.setting f) := by
  obtain ⟨h1, h2, h3⟩ := wscapArgs_lengths h
  obtain ⟨v, hv, htext⟩ := @infSsidSet_stored sys _ h1 h2
  obtain ⟨w, k, hw, htake⟩ := @infKeySet_stored (infSsidSet sys (some (arg argv 1))).2 _ h3
  rw [setSsidKey, hw, hv]
  cases f with
  | ssid => exact congrArg Value.string htext
  | key => exact congrArg Value.string htake
  | _ => rfl

theorem conTryTimes_setting {sys : CfgParam} {n : UInt8} (f : CfgField) :
    (infConTryTimesSet sys n).2.setting f = sys.setting f := by
  cases f with
  | _ => rfl

/-- The mode that is set is the mode there was. -/
theorem netMode_setting {sys : CfgParam} {mode : UInt8} (hm : mode < 3) (hp : sys.wifiCfg.protocol = mode) (f : CfgField) :
    (infNetModeSet sys mode).2.setting f = sys.setting f := by
  rw [netModeSet_eq hm, ← hp]
  cases f with
  | _ => rfl

theorem wscapCfg_station (hargs : wscapArgs argv = true) (h0 : g.sysParam.wifiCfg.protocol = 0) (f : CfgField) :
    (wscapCfg g argv).setting f = (wscapGives argv (.cfg f)).getD (g.sysParam.setting f) := by
  rw [wscapCfg, if_pos h0, conTryTimes_setting, setSsidKey_setting hargs, netMode_setting (by decide) h0]

theorem wscapCfg_softAp (hargs : wscapArgs argv = true) (h2 : g.sysParam.wifiCfg.protocol = 2)
    (hu : g.userParam.cfg.wifiCfg.protocol = 2) (f : CfgField) :
    (wscapCfg g argv).setting f = (wscapGives argv (.cfg f)).getD (g.userParam.cfg.setting f) := by
  have h0 : ¬g.sysParam.wifiCfg.protocol = 0 := by rw [h2]; decide
  have hmode : (infNetModeSet { g.userParam.cfg with bDhcpServer := 1, bDnsServer := 1 } 2).2.setting f =
      g.userParam.cfg.setting f := by
    refine (netMode_setting (by decide) hu f).trans ?_
    cases f with
    | _ => rfl
  rw [wscapCfg, if_neg h0, if_pos h2, setSsidKey_setting hargs, hmode]

theorem wscapGives_own (f : Field) (hf : ∀ c, f ≠ .cfg c) : wscapGives argv f = none := by
  cases f with
  | cfg c => exact absurd rfl (hf c)
  | _ => rfl

/-- With another mode there is no answer. -/
theorem wscap_modes (hq : ¬isQuery argv = true) (hargs : wscapArgs argv = true) (ha : (responseWSCAP g argv).2 ≠ []) :
    g.sysParam.wifiCfg.protocol = 0 ∨ g.sysParam.wifiCfg.protocol = 2 ∨ g.sysParam.wifiCfg.protocol = 1 := by
  by_contra hno
  simp only [not_or] at hno
  apply ha
  unfold responseWSCAP
  rw [if_neg hq, hargs, if_neg (by decide), if_neg hno.1, if_neg hno.2.1, if_neg hno.2.2]

theorem wscap_applied (h : CommandAccepted env g argv .wscap) (hk : WscapKeeps g argv) :
    (wscapGives argv).Applied g.userParam (responseWSCAP g argv).1.userParam := by
  rcases @wscap_effect g argv h.stores with hr | hr | ⟨hargs, -, hu, -⟩
  · exact absurd hr h.not_refused
  · exact absurd (congrArg Prod.snd hr) h.answered
  · rcases wscap_modes h.stores hargs h.answered with h0 | h2 | h1
    · exact applied_of_agree hu (wscapCfg_station hargs h0) (hk.station h0) wscapGives_own
    · exact applied_of_setting hu (wscapCfg_softAp hargs h2 (hk.softAp h2)) wscapGives_own
    · exact absurd h1 hk.adHoc

/-! ### The network commands -/

theorem toUInt8_toNat {n : UInt32} (h : n.toNat < 256) : n.toUInt8.toNat = n.toNat := by
  rw [UInt32.toNat_toUInt8]
  exact Nat.mod_eq_of_lt h

theorem nlocip_applied (h : CommandAccepted env g argv .nlocip) (hk : NlocipKeeps g argv) :
    (nlocipGives g argv).Applied g.userParam (responseNLOCIP env g argv).1.userParam := by
  rcases @nlocip_effect env g argv with hr | hu
  · exact absurd hr h.not_refused
  · obtain ⟨a, ha⟩ := Option.isSome_iff_exists.mp hk.address
    refine applied_of_agree hu (fun f => ?_) hk.agree fun f hf => ?_
    · rw [ha, Option.getD_some]
      cases f with
      | ip => rw [nlocipGives, ha]; rfl
      | gateWay => rw [nlocipGives, ha]; rfl
      | bDhcp =>
        rw [nlocipGives]
        by_cases h0 : g.sysParam.wifiCfg.protocol = 0
        · rw [if_pos h0, Option.getD_some, ← toUInt8_toNat (hk.mode h0)]
          exact congrArg (fun b : UInt8 => Value.number b.toNat) (if_pos h0)
        · rw [if_neg h0, Option.getD_none]
          exact congrArg (fun b : UInt8 => Value.number b.toNat) (if_neg h0)
      | _ => rfl
    · cases f with
      | cfg c => exact absurd rfl (hf c)
      | _ => rfl

theorem nqscnn_accepted (h : CommandAccepted env g argv .nqscnn) :
    (responseNQSCNN env g argv).1 = nqscnnResult env g argv ∧ nqscnnAccepts g.userParam argv = true := by
  have ha : (responseNQSCNN env g argv).failed = false := h.accepted
  by_cases hlen : argv.length = 5
  · rw [nqscnn_eq hlen] at ha ⊢
    cases hacc : nqscnnAccepts g.userParam argv with
    | true => exact ⟨rfl, rfl⟩
    | false =>
      rw [hacc] at ha
      cases ha
  · unfold responseNQSCNN at ha
    rw [if_neg h.stores, if_neg hlen] at ha
    cases ha

theorem atoi_single {a : List UInt8} (h : nmodeOk a = true) : (atoi a).toUInt8.toNat = (atoi a).toNat := by
  simp only [nmodeOk, Bool.and_eq_true, beq_iff_eq] at h
  obtain ⟨c, rfl⟩ := List.length_eq_one_iff.mp h.1.2
  apply toUInt8_toNat
  rw [atoi, atoiFrom]
  split
  · have hc : (0 * 10 + (c - 48).toUInt32).toNat = (c - 48).toNat := by
      rw [UInt32.zero_mul, UInt32.zero_add, UInt8.toNat_toUInt32]
    rw [atoiFrom, hc]
    exact (c - 48).toNat_lt
  · decide

theorem nport_toNat {a : List UInt8} (h : nportOk a = true) : (atoi a).toUInt16.toNat = (atoi a).toNat := by
  simp only [nportOk, Bool.and_eq_true, decide_eq_true_eq] at h
  have hle := UInt32.le_iff_toNat_le.mp h.2.1
  have e : (65535 : UInt32).toNat = 65535 := rfl
  rw [UInt32.toNat_toUInt16]
  omega

theorem nqscnn_applied (h : CommandAccepted env g argv .nqscnn) (hk : NqscnnKeeps g argv) :
    (nqscnnGives argv).Applied g.userParam (responseNQSCNN env g argv).1.userParam := by
  obtain ⟨hg, hacc⟩ := nqscnn_accepted h
  simp only [nqscnnAccepts, Bool.and_eq_true, Bool.or_eq_true, decide_eq_true_eq] at hacc
  obtain ⟨⟨⟨hmode, htype⟩, hport⟩, hip⟩ := hacc
  have hty : nqscnnType g.userParam argv = (atoi (arg argv 2)).toUInt8 := if_pos htype
  rw [hg, nqscnnResult, hty, if_pos hmode, if_pos hport]
  intro f
  cases f with
  | cfg f =>
    have hstores : nqscnnStores g.userParam argv = true := by
      rw [nqscnnStores, hmode]
      rfl
    rw [hstores]
    exact hk.agree f rfl
  | socketProtocol => exact congrArg Value.number (atoi_single hmode)
  | socketType => exact congrArg Value.number (atoi_single htype)
  | socketPort => exact congrArg Value.number (nport_toNat hport)
  | remoteCommIp =>
    rw [nqscnnGives]
    by_cases h1 : (atoi (arg argv 2)).toUInt8 = 1
    · have hno : nrmtipStores g.userParam argv = false := by
        rw [nrmtipStores, hty, h1]
        rfl
      rw [if_pos h1, hno]
      rfl
    · have hyes : nrmtipStores g.userParam argv = true := by
        rw [nrmtipStores, hty, decide_eq_true h1, hip.resolve_left (by rw [hty]; exact h1)]
        rfl
      obtain ⟨a, ha⟩ := Option.isSome_iff_exists.mp (hk.address h1)
      rw [if_neg h1, hyes, ha]
      rfl
  | _ => rfl

/-! ### The serial commands -/

theorem baudrate_applied (h : CommandAccepted env g argv .baudrate) :
    (Request.gives g argv .baudrate).Applied g.userParam (responseBAUDRATE g argv).1.userParam := by
  rcases @baudrate_effect g argv with hr | hu
  · exact absurd hr h.not_refused
  · rw [hu]
    intro f
    cases f with
    | _ => rfl

theorem clampRecvBuf_toNat {n : UInt32} (h : n.toNat < 65536) :
    (Globals.clampRecvBuf n.toUInt16).toNat = max 32 (min 1400 n.toNat) := by
  have hn : n.toUInt16.toNat = n.toNat := by
    rw [UInt32.toNat_toUInt16]
    exact Nat.mod_eq_of_lt h
  have e1 : (32 : UInt16).toNat = 32 := rfl
  have e2 : (1400 : UInt16).toNat = 1400 := rfl
  unfold Globals.clampRecvBuf
  simp only [UInt16.lt_iff_toNat_lt, hn, e1, e2]
  split
  · rw [e1]
    omega
  · split
    · rw [e2]
      omega
    · rw [hn]
      omega

theorem clampFrameGap_toNat (n : UInt32) : (clampFrameGap n).toNat = max 30 (min 10000 n.toNat) := by
  have e1 : (30 : UInt32).toNat = 30 := rfl
  have e2 : (10000 : UInt32).toNat = 10000 := rfl
  unfold clampFrameGap
  simp only [UInt32.lt_iff_toNat_lt, e1, e2]
  split
  · rw [show (30 : UInt16).toNat = 30 from rfl]
    omega
  · split
    · rw [show (10000 : UInt16).toNat = 10000 from rfl]
      omega
    · rw [UInt32.toNat_toUInt16]
      omega

theorem uartfl_applied (h : CommandAccepted env g argv .uartfl) (hk : (atoi (arg argv 1)).toNat < 65536) :
    (Request.gives g argv .uartfl).Applied g.userParam (responseUARTFL g argv).1.userParam := by
  rcases @setNumber_effect g argv _ _ with hr | hu
  · exact absurd hr h.not_refused
  · rw [responseUARTFL, hu]
    intro f
    cases f with
    | frameLength => exact congrArg Value.number (clampRecvBuf_toNat hk)
    | _ => rfl

theorem uartft_applied (h : CommandAccepted env g argv .uartft) :
    (Request.gives g argv .uartft).Applied g.userParam (responseUARTFT g argv).1.userParam := by
  rcases @setNumber_effect g argv _ _ with hr | hu
  · exact absurd hr h.not_refused
  · rw [responseUARTFT, hu]
    intro f
    cases f with
    | frameGap => exact congrArg Value.number (clampFrameGap_toNat _)
    | _ => rfl

theorem request_applied {request : Request} (h : CommandAccepted env g argv request) (hk : request.Keeps g argv) :
    (request.gives g argv).Applied g.userParam (respond env g argv request).1.userParam := by
  cases request with
  | wqsopt => exact wqsopt_applied h hk
  | wphymode => exact wphymode_applied h hk
  | wscap => exact wscap_applied h hk
  | nqscnn => exact nqscnn_applied h hk
  | nlocip => exact nlocip_applied h hk
  | baudrate => exact baudrate_applied h
  | uartfl => exact uartfl_applied h hk
  | uartft => exact uartft_applied h
  | _ => cases h.configures

end

end SerialNet.Param
