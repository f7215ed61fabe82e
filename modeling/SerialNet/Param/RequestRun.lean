import SerialNet.Param.FormScan
import SerialNet.Param.Updates

/-!
# Runs of configuration requests

Each accepted request gives what it names and keeps the rest, on its condition;
over a run every setting has the value given last.
-/

namespace SerialNet.Param

/-! ## One form -/

section
variable {u : UserCfgParam}

theorem UartForm.applied {f : UartForm} (hr : f.rejected = false) (hk : (atoiPtr f.frametime).toNat < 65536) :
    f.gives.Applied u (f.store u) := by
  simp only [UartForm.rejected, Bool.or_eq_false_iff] at hr
  have hlen : (atoiPtr f.framelen).toNat ≤ 1400 := (outside_eq_false (by decide)).mp hr.1.2
  intro field
  cases field with
  | frameLength =>
    refine congrArg Value.number ((UInt32.toNat_toUInt16 _).trans (Nat.mod_eq_of_lt ?_))
    omega
  | frameGap => exact congrArg Value.number ((UInt32.toNat_toUInt16 _).trans (Nat.mod_eq_of_lt hk))
  | _ => rfl

theorem inside_toNat {n : Nat} {x : UInt32} (hn : n < 256) (h : outside 0 n x = false) : x.toUInt8.toNat = x.toNat := by
  apply toUInt8_toNat
  have := (outside_eq_false (by omega)).mp h
  omega

theorem NetForm.applied {f : NetForm} {junk : UInt32} (hr : f.rejected = false) (hk : f.Keeps) :
    f.gives.Applied u (f.store (atonPtr junk f.remoteip) u) := by
  simp only [NetForm.rejected, Bool.or_eq_false_iff] at hr
  obtain ⟨a, ha⟩ := Option.isSome_iff_exists.mp hk.remoteip
  intro field
  cases field with
  | socketProtocol => exact congrArg Value.number (inside_toNat (n := 1) (by decide) hr.1.1.1)
  | socketType => exact congrArg Value.number (inside_toNat (n := 1) (by decide) hr.1.1.2)
  | socketPort => exact congrArg Value.number ((UInt32.toNat_toUInt16 _).trans (Nat.mod_eq_of_lt hk.port))
  | remoteCommIp =>
    rw [NetForm.gives, atonPtr, ha]
    rfl
  | _ => rfl

theorem address_stored {junk : UInt32} {p : Option (List UInt8)} (h : (p.bind inetAton).isSome = true) (v : Value) :
    address (atonPtr junk p) = ((p.bind inetAton).map address).getD v := by
  obtain ⟨a, ha⟩ := Option.isSome_iff_exists.mp h
  rw [atonPtr, ha]
  rfl

section
variable {f : WifiForm} {w : WifiCfg}

theorem key_stored (h : (strPtr f.key).length ≤ 64) :
    (f.storeWifi w).psk.toList.take (f.storeWifi w).keyLength.toNat = strPtr f.key := by
  have hlen : (f.storeWifi w).keyLength.toNat = (strPtr f.key).length := by
    show (UInt8.ofNat (counted (strPtr f.key)).length).toNat = _
    rw [counted_short (Nat.le_trans h (by decide))]
    exact UInt8.toNat_ofNat_of_lt' (Nat.lt_of_le_of_lt h (by decide))
  rw [hlen]
  exact setPsk_take h

theorem channel_given (h : outside 0 13 (atoiPtr f.channel) = false) :
    .number (f.storeWifi w).channel.toNat = (f.gives (.cfg .channel)).getD (.number w.channel.toNat) := by
  have hlt : (atoiPtr f.channel).toNat ≤ 13 := (outside_eq_false (by decide)).mp h
  show Value.number (if 0 < atoiPtr f.channel ∧ atoiPtr f.channel < 14 then (atoiPtr f.channel).toUInt8 else w.channel).toNat = _
  rw [WifiForm.gives]
  by_cases h0 : atoiPtr f.channel = 0
  · have hno : ¬(0 < atoiPtr f.channel ∧ atoiPtr f.channel < 14) := by rw [h0]; decide
    rw [if_pos h0, if_neg hno]
    rfl
  · have hyes : 0 < atoiPtr f.channel ∧ atoiPtr f.channel < 14 := by
      have e0 : (0 : UInt32).toNat = 0 := rfl
      have e14 : (14 : UInt32).toNat = 14 := rfl
      rw [← UInt32.toNat_inj, e0] at h0
      rw [UInt32.lt_iff_toNat_lt, UInt32.lt_iff_toNat_lt, e0, e14]
      omega
    rw [if_neg h0, if_pos hyes, inside_toNat (n := 13) (by decide) h]
    rfl

end

theorem WifiForm.applied {f : WifiForm} {junk : UInt32} (hr : f.rejected = false) (hk : f.Keeps) :
    f.gives.Applied u (f.store junk (f.storeWeb u)) := by
  simp only [WifiForm.rejected, Bool.or_eq_false_iff] at hr
  obtain ⟨⟨⟨hmode, hauth⟩, hencry⟩, hchannel⟩ := hr
  intro field
  cases field with
  | cfg field =>
    cases field with
    | protocol => exact congrArg Value.number (inside_toNat (n := 2) (by decide) hmode)
    | ssid => exact congrArg Value.string (text_stored hk.ssid)
    | key => exact congrArg Value.string (key_stored hk.key)
    | channel => exact channel_given hchannel
    | encry => exact congrArg Value.number (inside_toNat (n := 4) (by decide) hencry)
    | authMode => exact congrArg Value.number (inside_toNat (n := 3) (by decide) hauth)
    | ip => exact address_stored hk.ipaddr _
    | netmask => exact address_stored hk.netmask _
    | gateWay => exact address_stored hk.gateway _
    | dns => exact address_stored hk.dnsserv _
    | bDhcp =>
      rw [WifiForm.gives]
      by_cases h0 : f.wlProtocol = 0
      · rw [if_pos h0, ← toUInt8_toNat (hk.dhcp h0)]
        exact congrArg (fun b : UInt8 => Value.number b.toNat) (if_pos h0)
      · rw [if_neg h0]
        exact congrArg (fun b : UInt8 => Value.number b.toNat) (if_neg h0)
  | _ =>
    unfold WifiForm.store WifiForm.storeWeb
    rfl

end

/-! ## Runs of requests -/

section
variable {g : Globals}

section
variable {env : Env} {rx : List UInt8} {rxLen : Nat} {fields : List (String × List UInt8)}

theorem wifibase_stored (hs : scan wifiKeys rx rxLen = some fields) (hr : (readWifi fields).rejected = false) :
    (httpSetupWifibase env g rx rxLen).userParam = (readWifi fields).store env.junk ((readWifi fields).storeWeb g.userParam) := by
  unfold httpSetupWifibase
  rw [hs]
  dsimp only
  rw [hr]
  rfl

theorem uart_stored (hs : scan uartKeys rx rxLen = some fields) (hr : (readUart fields).rejected = false) :
    (httpSetupUart g rx rxLen).userParam = (readUart fields).store g.userParam := by
  unfold httpSetupUart
  rw [hs]
  dsimp only
  rw [hr]
  rfl

theorem net_stored (hs : scan netKeys rx rxLen = some fields) (hr : (readNet fields).rejected = false) :
    (httpSetupNet env g rx rxLen).userParam =
      (readNet fields).store (atonPtr env.junk (readNet fields).remoteip) g.userParam := by
  unfold httpSetupNet
  rw [hs]
  dsimp only
  rw [hr]
  rfl

theorem form_applied {form : Form} (ha : form.Accepted rx rxLen) (hk : form.Keeps rx rxLen) :
    (form.given rx rxLen).Applied g.userParam (form.handle env g rx rxLen).userParam := by
  intro f
  cases form with
  | wifibase =>
    obtain ⟨fields, hs, hr⟩ := ha
    rw [Form.given, hs]
    exact (congrArg (fun u => UserCfgParam.setting u f) (wifibase_stored hs hr)).trans (WifiForm.applied hr (hk fields hs) f)
  | setupuart =>
    obtain ⟨fields, hs, hr⟩ := ha
    rw [Form.given, hs]
    exact (congrArg (fun u => UserCfgParam.setting u f) (uart_stored hs hr)).trans (UartForm.applied hr (hk fields hs) f)
  | setupnet =>
    obtain ⟨fields, hs, hr⟩ := ha
    rw [Form.given, hs]
    exact (congrArg (fun u => UserCfgParam.setting u f) (net_stored hs hr)).trans (NetForm.applied hr (hk fields hs) f)

end

theorem boot_saved {env : Env} {u : UserCfgParam} (hv : u.isValid = userParamFlagValid) (hp : env.factoryPin = false) :
    (({ g with userParam := u } : Globals).saveUserParam.boot env).userParam = { u with sleepMode := 0 } := by
  have hsaved : ({ g with userParam := u } : Globals).saveUserParam.saved = some u := if_pos hv
  rw [(boots env _).userParam, hsaved, keptByBoot, hp]
  rfl

theorem atCommand_requested {env : Env} {line : List UInt8} {request : Request} (h : requested line = some request) :
    atCommand env g line = respond env g (parseParameter line) request := by
  unfold requested at h
  unfold atCommand processCommand
  cases hp : parseParameter line with
  | nil =>
    rw [hp] at h
    cases h
  | cons name args =>
    rw [hp] at h
    change stringTorequest name = some request at h
    dsimp only
    rw [h]

theorem cfgRequest_applied {r : CfgRequest} (ha : r.Accepted g) (hk : r.Keeps g) :
    (r.given g).Applied g.userParam (r.handle g).userParam := by
  cases r with
  | command env line =>
    obtain ⟨request, hr, hacc⟩ := ha
    have happlied := request_applied hacc (hk request hr)
    intro f
    rw [CfgRequest.handle, atCommand_requested hr, happlied f, CfgRequest.given, hr]
    rfl
  | post form env rx rxLen => exact form_applied ha hk
  | save env =>
    intro f
    have hboot := @boot_saved g env { g.userParam with isValid := userParamFlagValid } rfl hk
    rw [CfgRequest.handle]
    refine (congrArg (fun u => UserCfgParam.setting u f) hboot).trans ?_
    cases f with
    | _ => rfl
  | reboot env =>
    intro f
    have hboot := @boot_saved g env { g.userParam with atMode := g.wlWorkmode.toUInt8, isValid := userParamFlagValid } rfl hk
    refine (congrArg (fun u => UserCfgParam.setting u f) hboot).trans ?_
    cases f with
    | _ => rfl
  | link evt => exact fun _ => rfl

theorem run_given {requests : List CfgRequest}
    (h : Run.Meets CfgRequest.handle (fun g r => r.Accepted g ∧ r.Keeps g) g requests) (f : Field) :
    (Run.run CfgRequest.handle g requests).userParam.setting f = (lastGiven g requests f).getD (g.userParam.setting f) := by
  induction requests generalizing g with
  | nil => rfl
  | cons r requests ih =>
    obtain ⟨⟨ha, hk⟩, h⟩ := h
    rw [Run.run_cons, ih h, cfgRequest_applied ha hk f, lastGiven]
    cases lastGiven (r.handle g) requests f with
    | none => rfl
    | some v => rfl

end

/-- `NQSCNN=0,0,80,10.0.0.1` -/
def socketLine : List UInt8 := [78, 81, 83, 67, 78, 78, 61, 48, 44, 48, 44, 56, 48, 44, 49, 48, 46, 48, 46, 48, 46, 49]

theorem socketLine_parsed : parseParameter socketLine =
    [[78, 81, 83, 67, 78, 78], [48], [48], [56, 48], [49, 48, 46, 48, 46, 48, 46, 49]] := by decide

theorem socketLine_accepted {g : Globals} : CommandAccepted sampleEnv g (parseParameter socketLine) .nqscnn := by
  have hq : isQuery (parseParameter socketLine) = false := by decide
  have hlen : (parseParameter socketLine).length = 5 := by decide
  have hacc : nqscnnAccepts g.userParam (parseParameter socketLine) = true := by
    have htype : nqscnnType g.userParam (parseParameter socketLine) = 0 := if_pos (by decide)
    rw [nqscnnAccepts, htype]
    decide
  have heq := @nqscnn_eq sampleEnv g _ hlen
  rw [hacc] at heq
  refine ⟨rfl, Bool.eq_false_iff.mp hq, ?_, ?_⟩
  · rw [respond, heq]
    rfl
  · rw [respond, heq]
    exact List.cons_ne_nil _ _

/-- `framelen=64&baudrate=300&frametime=30` -/
def shortFrames : List UInt8 :=
  [102, 114, 97, 109, 101, 108, 101, 110, 61, 54, 52, 38, 98, 97, 117, 100, 114, 97, 116, 101, 61, 51, 48, 48, 38, 102, 114, 97, 109,
    101, 116, 105, 109, 101, 61, 51, 48]

def keptRequests : List CfgRequest :=
  [.command sampleEnv socketLine, .post .setupuart sampleEnv shortFrames shortFrames.length, .save sampleEnv]

theorem socketLine_requested : requested socketLine = some .nqscnn := by decide

theorem scan_shortFrames : scan uartKeys shortFrames shortFrames.length =
    some [("framelen=", [54, 52]), ("baudrate=", [51, 48, 48]), ("frametime=", [51, 48])] := by decide

theorem keptRequests_meet :
    Run.Meets CfgRequest.handle (fun g r => r.Accepted g ∧ r.Keeps g) (Globals.factory sampleEnv) keptRequests := by
  refine ⟨⟨⟨.nqscnn, socketLine_requested, socketLine_accepted⟩, fun request hr => ?_⟩,
    ⟨⟨_, scan_shortFrames, by decide⟩, fun fields hf => ?_⟩, ⟨trivial, rfl⟩, trivial⟩
  · cases socketLine_requested.symm.trans hr
    refine ⟨fun f _ => rfl, fun _ => ?_⟩
    rw [socketLine_parsed]
    decide
  · cases scan_shortFrames.symm.trans hf
    decide

theorem keptRequests_given {g : Globals} : lastGiven g keptRequests .frameLength = some (.number 64) := by
  simp only [keptRequests, lastGiven, CfgRequest.given, Form.given, socketLine_requested, scan_shortFrames, Option.bind_some]
  rfl

/-- A soft AP with the SSID `x`. -/
def apEntries : List (String × List UInt8) :=
  [("wifimode=", [50]), ("encry=", [48]), ("authmode=", [48]), ("apssid=", [120]), ("apkey=", []),
    ("apipaddr=", [49, 48, 46, 48, 46, 48, 46, 49]), ("apnetmask=", [50, 53, 53, 46, 48, 46, 48, 46, 48]), ("channel=", [54]),
    ("stassid=", [121]), ("stakey=", []), ("dhcp=", [48]), ("staipaddr=", [49, 48, 46, 48, 46, 48, 46, 50]),
    ("stanetmask=", [50, 53, 53, 46, 48, 46, 48, 46, 48]), ("gateway=", [49, 48, 46, 48, 46, 48, 46, 49]),
    ("dnsserv=", [49, 48, 46, 48, 46, 48, 46, 49])]

/-- `WPHYMODE=1` -/
def phyModeLine : List UInt8 := [87, 80, 72, 89, 77, 79, 68, 69, 61, 49]

def lostRequests : List CfgRequest :=
  [.post .wifibase sampleEnv (bodyText apEntries) (bodyText apEntries).length, .command sampleEnv phyModeLine]

theorem scan_ap : scan wifiKeys (bodyText apEntries) (bodyText apEntries).length = some apEntries := by
  have h := @scan_body [] apEntries (by decide)
  rwa [List.append_nil] at h

theorem phyModeLine_parsed : parseParameter phyModeLine = [[87, 80, 72, 89, 77, 79, 68, 69], [49]] := by decide

theorem phyModeLine_stores {g : Globals} (h : g.linked = false) :
    respond sampleEnv g (parseParameter phyModeLine) .wphymode =
      ok (({ g with userParam := { g.userParam with
            cfg := g.userParam.cfg.setWifi { g.userParam.cfg.wifiCfg with phyMode := 1 } } } : Globals).setSys
        (infPhyModeSet g.sysParam 1).2).copySysToUser := by
  rw [phyModeLine_parsed]
  show responseWPHYMODE g [[87, 80, 72, 89, 77, 79, 68, 69], [49]] = _
  unfold responseWPHYMODE
  rw [if_neg (by decide), if_pos (by decide)]
  dsimp only
  rw [if_neg (by decide), if_neg (by rw [h]; decide)]
  rfl

theorem phyModeLine_requested : requested phyModeLine = some .wphymode := by decide

theorem phyModeLine_ssid {g : Globals} (h : g.linked = false) :
    (atCommand sampleEnv g phyModeLine).1.userParam.setting (.cfg .ssid) = g.sysParam.setting .ssid := by
  rw [atCommand_requested phyModeLine_requested, phyModeLine_stores h]
  exact phyMode_setting .ssid

theorem lostRequests_given {g : Globals} : lastGiven g lostRequests (.cfg .ssid) = some (.string [120]) := by
  have hgives : (readWifi apEntries).gives (.cfg .ssid) = some (.string [120]) := by decide
  simp only [lostRequests, lastGiven, CfgRequest.given, Form.given, phyModeLine_requested, scan_ap, Option.bind_some, hgives]
  rfl

end SerialNet.Param
