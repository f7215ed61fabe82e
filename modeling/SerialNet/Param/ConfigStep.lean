import SerialNet.Param.AtEffect

/-!
# The ranges of the configuration

What the senders and the boot code rely on in `UserParam`. A boot establishes
the ranges from the saved parameters, and no AT command leaves them.
-/

namespace SerialNet.Param

/-! ## The ranges -/

structure WifiCfg.InRange (w : WifiCfg) : Prop where
  channel : 1 ≤ w.channel ∧ w.channel ≤ 13
  encry : w.encry ≤ 4
  authMode : w.authMode ≤ 3
  auth : w.encry = 0 → w.authMode = 0
  ssid : 0 ∈ w.ssid.toList
  keyLength : w.keyLength ≤ 64

/-- The ranges that the senders, the receiver and the boot code rely on. -/
structure UserCfgParam.InRange (u : UserCfgParam) : Prop where
  atMode : u.atMode ≤ 1
  socketProtocol : u.socketProtocol ≤ 1
  socketType : u.socketType ≤ 1
  socketPort : u.socketPort ≠ 0
  frameLength : 32 ≤ u.frameLength ∧ u.frameLength ≤ 1400
  frameGap : 30 ≤ u.frameGap ∧ u.frameGap ≤ 10000
  wifi : u.cfg.wifiCfg.InRange

/-! With them, the network mode. -/

structure WifiCfg.Ok (w : WifiCfg) : Prop where
  protocol : w.protocol ≤ 2
  channel : 1 ≤ w.channel ∧ w.channel ≤ 13
  encry : w.encry ≤ 4
  authMode : w.authMode ≤ 3
  auth : w.encry = 0 → w.authMode = 0
  ssid : 0 ∈ w.ssid.toList
  keyLength : w.keyLength ≤ 64

structure UserCfgParam.Ok (u : UserCfgParam) : Prop where
  atMode : u.atMode ≤ 1
  socketProtocol : u.socketProtocol ≤ 1
  socketType : u.socketType ≤ 1
  socketPort : u.socketPort ≠ 0
  frameLength : 32 ≤ u.frameLength ∧ u.frameLength ≤ 1400
  frameGap : 30 ≤ u.frameGap ∧ u.frameGap ≤ 10000
  wifi : u.cfg.wifiCfg.Ok

theorem WifiCfg.Ok.inRange {w : WifiCfg} (h : w.Ok) : w.InRange :=
  ⟨h.channel, h.encry, h.authMode, h.auth, h.ssid, h.keyLength⟩

theorem WifiCfg.InRange.ok {w : WifiCfg} (h : w.InRange) (hp : w.protocol ≤ 2) : w.Ok :=
  ⟨hp, h.channel, h.encry, h.authMode, h.auth, h.ssid, h.keyLength⟩

theorem UserCfgParam.Ok.inRange {u : UserCfgParam} (h : u.Ok) : u.InRange :=
  ⟨h.atMode, h.socketProtocol, h.socketType, h.socketPort, h.frameLength, h.frameGap, h.wifi.inRange⟩

theorem UserCfgParam.InRange.ok {u : UserCfgParam} (h : u.InRange) (hp : u.cfg.wifiCfg.protocol ≤ 2) : u.Ok :=
  ⟨h.atMode, h.socketProtocol, h.socketType, h.socketPort, h.frameLength, h.frameGap, h.wifi.ok hp⟩

/-- Nothing worse than `allowed` has happened. -/
def Globals.Only (allowed : Fault → Prop) (g : Globals) : Prop := ∀ f ∈ g.faults, allowed f

/-- What the rest of the program relies on: the parameters, the other copy of
the Wi-Fi settings and the saved parameters. -/
structure Globals.Config (g : Globals) : Prop where
  userParam : g.userParam.Ok
  wlWorkmode : g.wlWorkmode ≤ 1
  sysParam : g.sysParam.wifiCfg.Ok
  userFlash : g.userFlash.isValid = userParamFlagValid → g.userFlash.Ok

theorem mem_putZero {n : Nat} {v : Vector UInt8 n} {i : Nat} (h : i < n) : 0 ∈ (putZero v i).toList := by
  rw [← List.take_append_drop i (putZero v i).toList, putZero_drop h]
  simp

/-! ## The setters -/

section
variable {sys : CfgParam} {w : WifiCfg}

theorem netMode_ok {mode : UInt8} (h : sys.wifiCfg.Ok) : (infNetModeSet sys mode).2.wifiCfg.Ok := by
  unfold infNetModeSet
  split
  · exact h
  · next hm =>
    have hm : mode ≤ 2 := by
      rw [UInt8.not_le, UInt8.lt_iff_toNat_lt] at hm
      rw [UInt8.le_iff_toNat_le]
      exact Nat.le_of_lt_succ hm
    exact { h with protocol := hm }

theorem phyMode_ok {mode : UInt8} (h : sys.wifiCfg.Ok) : (infPhyModeSet sys mode).2.wifiCfg.Ok := by
  unfold infPhyModeSet
  split
  · exact h
  · exact { h with }

theorem WifiCfg.Ok.withSsid {v : Vector UInt8 33} (h : w.Ok) (hv : 0 ∈ v.toList) : { w with ssid := v }.Ok :=
  ⟨h.protocol, h.channel, h.encry, h.authMode, h.auth, hv, h.keyLength⟩

theorem ssid_ok {p : Option (List UInt8)} (h : sys.wifiCfg.Ok) : (infSsidSet sys p).2.wifiCfg.Ok := by
  have hcleared : { sys.wifiCfg with ssid := putZero sys.wifiCfg.ssid 0 }.Ok := h.withSsid (mem_putZero (by decide))
  cases p with
  | none => exact hcleared
  | some s =>
    unfold infSsidSet
    dsimp only
    split
    · exact hcleared
    · next hl =>
      have hlt : s.length < 33 := by omega
      exact h.withSsid (mem_putZero hlt)

theorem ofNat_le {n m : Nat} (h : n ≤ m) (hm : m < 256) : UInt8.ofNat n ≤ UInt8.ofNat m := by
  rw [UInt8.le_iff_toNat_le, UInt8.toNat_ofNat', UInt8.toNat_ofNat']
  omega

theorem key_ok {i : UInt8} {s : List UInt8} (h : sys.wifiCfg.Ok) : (infKeySet sys i s).2.wifiCfg.Ok := by
  unfold infKeySet
  split
  · exact h
  · next hs =>
    have hlen : s.length ≤ 64 := by
      apply Nat.le_of_not_lt
      intro hl
      exact hs (.inr hl)
    exact { h with keyLength := ofNat_le hlen (by decide) }

theorem ssidKey_ok {s k : List UInt8} (h : sys.wifiCfg.Ok) : (setSsidKey sys s k).wifiCfg.Ok := key_ok (ssid_ok h)

theorem wqsopt_ok {a : WqsoptArgs} (ha : a.Ok) (h : sys.wifiCfg.Ok) : (a.set sys).wifiCfg.Ok :=
  { netMode_ok h with channel := ha.channel, encry := ha.encry, authMode := ha.authMode, auth := ha.auth }

theorem clampRecvBuf_ok (n : UInt16) : 32 ≤ Globals.clampRecvBuf n ∧ Globals.clampRecvBuf n ≤ 1400 := by
  unfold Globals.clampRecvBuf
  split
  · decide
  · next h1 =>
    split
    · decide
    · next h2 => exact ⟨UInt16.not_lt.mp h1, UInt16.not_lt.mp h2⟩

theorem clampFrameGap_ok (n : UInt32) : 30 ≤ clampFrameGap n ∧ clampFrameGap n ≤ 10000 := by
  unfold clampFrameGap
  split
  · decide
  · next h1 =>
    split
    · decide
    · next h2 =>
      rw [UInt32.not_lt, UInt32.le_iff_toNat_le] at h1 h2
      simp only [UInt16.le_iff_toNat_le, UInt32.toNat_toUInt16]
      have e1 : (30 : UInt32).toNat = 30 := rfl
      have e2 : (10000 : UInt32).toNat = 10000 := rfl
      have e3 : (30 : UInt16).toNat = 30 := rfl
      have e4 : (10000 : UInt16).toNat = 10000 := rfl
      omega

end

/-! ## Booting -/

section
variable {env : Env} {g : Globals}

theorem default_ssid (a : Vector UInt8 6) : 0 ∈ (infLoadDefaultParam a).wifiCfg.ssid.toList := by
  have hlen : (bytes "Nufront_Serial" ++ hex2 a[4] ++ hex2 a[5]).length = 18 := rfl
  have hdrop : (zeros : Vector UInt8 33).toList.drop 18 = 0 :: List.replicate 14 0 := rfl
  show 0 ∈ (moveMem zeros (bytes "Nufront_Serial" ++ hex2 a[4] ++ hex2 a[5])).toList
  rw [moveMem_toList (by rw [hlen]; decide), hlen, hdrop]
  simp

theorem default_ok (a : Vector UInt8 6) : (infLoadDefaultParam a).wifiCfg.Ok where
  protocol := show (2 : UInt8) ≤ 2 by decide
  channel := show (1 : UInt8) ≤ 11 ∧ (11 : UInt8) ≤ 13 by decide
  encry := show (0 : UInt8) ≤ 4 by decide
  authMode := show (0 : UInt8) ≤ 3 by decide
  auth := fun _ => rfl
  ssid := default_ssid a
  keyLength := show (0 : UInt8) ≤ 64 by decide

theorem factory_ok (a : Vector UInt8 6) : (initFactoryParam a).Ok where
  atMode := show (0 : UInt8) ≤ 1 by decide
  socketProtocol := show (1 : UInt8) ≤ 1 by decide
  socketType := show (1 : UInt8) ≤ 1 by decide
  socketPort := show (8101 : UInt16) ≠ 0 by decide
  frameLength := show (32 : UInt16) ≤ 1024 ∧ (1024 : UInt16) ≤ 1400 by decide
  frameGap := show (30 : UInt16) ≤ 100 ∧ (100 : UInt16) ≤ 10000 by decide
  wifi := default_ok a

def Globals.withMode (g : Globals) : Globals := { g with wlWorkmode := g.userParam.atMode.toUInt32 }

theorem withMode_config (hu : g.userParam.Ok) (hs : g.sysParam.wifiCfg.Ok)
    (hf : g.userFlash.isValid = userParamFlagValid → g.userFlash.Ok) : g.withMode.Config where
  userParam := hu
  wlWorkmode := by
    have hm := UInt8.le_iff_toNat_le.mp hu.atMode
    rw [UInt32.le_iff_toNat_le]
    exact (UInt8.toNat_toUInt32 _).trans_le hm
  sysParam := hs
  userFlash := hf

theorem flag_ne (a : Vector UInt8 6) : (initFactoryParam a).isValid ≠ userParamFlagValid :=
  show (0 : UInt32) ≠ userParamFlagValid by decide

section
variable (env g)

theorem loadFactory_userParam : (g.loadFactory env).userParam = initFactoryParam env.permanentAddress := rfl
theorem loadFactory_userFlash : (g.loadFactory env).userFlash = initFactoryParam env.permanentAddress := rfl
theorem loadFactory_sysParam : (g.loadFactory env).sysParam = infLoadDefaultParam env.permanentAddress := rfl
theorem loadFactory_faults : (g.loadFactory env).faults = g.faults := by
  unfold Globals.loadFactory Globals.post
  dsimp only

theorem loadFactory_wlWorkmode : (g.loadFactory env).wlWorkmode = g.wlWorkmode := by
  unfold Globals.loadFactory Globals.post
  dsimp only

theorem reset_userFlash : (g.reset env).userFlash = g.userFlash := by
  unfold Globals.reset
  dsimp only

theorem reset_faults : (g.reset env).faults = g.faults := by
  unfold Globals.reset
  dsimp only

theorem reset_wlWorkmode : (g.reset env).wlWorkmode = 0 := rfl

end

theorem loadFactory_config (hw : g.wlWorkmode ≤ 1) : (g.loadFactory env).Config where
  userParam := by rw [loadFactory_userParam]; exact factory_ok _
  wlWorkmode := by rw [loadFactory_wlWorkmode]; exact hw
  sysParam := by rw [loadFactory_sysParam]; exact default_ok _
  userFlash := by rw [loadFactory_userFlash]; exact fun h => absurd h (flag_ne _)

theorem Globals.Config.withMode (h : g.Config) : g.withMode.Config :=
  withMode_config h.userParam h.sysParam h.userFlash

theorem loadUserParam_config (hu : g.userParam.Ok) (hf : g.userFlash.isValid = userParamFlagValid → g.userFlash.Ok) :
    g.loadUserParam.initSeriaNet.withMode.Config :=
  withMode_config (g := g.loadUserParam.initSeriaNet)
    ⟨hu.atMode, hu.socketProtocol, hu.socketType, hu.socketPort, hu.frameLength, hu.frameGap, hu.wifi⟩ hu.wifi hf

theorem initDefaultData_eq :
    g.initDefaultData env =
      if env.factoryPin then g.loadFactory env
      else if g.userFlash.isValid = userParamFlagValid then g.getUserParam.loadUserParam.initSeriaNet.withMode
      else (g.getUserParam.loadFactory env).withMode := by
  unfold Globals.initDefaultData
  split
  · rfl
  · show Globals.withMode (if g.userFlash.isValid = userParamFlagValid then _ else _) = _
    split
    · rfl
    · rfl

/-- A boot needs the saved parameters only. -/
theorem boot_config (hf : g.userFlash.isValid = userParamFlagValid → g.userFlash.Ok) : (g.boot env).Config := by
  have hreset : (g.reset env).wlWorkmode ≤ 1 := by rw [reset_wlWorkmode]; decide
  rw [← reset_userFlash env g] at hf
  unfold Globals.boot
  rw [initDefaultData_eq]
  generalize g.reset env = g at hreset hf ⊢
  split
  · exact loadFactory_config hreset
  · split
    · next hv => exact loadUserParam_config (g := g.getUserParam) (hf hv) hf
    · exact (loadFactory_config (g := g.getUserParam) hreset).withMode

theorem boot_faults (env : Env) (g : Globals) : (g.boot env).faults = g.faults := by
  rw [← reset_faults env g]
  unfold Globals.boot
  rw [initDefaultData_eq]
  generalize g.reset env = g
  split
  · exact loadFactory_faults env g
  · split
    · rfl
    · exact loadFactory_faults env g.getUserParam

/-! ## AT commands that neither save nor boot -/

/-- The saved parameters and the work mode are untouched, and the ranges are kept. -/
structure Moves (g g' : Globals) : Prop where
  userFlash : g'.userFlash = g.userFlash
  wlWorkmode : g'.wlWorkmode = g.wlWorkmode
  userParam : g.Config → g'.userParam.Ok
  sysParam : g.Config → g'.sysParam.wifiCfg.Ok
  faults : g.Config → ∀ f ∈ g'.faults, f ∈ g.faults ∨ f = .uninitRead

theorem Moves.config {g' : Globals} (hm : Moves g g') (h : g.Config) : g'.Config where
  userParam := hm.userParam h
  wlWorkmode := by rw [hm.wlWorkmode]; exact h.wlWorkmode
  sysParam := hm.sysParam h
  userFlash := by rw [hm.userFlash]; exact h.userFlash

theorem Moves.only {g' : Globals} {allowed : Fault → Prop} (hm : Moves g g') (h : g.Config) (hu : allowed .uninitRead)
    (ho : g.Only allowed) : g'.Only allowed := fun f hf => (hm.faults h f hf).elim (ho f) fun he => he ▸ hu

theorem Moves.trans {g' g'' : Globals} (hm : Moves g g') (hm' : Moves g' g'') : Moves g g'' where
  userFlash := hm'.userFlash.trans hm.userFlash
  wlWorkmode := hm'.wlWorkmode.trans hm.wlWorkmode
  userParam := fun h => hm'.userParam (hm.config h)
  sysParam := fun h => hm'.sysParam (hm.config h)
  faults := fun h f hf => (hm'.faults (hm.config h) f hf).elim (hm.faults h f) .inr

section
variable {g' : Globals} {argv : List (List UInt8)}

theorem moves_same (hs : Same g g') (hf : ∀ f ∈ g'.faults, f ∈ g.faults ∨ f = .uninitRead) : Moves g g' where
  userFlash := hs.userFlash
  wlWorkmode := hs.wlWorkmode
  userParam := fun h => by rw [hs.userParam]; exact h.userParam
  sysParam := fun h => by rw [hs.sysParam]; exact h.sysParam
  faults := fun _ => hf

theorem moves_kept (hs : Same g g') (hf : g'.faults = g.faults) : Moves g g' :=
  moves_same hs fun f hm => .inl (by rwa [hf] at hm)

theorem moves_uninit (hs : Same g g') (hf : g'.faults = g.faults ++ [.uninitRead]) : Moves g g' := by
  refine moves_same hs fun f hm => ?_
  rw [hf, List.mem_append, List.mem_singleton] at hm
  exact hm

theorem moves_refl : Moves g g := moves_kept (same_refl g) rfl
theorem moves_fail (e : ErrorType) : Moves g (fail g e).1 := moves_refl
theorem moves_failText (t : String) : Moves g (failText g t).1 := moves_refl

theorem moves_bare {a : Answer} (ha : Moves g a.1) : Moves g (bare g argv a).1 := by
  unfold bare
  split
  · exact moves_fail _
  · exact ha

theorem moves_user {u : UserCfgParam} (hu : g.Config → u.Ok) : Moves g { g with userParam := u } :=
  ⟨rfl, rfl, hu, fun h => h.sysParam, fun _ _ hf => .inl hf⟩

theorem moves_cfg {cfg : CfgParam} (hcfg : g.Config → cfg.wifiCfg.Ok) (hs : g'.sysParam = cfg)
    (hu : g'.userParam = { g.userParam with cfg := cfg }) (hf : g'.userFlash = g.userFlash)
    (hw : g'.wlWorkmode = g.wlWorkmode) (hq : g'.faults = g.faults) : Moves g g' where
  userFlash := hf
  wlWorkmode := hw
  userParam := fun h => by rw [hu]; exact { h.userParam with wifi := hcfg h }
  sysParam := fun h => by rw [hs]; exact hcfg h
  faults := fun _ f hm => .inl (by rwa [hq] at hm)

theorem baudrate_moves : Moves g (responseBAUDRATE g argv).1 := by
  unfold responseBAUDRATE
  by_cases hlen : argv.length < 2
  · have h2 : (argv.length == 2 && strIsDigit (arg argv 1)) = false := by
      rw [beq_false_of_ne (show argv.length ≠ 2 by omega)]; rfl
    rw [if_pos hlen, if_neg (not_query (by omega)), if_neg (by rw [h2]; exact Bool.false_ne_true)]
    exact moves_uninit ⟨rfl, rfl, rfl, rfl⟩ rfl
  · rw [if_neg hlen]
    split
    · exact moves_refl
    · split
      · split
        · exact moves_user fun h => { h.userParam with }
        · exact moves_fail _
      · exact moves_fail _

theorem setNumber_moves (shown : Reply) {store : UInt32 → UserCfgParam} (hst : g.Config → ∀ n, (store n).Ok) :
    Moves g (setNumber g argv shown store).1 := by
  unfold setNumber
  split
  · exact moves_refl
  · split
    · exact moves_user fun h => hst h _
    · exact moves_fail _

theorem lslpt_moves : Moves g (responseLSLPT g argv).1 := by
  unfold responseLSLPT
  split
  · exact moves_fail _
  · dsimp only
    split
    · exact moves_fail _
    · split
      · exact moves_failText _
      · split
        · exact ⟨rfl, rfl, fun h => { h.userParam with }, fun h => h.sysParam, fun _ _ hf => .inl hf⟩
        · exact ⟨rfl, rfl, fun h => { h.userParam with }, fun h => h.sysParam, fun _ _ hf => .inl hf⟩

/-- An address that does not convert is read uninitialised. -/
theorem moves_aton (a : List UInt8) : Moves g (if (inetAton a).isNone then g.fault .uninitRead else g) := by
  split
  · exact moves_uninit ⟨rfl, rfl, rfl, rfl⟩ rfl
  · exact moves_refl

theorem pingInit_moves (n : UInt32) : Moves g (pingInit g n).2 := by
  unfold pingInit
  split
  · exact moves_refl
  · exact moves_kept ⟨rfl, rfl, rfl, rfl⟩ rfl

theorem ping_moves : Moves g (responsePING g argv).1 := by
  unfold responsePING
  split
  · exact moves_fail _
  · have haton := moves_aton (g := g) (arg argv 1)
    dsimp only
    generalize (if (inetAton (arg argv 1)).isNone then g.fault .uninitRead else g) = g1 at haton ⊢
    split
    · exact haton.trans (pingInit_moves _)
    · exact haton.trans (pingInit_moves _)

theorem wqsopt_moves : Moves g (responseWQSOPT env g argv).1 := by
  have hfaults : (responseWQSOPT env g argv).1.faults = g.faults := by
    unfold responseWQSOPT
    dsimp only
    split
    · rfl
    · split
      · rfl
      · split
        · rfl
        · split
          · rfl
          · cases g.linked with
            | true => split <;> rfl
            | false => split <;> rfl
  have heffect : Refused g argv (responseWQSOPT env g argv) ∨ _ := wqsopt_effect
  rcases heffect with hr | ⟨-, hok, hs, hu, hf, hw⟩
  · exact moves_kept hr.1 hfaults
  · exact moves_cfg (fun h => wqsopt_ok hok h.sysParam) hs hu hf hw hfaults

theorem wtxrate_moves : Moves g (responseWTXRATE g argv).1 := by
  unfold responseWTXRATE
  split
  · split
    · exact moves_refl
    · split
      · exact moves_refl
      · exact moves_fail _
  · split
    · exact moves_fail _
    · split
      · exact moves_failText _
      · unfold infTxRateSet
        dsimp only
        split
        · exact moves_refl
        · exact moves_kept ⟨rfl, rfl, rfl, rfl⟩ rfl

theorem scanAp_moves (f : UInt8) : Moves g (scanAp env g f).1 := by
  have hssid : Moves g (if !({ g with scanFlag := 0 } : Globals).linked then
      (({ g with scanFlag := 0 } : Globals).setSys (infSsidSet g.sysParam none).2).post .start
      else { g with scanFlag := 0 }) := by
    split
    · exact ⟨rfl, rfl, fun h => h.userParam, fun h => ssid_ok h.sysParam, fun _ _ hf => .inl hf⟩
    · exact moves_kept ⟨rfl, rfl, rfl, rfl⟩ rfl
  refine hssid.trans ?_
  unfold scanAp
  dsimp only
  generalize (if !({ g with scanFlag := 0 } : Globals).linked then
      (({ g with scanFlag := 0 } : Globals).setSys (infSsidSet g.sysParam none).2).post .start
      else { g with scanFlag := 0 }) = g1
  have hret : (infScanStart g1 true 32 (0 - f) 0).1 = 0 := rfl
  rw [if_neg (not_not.mpr hret)]
  split
  · exact ⟨rfl, rfl, fun h => h.userParam, fun h => h.sysParam, fun _ _ hf => .inl hf⟩
  · exact ⟨rfl, rfl, fun h => h.userParam, fun h => h.sysParam, fun _ _ hf => .inl hf⟩

theorem wsbcn_moves : Moves g (responseWSBCN g argv).1 := by
  unfold responseWSBCN infBeaconPeriodSet
  split
  · split
    · exact moves_refl
    · split
      · exact moves_refl
      · exact moves_fail _
  · split
    · exact moves_fail _
    · split
      · exact moves_fail _
      · split
        · exact moves_fail _
        · dsimp only
          split
          · exact moves_kept ⟨rfl, rfl, rfl, rfl⟩ rfl
          · split
            · exact moves_kept ⟨rfl, rfl, rfl, rfl⟩ rfl
            · exact moves_kept ⟨rfl, rfl, rfl, rfl⟩ rfl

theorem wscanap_moves : Moves g (responseWSCANAP env g argv).1 := by
  unfold responseWSCANAP
  split
  · exact moves_fail _
  · have halloc : Moves g { g with heap := scanTableSize :: g.heap } := moves_kept ⟨rfl, rfl, rfl, rfl⟩ rfl
    dsimp only
    split
    · exact halloc.trans (scanAp_moves _)
    · exact halloc

theorem clearPsk_ok {w : WifiCfg} (h : w.Ok) : ∃ w', clearPsk w w.keyLength.toNat = some w' ∧ w'.Ok := by
  have hk := UInt8.le_iff_toNat_le.mp h.keyLength
  have h64 : (64 : UInt8).toNat = 64 := rfl
  unfold clearPsk
  split
  · exact ⟨_, rfl, { h with }⟩
  · next hlt =>
    rw [if_pos (by omega)]
    exact ⟨_, rfl, { h with }⟩

theorem conTryTimes_ok {sys : CfgParam} {n : UInt8} (h : sys.wifiCfg.Ok) : (infConTryTimesSet sys n).2.wifiCfg.Ok :=
  { h with }

theorem wscapCfg_ok (h : g.Config) : (wscapCfg g argv).wifiCfg.Ok := by
  unfold wscapCfg
  split
  · exact conTryTimes_ok (ssidKey_ok (netMode_ok h.sysParam))
  · split
    · have hcfg : ({ g.userParam.cfg with bDhcpServer := 1, bDnsServer := 1 } : CfgParam).wifiCfg.Ok := h.userParam.wifi
      exact ssidKey_ok (netMode_ok hcfg)
    · exact ssidKey_ok h.userParam.wifi

theorem wscap_moves : Moves g (responseWSCAP g argv).1 := by
  by_cases hq : isQuery argv = true
  · unfold responseWSCAP
    rw [if_pos hq]
    cases hc : clearPsk g.sysParam.wifiCfg g.sysParam.wifiCfg.keyLength.toNat with
    | none =>
      refine ⟨rfl, rfl, fun h => h.userParam, fun h => h.sysParam, fun h => ?_⟩
      obtain ⟨w, hw, -⟩ := clearPsk_ok h.sysParam
      cases hc.symm.trans hw
    | some w =>
      refine ⟨rfl, rfl, fun h => h.userParam, fun h => ?_, fun _ _ hf => .inl hf⟩
      obtain ⟨w', hw, hok⟩ := clearPsk_ok h.sysParam
      cases hc.symm.trans hw
      exact hok
  · have hfaults : (responseWSCAP g argv).1.faults = g.faults := by
      unfold responseWSCAP
      rw [if_neg hq]
      split
      · rfl
      · split
        · split
          · rfl
          · rfl
        · split
          · rfl
          · split
            · rfl
            · rfl
    rcases wscap_effect (g := g) hq with hr | hr | ⟨-, hs, hu, hf, hw⟩
    · exact moves_kept hr.1 hfaults
    · rw [hr]
      exact moves_refl
    · exact moves_cfg wscapCfg_ok hs hu hf hw hfaults

theorem wsmtconf_moves : Moves g (responseWSMTCONF g argv).1 := by
  refine moves_bare ?_
  split
  · exact ⟨rfl, rfl, fun h => h.userParam, fun h => netMode_ok h.sysParam, fun _ _ hf => .inl hf⟩
  · exact moves_fail _

theorem wstop_moves : Moves g (responseWSTOP g argv).1 := by
  refine moves_bare ?_
  split
  · exact moves_failText _
  · exact moves_kept ⟨rfl, rfl, rfl, rfl⟩ rfl

theorem wphymode_moves : Moves g (responseWPHYMODE g argv).1 := by
  have hfaults : (responseWPHYMODE g argv).1.faults = g.faults := by
    unfold responseWPHYMODE
    dsimp only
    split
    · split
      · rfl
      · split
        · rfl
        · rfl
    · split
      · split
        · rfl
        · split
          · rfl
          · rfl
      · rfl
  have heffect : Refused g argv (responseWPHYMODE g argv) ∨ _ := wphymode_effect
  rcases heffect with hr | ⟨-, mode, hs, hu, hf, hw⟩
  · exact moves_kept hr.1 hfaults
  · exact moves_cfg (fun h => phyMode_ok h.sysParam) hs hu hf hw hfaults

theorem nmode_le {a : List UInt8} {old : UInt8} (hold : old ≤ 1) : (if nmodeOk a then (atoi a).toUInt8 else old) ≤ 1 := by
  split
  · next hok =>
    simp only [nmodeOk, Bool.and_eq_true, decide_eq_true_eq] at hok
    exact hok.2
  · exact hold

theorem nport_ne {a : List UInt8} {old : UInt16} (hold : old ≠ 0) : (if nportOk a then (atoi a).toUInt16 else old) ≠ 0 := by
  split
  · next hok =>
    simp only [nportOk, Bool.and_eq_true, decide_eq_true_eq] at hok
    obtain ⟨-, hle, hne⟩ := hok
    intro hz
    apply hne
    have hz := congrArg UInt16.toNat hz
    rw [UInt32.le_iff_toNat_le] at hle
    have e : (65535 : UInt32).toNat = 65535 := rfl
    rw [UInt32.toNat_toUInt16, UInt16.toNat_zero] at hz
    apply UInt32.toNat_inj.mp
    rw [UInt32.toNat_zero]
    omega
  · exact hold

theorem nqscnnResult_moves : Moves g (nqscnnResult env g argv) := by
  unfold nqscnnResult nqscnnPut
  refine ⟨rfl, rfl, fun h => ?_, fun h => h.sysParam, fun h f hf => ?_⟩
  · have hu := h.userParam
    refine ⟨hu.atMode, nmode_le hu.socketProtocol, nmode_le hu.socketType, nport_ne hu.socketPort, hu.frameLength,
      hu.frameGap, ?_⟩
    dsimp only
    split
    · exact h.sysParam
    · exact hu.wifi
  · dsimp only at hf
    split at hf
    · exact (List.mem_append.mp hf).imp_right List.mem_singleton.mp
    · exact .inl hf

theorem nqscnn_moves : Moves g (responseNQSCNN env g argv).1 := by
  by_cases hlen : argv.length = 5
  · rw [nqscnn_eq hlen]
    split
    · exact nqscnnResult_moves
    · exact nqscnnResult_moves
  · unfold responseNQSCNN
    rw [if_neg hlen]
    split
    · exact moves_refl
    · exact moves_fail _

theorem nlocip_moves : Moves g (responseNLOCIP env g argv).1 := by
  unfold responseNLOCIP
  dsimp only
  split
  · exact moves_refl
  · split
    · exact moves_fail _
    · split
      · exact moves_fail _
      · split
        · exact moves_fail _
        · split
          · exact moves_failText _
          · refine (moves_aton (arg argv 1)).trans ?_
            generalize (if (inetAton (arg argv 1)).isNone then g.fault .uninitRead else g) = g1
            exact ⟨rfl, rfl, fun h => { h.userParam with wifi := h.sysParam }, fun h => h.sysParam, fun _ _ hf => .inl hf⟩

theorem startThread_moves (name : String) : Moves g (startThread g argv name).1 := by
  unfold startThread
  split
  · exact moves_kept ⟨rfl, rfl, rfl, rfl⟩ rfl
  · exact moves_fail _

theorem setBroadcast_moves (b : BroadcastSts) : Moves g (g.setBroadcast b) := moves_kept ⟨rfl, rfl, rfl, rfl⟩ rfl

theorem bctStart_moves {other own : UInt16} {otherErr ownErr sockErr setErr : ErrorType} {set : Bool}
    {opened started : BroadcastSts} {done : String} :
    Moves g (bctStart env g argv other own otherErr ownErr sockErr setErr set opened started done).1 := by
  unfold bctStart
  split
  · exact moves_fail _
  · split
    · exact moves_failText _
    · split
      · exact moves_fail _
      · split
        · exact moves_fail _
        · split
          · exact setBroadcast_moves _
          · split
            · exact setBroadcast_moves _
            · exact setBroadcast_moves _

theorem bcttxdata_moves : Moves g (responseBCTTXDATA env g argv).1 := by
  unfold responseBCTTXDATA
  split
  · exact moves_fail _
  · split
    · exact setBroadcast_moves _
    · dsimp only
      split
      · exact setBroadcast_moves _
      · split
        · exact setBroadcast_moves _
        · split
          · exact setBroadcast_moves _
          · exact setBroadcast_moves _

theorem quit_moves : Moves g (responseQUIT g argv).1 := by
  refine moves_bare ?_
  split
  · exact moves_fail _
  · exact ⟨rfl, rfl, fun h => { h.userParam with atMode := show (1 : UInt8) ≤ 1 by decide }, fun h => h.sysParam,
      fun _ _ hf => .inl hf⟩

/-- The commands that write the flash or reset the chip. -/
def Request.resets : Request → Bool
  | .save | .factory | .rst => true
  | _ => false

theorem respond_moves {request : Request} (hr : request.resets = false) : Moves g (respond env g argv request).1 := by
  cases request with
  | help => exact moves_bare (moves_refl)
  | ver => exact moves_bare (moves_refl)
  | sver => exact moves_bare (moves_refl)
  | save => cases hr
  | factory => cases hr
  | rst => cases hr
  | systime => exact moves_bare (moves_refl)
  | baudrate => exact baudrate_moves
  | uartft => exact setNumber_moves _ fun h n => { h.userParam with frameGap := clampFrameGap_ok n }
  | uartfl => exact setNumber_moves _ fun h n => { h.userParam with frameLength := clampRecvBuf_ok _ }
  | mslp => exact moves_bare (moves_refl)
  | lslpt => exact lslpt_moves
  | ipconfig => exact moves_bare (moves_refl)
  | ping => exact ping_moves
  | mac => exact moves_bare (moves_refl)
  | wqsopt => exact wqsopt_moves
  | wphymode => exact wphymode_moves
  | wtxrate => exact wtxrate_moves
  | wscanap => exact wscanap_moves
  | wsbcn => exact wsbcn_moves
  | wscap => exact wscap_moves
  | wsmtconf => exact wsmtconf_moves
  | wstop => exact wstop_moves
  | nqscnn => exact nqscnn_moves
  | nlocip => exact nlocip_moves
  | wsaconf => exact startThread_moves _
  | airkiss => exact startThread_moves _
  | bcttxstart => exact bctStart_moves
  | bcttxstop => exact moves_bare (setBroadcast_moves _)
  | bcttxdata => exact bcttxdata_moves
  | bctrxstart => exact bctStart_moves
  | bctrxstop => exact moves_bare (setBroadcast_moves _)
  | quit => exact quit_moves

end

end

end SerialNet.Param
