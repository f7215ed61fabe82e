import SerialNet.Param.AtArgs
import SerialNet.Param.ConfigForm
import SerialNet.Lib.Run

/-!
# The configuration over whole runs

AT commands, web forms and resets in any order. The ranges hold in every state
exactly when each form stays in them. What a boot comes up with is what was
saved last.
-/

namespace SerialNet.Param

/-! ## Events -/

inductive Event where
  | command (env : Env) (line : List UInt8)
  | post (form : Form) (env : Env) (rx : List UInt8) (rxLen : Nat)
  | resetsys (env : Env)
  | httpFactory (env : Env)
  | powerOn (env : Env)

def Event.handle (g : Globals) : Event → Globals
  | .command env line => (atCommand env g line).1
  | .post form env rx rxLen => form.handle env g rx rxLen
  | .resetsys env => httpResetsys env g
  | .httpFactory env => Param.httpFactory env g
  | .powerOn env => g.boot env

/-- What the rest of the program relies on holds, and nothing worse than `allowed` has happened. -/
structure Globals.Healthy (allowed : Fault → Prop) (g : Globals) : Prop where
  config : g.Config
  only : g.Only allowed

theorem Globals.Healthy.ranges {allowed : Fault → Prop} {g : Globals} (h : g.Healthy allowed) : g.Ranges allowed :=
  h.config.ranges h.only

/-- The splitter stores no pointer behind `argv`. -/
def Event.Stored : Event → Prop
  | .command _ line => argvStored line ≤ maxSingleParameter
  | _ => True

/-- A command keeps to its arguments. -/
def Event.Inside (g : Globals) : Event → Prop
  | .command env line => ArgvInside env g line
  | _ => True

/-- What a form stores stays in the ranges. -/
def Form.InRange (rx : List UInt8) (rxLen : Nat) : Form → Prop
  | .wifibase => WifiInRange rx rxLen
  | .setupuart => UartInRange rx rxLen
  | .setupnet => NetInRange rx rxLen

/-- What a form reads without a look at the pointer is there. -/
def Form.Pointers (rx : List UInt8) (rxLen : Nat) : Form → Prop
  | .wifibase => ∀ fields ∈ scan wifiKeys rx rxLen, (readWifi fields).Pointers
  | .setupuart => True
  | .setupnet => ∀ fields ∈ scan netKeys rx rxLen, (readNet fields).Pointers

/-- A command has at most 47 commas, and a form stays in the ranges; nothing is asked of the other events. -/
def Event.InRange : Event → Prop
  | .command _ line => commas line ≤ 47
  | .post form _ rx rxLen => form.InRange rx rxLen
  | _ => True

/-- A command's arguments fit, and a form has what it reads. -/
def Event.Complete : Event → Prop
  | .command _ line => ArgvFits line
  | .post form _ rx rxLen => form.InRange rx rxLen ∧ form.Pointers rx rxLen
  | _ => True

section
variable {env : Env} {g : Globals}

theorem setUser_frame (g : Globals) (u : UserCfgParam) :
    (g.setUser u).sysParam = g.sysParam ∧ (g.setUser u).userFlash = g.userFlash := ⟨rfl, rfl⟩

theorem addFaults_frame (g : Globals) (l : List Fault) :
    (g.addFaults l).sysParam = g.sysParam ∧ (g.addFaults l).userFlash = g.userFlash := ⟨rfl, rfl⟩

/-- A form touches neither the other copy nor the flash. -/
theorem form_frame (env : Env) (g : Globals) (form : Form) (rx : List UInt8) (rxLen : Nat) :
    (form.handle env g rx rxLen).sysParam = g.sysParam ∧ (form.handle env g rx rxLen).userFlash = g.userFlash := by
  cases form with
  | wifibase =>
    unfold Form.handle httpSetupWifibase
    dsimp only
    split
    · exact ⟨rfl, rfl⟩
    · split
      · simp only [setUser_frame, addFaults_frame, and_self]
      · simp only [setUser_frame, addFaults_frame, and_self]
  | setupuart =>
    unfold Form.handle httpSetupUart
    dsimp only
    split
    · exact ⟨rfl, rfl⟩
    · split
      · exact ⟨rfl, rfl⟩
      · exact ⟨rfl, rfl⟩
  | setupnet =>
    unfold Form.handle httpSetupNet
    dsimp only
    split
    · exact ⟨rfl, rfl⟩
    · split
      · exact ⟨rfl, rfl⟩
      · exact ⟨rfl, rfl⟩

theorem form_protocol (h : g.Config) (form : Form) (rx : List UInt8) (rxLen : Nat) :
    (form.handle env g rx rxLen).userParam.cfg.wifiCfg.protocol ≤ 2 := by
  have hp := h.userParam.wifi.protocol
  cases form with
  | wifibase =>
    unfold Form.handle httpSetupWifibase
    dsimp only
    split
    · exact hp
    · next fields _ =>
      generalize readWifi fields = f
      cases hr : f.rejected with
      | true => exact hp
      | false =>
        simp only [WifiForm.rejected, Bool.or_eq_false_iff] at hr
        exact inside_byte_le (n := 2) hr.1.1.1
  | setupuart =>
    unfold Form.handle httpSetupUart
    dsimp only
    split
    · exact hp
    · split
      · exact hp
      · exact hp
  | setupnet =>
    unfold Form.handle httpSetupNet
    dsimp only
    split
    · exact hp
    · split
      · exact hp
      · exact hp

section
variable {allowed : Fault → Prop}

theorem boot_healthy (hf : g.userFlash.isValid = userParamFlagValid → g.userFlash.Ok) (ho : g.Only allowed) :
    (g.boot env).Healthy allowed := by
  refine ⟨boot_config hf, ?_⟩
  unfold Globals.Only
  rw [boot_faults]
  exact ho

theorem factory_healthy : (Globals.factory env).Healthy allowed := by
  have hz : Globals.blank.userFlash.isValid ≠ userParamFlagValid := by decide
  exact boot_healthy (fun hv => absurd hv hz) fun f hf => by cases hf

theorem cleared_healthy (ho : g.Only allowed) :
    (({ g with userParam := .zero } : Globals).saveUserParam.boot env).Healthy allowed := by
  have hz : UserCfgParam.zero.isValid ≠ userParamFlagValid := by decide
  exact boot_healthy (fun hv => absurd hv hz) ho

theorem bare_healthy {argv : List (List UInt8)} {a : Answer} (h : g.Healthy allowed) (ha : a.1.Healthy allowed) :
    (bare g argv a).1.Healthy allowed := by
  unfold bare
  split
  · exact h
  · exact ha

theorem resetsys_healthy (h : g.Healthy allowed) : (httpResetsys env g).Healthy allowed := by
  have hmode : g.wlWorkmode.toUInt8 ≤ 1 := by
    have hw := UInt32.le_iff_toNat_le.mp h.config.wlWorkmode
    have e1 : (1 : UInt32).toNat = 1 := rfl
    have e2 : (1 : UInt8).toNat = 1 := rfl
    rw [UInt8.le_iff_toNat_le, UInt32.toNat_toUInt8]
    omega
  exact boot_healthy (fun _ => { h.config.userParam with atMode := hmode }) h.only

variable (hu : allowed .uninitRead)
include hu

theorem respond_healthy (h : g.Healthy allowed) (argv : List (List UInt8)) (request : Request) :
    (respond env g argv request).1.Healthy allowed := by
  cases hr : request.resets with
  | false =>
    have hm := @respond_moves env g argv request hr
    exact ⟨hm.config h.config, hm.only h.config hu h.only⟩
  | true =>
    cases request with
    | save =>
      have hok : ({ g.userParam with isValid := userParamFlagValid } : UserCfgParam).Ok := { h.config.userParam with }
      exact bare_healthy h ⟨⟨hok, h.config.wlWorkmode, h.config.sysParam, fun _ => hok⟩, h.only⟩
    | factory => exact bare_healthy h (cleared_healthy h.only)
    | rst => exact bare_healthy h (boot_healthy h.config.userFlash h.only)
    | _ => cases hr

theorem command_healthy (h : g.Healthy allowed) (line : List UInt8) : (atCommand env g line).1.Healthy allowed := by
  unfold atCommand processCommand
  split
  · exact h
  · split
    · exact respond_healthy hu h _ _
    · exact h

end

/-! ### The forms -/

section
variable {allowed : Fault → Prop} (ha : Tolerates allowed) (h : g.Healthy allowed)
include ha h

theorem form_ranges (form : Form) (rx : List UInt8) (rxLen : Nat) : (form.handle env g rx rxLen).Ranges allowed ↔
    form.InRange rx rxLen ∧ (form.Pointers rx rxLen ∨ allowed .nullRead) := by
  cases form with
  | wifibase => exact wifi_ranges ha h.config h.only env rx rxLen
  | setupuart => exact (uart_ranges ha h.config h.only rx rxLen).trans (and_iff_left (.inl trivial)).symm
  | setupnet => exact net_ranges ha h.config h.only env rx rxLen

omit ha in
theorem form_healthy (form : Form) (rx : List UInt8) (rxLen : Nat) (hv : (form.handle env g rx rxLen).Ranges allowed) :
    (form.handle env g rx rxLen).Healthy allowed := by
  obtain ⟨hs, hf⟩ := form_frame env g form rx rxLen
  have hp := @form_protocol env g h.config form rx rxLen
  exact ⟨⟨hv.userParam.ok hp, hv.wlWorkmode, by rw [hs]; exact h.config.sysParam, by rw [hf]; exact h.config.userFlash⟩,
    hv.only⟩

theorem handle_healthy (e : Event) (hv : (e.handle g).Ranges allowed) : (e.handle g).Healthy allowed := by
  cases e with
  | command env line => exact command_healthy ha.uninitRead h line
  | post form env rx rxLen => exact form_healthy h form rx rxLen hv
  | resetsys env => exact resetsys_healthy h
  | httpFactory env => exact cleared_healthy h.only
  | powerOn env => exact boot_healthy h.config.userFlash h.only

end

end

/-! ### The ranges -/

/-- A read that has no effect on the ranges. -/
def Harmless (f : Fault) : Prop := f = .uninitRead ∨ f = .nullRead

theorem harmless_tolerates : Tolerates Harmless where
  uninitRead := .inl rfl
  overrun := fun h => by cases h with | inl h => cases h | inr h => cases h
  storeOutside := fun _ h => by cases h with | inl h => cases h | inr h => cases h

theorem handle_ranges {g : Globals} (h : g.Healthy Harmless) (e : Event) :
    (e.handle g).Ranges Harmless ∧ e.Stored ↔ e.InRange := by
  have hhealthy := handle_healthy harmless_tolerates h
  cases e with
  | command env line =>
    exact (and_iff_right (command_healthy harmless_tolerates.uninitRead h line).ranges).trans (argvStored_le_iff line)
  | post form env rx rxLen =>
    refine (and_iff_left trivial).trans ((form_ranges harmless_tolerates h form rx rxLen).trans ?_)
    exact and_iff_left (.inr (.inr rfl))
  | resetsys env => exact iff_of_true ⟨(resetsys_healthy h).ranges, trivial⟩ trivial
  | httpFactory env => exact iff_of_true ⟨(cleared_healthy h.only).ranges, trivial⟩ trivial
  | powerOn env => exact iff_of_true ⟨(boot_healthy h.config.userFlash h.only).ranges, trivial⟩ trivial

/-- **Configuration ranges.** From the factory defaults on, through any AT
commands, forms, resets and power cycles, the parameters are in their ranges in
every state, with nothing stored outside its array, exactly when no command has
more than 47 commas and every form stays in the ranges. -/
theorem config_ranges (env : Env) (events : List Event) :
    ((∀ front, front <+: events → (Run.run Event.handle (Globals.factory env) front).Ranges Harmless) ∧
        ∀ e ∈ events, e.Stored) ↔ ∀ e ∈ events, e.InRange := by
  have hmem (P : Event → Prop) : Run.Meets Event.handle (fun _ e => P e) (Globals.factory env) events ↔ ∀ e ∈ events, P e :=
    Run.meets_iff_mem
  rw [Run.prefix_iff_meets, and_iff_right factory_healthy.ranges, ← hmem, ← hmem, ← Run.meets_and]
  refine Run.meets_iff_of_inv (I := Globals.Healthy Harmless) (fun g e h he => ?_) (fun g e h => handle_ranges h e)
    factory_healthy events
  exact handle_healthy harmless_tolerates h e ((handle_ranges h e).mpr he).1

/-- `framelen=0&baudrate=300&frametime=30` -/
def zeroLengthForm : List UInt8 :=
  [102, 114, 97, 109, 101, 108, 101, 110, 61, 48, 38, 98, 97, 117, 100, 114, 97, 116, 101, 61, 51, 48, 48, 38, 102, 114, 97, 109,
    101, 116, 105, 109, 101, 61, 51, 48]

/-- The serial form stores a frame length of 0. -/
theorem zero_frameLength :
    (Run.run Event.handle (Globals.factory sampleEnv)
        [.post .setupuart sampleEnv zeroLengthForm zeroLengthForm.length]).userParam.frameLength = 0 ∧
      ¬(Run.run Event.handle (Globals.factory sampleEnv)
        [.post .setupuart sampleEnv zeroLengthForm zeroLengthForm.length]).userParam.InRange := by
  have hscan : scan uartKeys zeroLengthForm zeroLengthForm.length =
      some [("framelen=", [48]), ("baudrate=", [51, 48, 48]), ("frametime=", [51, 48])] := by decide
  have hzero (g : Globals) : (httpSetupUart g zeroLengthForm zeroLengthForm.length).userParam.frameLength = 0 := by
    unfold httpSetupUart
    rw [hscan]
    rfl
  refine ⟨hzero _, fun h => ?_⟩
  have hlen : 32 ≤ (httpSetupUart (Globals.factory sampleEnv) zeroLengthForm zeroLengthForm.length).userParam.frameLength :=
    h.frameLength.1
  rw [hzero] at hlen
  exact absurd hlen (by decide)

/-! ### Nothing read that is not there -/

def Uninit (f : Fault) : Prop := f = .uninitRead

theorem uninit_tolerates : Tolerates Uninit where
  uninitRead := rfl
  overrun := fun h => by cases h
  storeOutside := fun _ h => by cases h

theorem handle_complete {g : Globals} (h : g.Healthy Uninit) (e : Event) :
    (e.handle g).Healthy Uninit ∧ e.Inside g ↔ e.Complete := by
  cases e with
  | command env line => exact (and_iff_right (command_healthy uninit_tolerates.uninitRead h line)).trans (argvInside_iff env g line)
  | post form env rx rxLen =>
    have hnull : ¬Uninit .nullRead := fun h => by cases h
    have hr := @form_ranges env g _ uninit_tolerates h form rx rxLen
    rw [or_iff_left hnull] at hr
    refine (and_iff_left trivial).trans ?_
    rw [Event.Complete, ← hr]
    exact ⟨fun hh => hh.ranges, form_healthy h form rx rxLen⟩
  | resetsys env => exact iff_of_true ⟨resetsys_healthy h, trivial⟩ trivial
  | httpFactory env => exact iff_of_true ⟨cleared_healthy h.only, trivial⟩ trivial
  | powerOn env => exact iff_of_true ⟨boot_healthy h.config.userFlash h.only, trivial⟩ trivial

/-- The button discards what was saved. -/
def keptByBoot (env : Env) (kept : Option UserCfgParam) : Option UserCfgParam := if env.factoryPin then none else kept

def requestKeeps (env : Env) (g : Globals) (kept : Option UserCfgParam) : Request → Option UserCfgParam
  | .save => some { g.userParam with isValid := userParamFlagValid }
  | .factory => none
  | .rst => keptByBoot env kept
  | _ => kept

/-- A command with arguments saves nothing. -/
def commandKeeps (env : Env) (g : Globals) (kept : Option UserCfgParam) : List (List UInt8) → Option UserCfgParam
  | [name] => ((stringTorequest name).map (requestKeeps env g kept)).getD kept
  | _ => kept

/-- The configuration saved last after an event in `g`. -/
def Event.keeps (g : Globals) (kept : Option UserCfgParam) : Event → Option UserCfgParam
  | .command env line => commandKeeps env g kept (parseParameter line)
  | .post .. => kept
  | .resetsys env =>
    keptByBoot env (some { g.userParam with atMode := g.wlWorkmode.toUInt8, isValid := userParamFlagValid })
  | .httpFactory _ => none
  | .powerOn env => keptByBoot env kept

def lastSaved : Globals → Option UserCfgParam → List Event → Option UserCfgParam
  | _, kept, [] => kept
  | g, kept, e :: events => lastSaved (e.handle g) (e.keeps g kept) events

def Globals.saved (g : Globals) : Option UserCfgParam :=
  if g.userFlash.isValid = userParamFlagValid then some g.userFlash else none

section
variable {env : Env} {g : Globals}

/-- `userParam` comes from the flash or from the defaults. -/
def bootParam (env : Env) (kept : Option UserCfgParam) : UserCfgParam :=
  (kept.map fun u => { u with sleepMode := 0 }).getD (initFactoryParam env.permanentAddress)

structure Boots (g : Globals) (u : UserCfgParam) : Prop where
  userParam : g.userParam = u
  wifi : g.sysParam.wifiCfg = u.cfg.wifiCfg
  ip : g.sysParam.ipCfg = u.cfg.ipCfg
  wlWorkmode : g.wlWorkmode = u.atMode.toUInt32

theorem saved_none (h : g.userFlash.isValid ≠ userParamFlagValid) : g.saved = none := if_neg h

theorem loadFactory_saved (env : Env) (g : Globals) : (g.loadFactory env).saved = none := by
  apply saved_none
  rw [loadFactory_userFlash]
  exact flag_ne _

theorem saved_boot (env : Env) (g : Globals) : (g.boot env).saved = keptByBoot env g.saved := by
  have hflash := reset_userFlash env g
  unfold Globals.boot keptByBoot
  rw [initDefaultData_eq]
  have hsaved : (g.reset env).saved = g.saved := by unfold Globals.saved; rw [hflash]
  rw [← hsaved]
  generalize g.reset env = g
  split
  · exact loadFactory_saved env g
  · split
    · rfl
    · next hv =>
      rw [saved_none hv]
      exact loadFactory_saved env g.getUserParam

@[simp] theorem bootParam_none (env : Env) : bootParam env none = initFactoryParam env.permanentAddress := rfl

theorem initFactoryParam_cfg (a : Vector UInt8 6) : (initFactoryParam a).cfg = infLoadDefaultParam a := rfl
theorem initFactoryParam_atMode (a : Vector UInt8 6) : (initFactoryParam a).atMode = 0 := rfl

theorem loadFactory_boots (env : Env) (g : Globals) (hw : g.wlWorkmode = 0) :
    Boots (g.loadFactory env) (initFactoryParam env.permanentAddress) where
  userParam := loadFactory_userParam env g
  wifi := by rw [loadFactory_sysParam, initFactoryParam_cfg]
  ip := by rw [loadFactory_sysParam, initFactoryParam_cfg]
  wlWorkmode := by rw [loadFactory_wlWorkmode, hw, initFactoryParam_atMode]; rfl

theorem withMode_boots {u : UserCfgParam} (h : Boots g u) : Boots g.withMode u :=
  ⟨h.userParam, h.wifi, h.ip, by rw [← h.userParam]; rfl⟩

theorem boots (env : Env) (g : Globals) : Boots (g.boot env) (bootParam env (keptByBoot env g.saved)) := by
  have hflash := reset_userFlash env g
  have hmode := reset_wlWorkmode env g
  unfold Globals.boot keptByBoot
  rw [initDefaultData_eq]
  have hsaved : (g.reset env).saved = g.saved := by unfold Globals.saved; rw [hflash]
  rw [← hsaved]
  generalize g.reset env = g at hmode ⊢
  split
  · exact loadFactory_boots env g hmode
  · split
    · next hv =>
      have hsome : g.saved = some g.userFlash := if_pos hv
      rw [hsome]
      exact ⟨rfl, rfl, rfl, rfl⟩
    · next hv =>
      rw [saved_none hv, bootParam_none]
      exact withMode_boots (loadFactory_boots env g.getUserParam hmode)

/-! ### Saving -/

theorem saved_congr {g' : Globals} (h : g'.userFlash = g.userFlash) : g'.saved = g.saved := by
  unfold Globals.saved
  rw [h]

theorem form_saved (env : Env) (form : Form) (rx : List UInt8) (rxLen : Nat) :
    (form.handle env g rx rxLen).saved = g.saved := saved_congr (form_frame env g form rx rxLen).2

theorem respond_saved {request : Request} {argv : List (List UInt8)} (h : request.resets = false) :
    (respond env g argv request).1.saved = g.saved := saved_congr (respond_moves h).userFlash

theorem requestKeeps_of_not_resets {request : Request} {kept : Option UserCfgParam} (h : request.resets = false) :
    requestKeeps env g kept request = kept := by
  cases request with
  | save => cases h
  | factory => cases h
  | rst => cases h
  | _ => rfl

theorem saved_saveUserParam_zero (g : Globals) : ({ g with userParam := .zero } : Globals).saveUserParam.saved = none :=
  saved_none (show UserCfgParam.zero.isValid ≠ userParamFlagValid by decide)

theorem keptByBoot_none (env : Env) : keptByBoot env none = none := ite_self none

theorem respond_keeps (name : List UInt8) (request : Request) :
    (respond env g [name] request).1.saved = requestKeeps env g g.saved request := by
  cases hr : request.resets with
  | false => rw [respond_saved hr, requestKeeps_of_not_resets hr]
  | true =>
    cases request with
    | save => exact if_pos rfl
    | factory =>
      show (Globals.boot env ({ g with userParam := .zero } : Globals).saveUserParam).saved = none
      rw [saved_boot, saved_saveUserParam_zero, keptByBoot_none]
    | rst => exact saved_boot env g
    | _ => cases hr

theorem respond_refused {argv : List (List UInt8)} (hlen : argv.length ≠ 1) (request : Request) :
    (respond env g argv request).1.saved = g.saved := by
  cases hr : request.resets with
  | false => exact respond_saved hr
  | true =>
    cases request with
    | save => exact congrArg (fun a : Answer => a.1.saved) (if_pos hlen)
    | factory => exact congrArg (fun a : Answer => a.1.saved) (if_pos hlen)
    | rst => exact congrArg (fun a : Answer => a.1.saved) (if_pos hlen)
    | _ => cases hr

theorem command_saved (argv : List (List UInt8)) :
    (processCommand env g argv).1.saved = commandKeeps env g g.saved argv := by
  cases argv with
  | nil => rfl
  | cons name args =>
    unfold processCommand
    dsimp only
    cases args with
    | nil =>
      show _ = ((stringTorequest name).map (requestKeeps env g g.saved)).getD g.saved
      cases stringTorequest name with
      | none => rfl
      | some request => exact respond_keeps name request
    | cons a args =>
      have hlen : (name :: a :: args).length ≠ 1 := by simp
      cases stringTorequest name with
      | none => rfl
      | some request => exact respond_refused hlen request

theorem handle_saved (e : Event) : (e.handle g).saved = e.keeps g g.saved := by
  cases e with
  | command env line => exact command_saved (parseParameter line)
  | post form env rx rxLen => exact form_saved env form rx rxLen
  | resetsys env => exact (saved_boot env _).trans (congrArg (keptByBoot env) (if_pos rfl))
  | httpFactory env =>
    show (Globals.boot env ({ g with userParam := .zero } : Globals).saveUserParam).saved = none
    rw [saved_boot, saved_saveUserParam_zero, keptByBoot_none]
  | powerOn env => exact saved_boot env g

theorem run_saved (events : List Event) : (Run.run Event.handle g events).saved = lastSaved g g.saved events := by
  induction events generalizing g with
  | nil => rfl
  | cons e events ih => rw [Run.run_cons, ih, handle_saved]; rfl

theorem factory_saved (env : Env) : (Globals.factory env).saved = none := by
  have hz : Globals.blank.saved = none := by decide
  rw [Globals.factory, saved_boot, hz, keptByBoot_none]

end

/-- **Persistence.** After any AT commands, forms, resets and power cycles, a
boot comes up with the configuration that `AT+SAVE` or the reboot page saved
last, the sleep mode apart, or with the defaults if it was discarded since or
there is none; both copies and the work mode agree with it. -/
theorem boots_last_saved (env env' : Env) (events : List Event) :
    Boots ((Run.run Event.handle (Globals.factory env) events).boot env')
      (bootParam env' (keptByBoot env' (lastSaved (Globals.factory env) none events))) := by
  rw [← factory_saved env, ← run_saved]
  exact boots env' _

end SerialNet.Param
