import SerialNet.Param.Text
import SerialNet.Uart.Recv

/-!
# The configuration and its setters

`CFG_PARAM` with the setters of `param.c`, `USER_CFG_PARAM` with the load and
save functions of `serialNet.c`, and the state the two interfaces share.
-/

namespace SerialNet.Param

open Uart (SysEvt maxRecvBufferSize)

/-! ## Arrays -/

section
variable {n : Nat}

/-- `memcpy` into an array, as far as the array reaches. -/
def moveMem (dst : Vector UInt8 n) (src : List UInt8) : Vector UInt8 n :=
  Vector.ofFn fun i => (src[i.1]?).getD dst[i]

def putZero (dst : Vector UInt8 n) (i : Nat) : Vector UInt8 n := dst.setIfInBounds i 0

def text (v : Vector UInt8 n) : List UInt8 := v.toList.takeWhile (· != 0)

def zeros : Vector UInt8 n := Vector.replicate n 0

variable {dst v : Vector UInt8 n} {s : List UInt8} {i : Nat}

theorem moveMem_take (h : s.length ≤ n) : (moveMem dst s).toList.take s.length = s := by
  apply List.ext_getElem
  · simp [h]
  · intro i h1 h2
    simp [moveMem, h2]

theorem putZero_take : (putZero v i).toList.take i = v.toList.take i := by
  apply List.ext_getElem
  · simp
  · intro j h1 h2
    have hj : i ≠ j := by
      simp at h1
      omega
    simp [putZero, hj]

theorem putZero_drop (h : i < n) : (putZero v i).toList.drop i = 0 :: (putZero v i).toList.drop (i + 1) := by
  rw [List.drop_eq_getElem_cons (by simpa using h)]
  simp [putZero]

theorem takeWhile_eq_left {c : UInt8} {t : List UInt8} :
    (s ++ c :: t).takeWhile (· != 0) = s ↔ 0 ∉ s ∧ c = 0 := by
  induction s with
  | nil => by_cases hc : c = 0 <;> simp [hc]
  | cons a s ih =>
    by_cases ha : a = 0
    · simp [ha]
    · simp [ha, ih, Ne.symm ha]

theorem moveMem_toList (h : s.length ≤ n) : (moveMem dst s).toList = s ++ dst.toList.drop s.length := by
  apply List.ext_getElem
  · simp [h]
  · intro i h1 h2
    by_cases hi : i < s.length
    · simp [moveMem, hi]
    · simp [moveMem, List.getElem_append_right (Nat.not_lt.mp hi), Nat.add_sub_cancel' (Nat.not_lt.mp hi),
        List.getElem?_eq_none (Nat.not_lt.mp hi)]

theorem text_moveMem_iff (h : s.length < n) :
    text (moveMem dst s) = s ↔ 0 ∉ s ∧ dst.toList[s.length]? = some 0 := by
  have hlen : s.length < dst.toList.length := by simpa using h
  rw [text, moveMem_toList (Nat.le_of_lt h), List.drop_eq_getElem_cons hlen, takeWhile_eq_left,
    List.getElem?_eq_getElem hlen, Option.some_inj]

theorem putZero_moveMem (h : s.length < n) : (putZero (moveMem dst s) s.length).toList =
    s ++ 0 :: (putZero (moveMem dst s) s.length).toList.drop (s.length + 1) := by
  rw [← putZero_drop h, ← List.take_append_drop s.length (putZero (moveMem dst s) s.length).toList, putZero_take,
    moveMem_take (Nat.le_of_lt h)]
  simp

theorem text_putZero_moveMem_iff (h : s.length < n) :
    text (putZero (moveMem dst s) s.length) = s ↔ 0 ∉ s := by
  rw [text, putZero_moveMem h, takeWhile_eq_left]
  simp

theorem text_moveMem (h : s.length < n) (hz : 0 ∉ s) : text (putZero (moveMem dst s) s.length) = s :=
  (text_putZero_moveMem_iff h).mpr hz

end

/-! ## CFG_PARAM -/

structure WifiCfg where
  ssid : Vector UInt8 33
  ssidBrdEnable : UInt8
  phyMode : UInt8
  channel : UInt8
  encry : UInt8
  authMode : UInt8
  protocol : UInt8
  keyLength : UInt8
  keyIndex : UInt8
  psk : Vector UInt8 64
  wscEn : UInt8
  conTryTimes : UInt8
  wmmEn : UInt8
  deriving DecidableEq, Repr

structure IpCfg where
  ip : Vector UInt8 4
  netmask : Vector UInt8 4
  gateWay : Vector UInt8 4
  dns : Vector UInt8 4
  bDhcp : UInt8
  dhcpTryTimes : UInt8
  deriving DecidableEq, Repr

structure CfgParam where
  wifiCfg : WifiCfg
  ipCfg : IpCfg
  bDhcpServer : UInt8
  bDnsServer : UInt8
  dnsName : Vector UInt8 33
  deriving DecidableEq, Repr

def IpCfg.zero : IpCfg := ⟨zeros, zeros, zeros, zeros, 0, 0⟩
def WifiCfg.zero : WifiCfg := ⟨zeros, 0, 0, 0, 0, 0, 0, 0, 0, zeros, 0, 0, 0⟩
def CfgParam.zero : CfgParam := ⟨.zero, .zero, 0, 0, zeros⟩

/-- The last two digits of `%02x`. -/
def hex2 (b : UInt8) : List UInt8 :=
  [b / 16, b % 16].map fun d => if d < 10 then 48 + d else 87 + d

def defaultIpCfg : IpCfg where
  ip := #v[192, 168, 0, 1]
  netmask := #v[255, 255, 255, 0]
  gateWay := #v[192, 168, 0, 1]
  dns := #v[192, 168, 0, 1]
  bDhcp := 1
  dhcpTryTimes := 5

def infLoadDefaultParam (permanentAddress : Vector UInt8 6) : CfgParam where
  wifiCfg :=
    { WifiCfg.zero with
      ssid := moveMem zeros (bytes "Nufront_Serial" ++ hex2 permanentAddress[4] ++ hex2 permanentAddress[5])
      ssidBrdEnable := 1
      channel := 11
      protocol := 2
      phyMode := 1 }
  ipCfg := defaultIpCfg
  bDhcpServer := 1
  bDnsServer := 1
  dnsName := moveMem zeros (bytes "nufront.com")

section
variable (sys : CfgParam)

def CfgParam.setWifi (w : WifiCfg) : CfgParam := { sys with wifiCfg := w }

@[simp] theorem CfgParam.setWifi_wifi (w : WifiCfg) : (sys.setWifi w).wifiCfg = w := rfl
@[simp] theorem CfgParam.setWifi_ip (w : WifiCfg) : (sys.setWifi w).ipCfg = sys.ipCfg := rfl

def infNetModeSet (mode : UInt8) : Int × CfgParam :=
  if 3 ≤ mode then (-1, sys) else (0, sys.setWifi { sys.wifiCfg with protocol := mode })

def infPhyModeSet (mode : UInt8) : Int × CfgParam :=
  if 3 ≤ mode then (-1, sys) else (0, sys.setWifi { sys.wifiCfg with phyMode := mode })

/-- `none` is the null pointer. -/
def infSsidSet (pSsid : Option (List UInt8)) : Int × CfgParam :=
  match pSsid with
  | none => (-1, sys.setWifi { sys.wifiCfg with ssid := putZero sys.wifiCfg.ssid 0 })
  | some ssid =>
    if 32 < ssid.length ∨ ssid.length = 0 then
      (-1, sys.setWifi { sys.wifiCfg with ssid := putZero sys.wifiCfg.ssid 0 })
    else (0, sys.setWifi { sys.wifiCfg with ssid := putZero (moveMem sys.wifiCfg.ssid ssid) ssid.length })

def infKeySet (index : UInt8) (keyBuf : List UInt8) : Int × CfgParam :=
  if 3 < index ∨ 64 < keyBuf.length then (-1, sys)
  else
    let psk := moveMem sys.wifiCfg.psk keyBuf
    (0, sys.setWifi
      { sys.wifiCfg with
        keyIndex := index
        keyLength := UInt8.ofNat keyBuf.length
        psk := if keyBuf.length < 64 then putZero psk keyBuf.length else psk })

def infConTryTimesSet (tryTimes : UInt8) : Int × CfgParam :=
  (0, sys.setWifi { sys.wifiCfg with conTryTimes := tryTimes })

end

section
variable {sys : CfgParam} {s : List UInt8} {i : UInt8}

theorem infSsidSet_text (h1 : 1 ≤ s.length) (h2 : s.length ≤ 32) (h0 : 0 ∉ s) :
    text (infSsidSet sys (some s)).2.wifiCfg.ssid = s := by
  have hcond : ¬(32 < s.length ∨ s.length = 0) := by omega
  simp only [infSsidSet, if_neg hcond]
  exact text_moveMem (by omega) h0

theorem infKeySet_ssid : (infKeySet sys i s).2.wifiCfg.ssid = sys.wifiCfg.ssid := by
  rw [infKeySet]
  split <;> rfl

theorem infKeySet_key (hi : i ≤ 3) (h : s.length ≤ 64) :
    (infKeySet sys i s).2.wifiCfg.keyLength.toNat = s.length ∧
      (infKeySet sys i s).2.wifiCfg.psk.toList.take s.length = s := by
  have hcond : ¬(3 < i ∨ 64 < s.length) := by
    rintro (h3 | h3)
    · exact absurd h3 (UInt8.not_lt.mpr hi)
    · omega
  rw [infKeySet, if_neg hcond]
  refine ⟨?_, ?_⟩
  · simp only [CfgParam.setWifi_wifi, UInt8.toNat_ofNat']
    omega
  · simp only [CfgParam.setWifi_wifi]
    split
    · rw [putZero_take, moveMem_take h]
    · exact moveMem_take h

end

/-! ## USER_CFG_PARAM -/

structure UserCfgParam where
  isValid : UInt32
  atMode : UInt8
  sleepMode : UInt8
  baudrate : UInt32
  socketProtocol : UInt8
  socketType : UInt8
  socketPort : UInt16
  remoteCommIp : UInt32
  frameLength : UInt16
  frameGap : UInt16
  cfg : CfgParam
  webSsid : Vector UInt8 32
  webKey : Vector UInt8 64
  webIpCfg : IpCfg
  deriving DecidableEq, Repr

def UserCfgParam.zero : UserCfgParam := ⟨0, 0, 0, 0, 0, 0, 0, 0, 0, 0, .zero, zeros, zeros, .zero⟩

def userParamFlagValid : UInt32 := 0x01020304

def initFactoryParam (permanentAddress : Vector UInt8 6) : UserCfgParam where
  isValid := 0
  atMode := 0
  sleepMode := 0
  baudrate := 115200
  socketProtocol := 1
  socketType := 1
  socketPort := 8101
  remoteCommIp := 0x6400A8C0
  frameLength := 1024
  frameGap := 100
  cfg := infLoadDefaultParam permanentAddress
  webSsid := moveMem zeros (bytes "nufront_sta")
  webKey := moveMem zeros (bytes "nufront_sta")
  webIpCfg := defaultIpCfg

/-! ## The globals -/

inductive MlmeMsg where
  | start
  | stop
  | scanRequest (minRssiFilter : UInt8) (scanType : UInt8)
  | txRateSet (mode idx : UInt8)
  | psModeSet (mode : UInt8)
  | bcnPrdSet (bcnPrd : UInt16) (notifyPeerEn : UInt8)
  | listenIntvlSet (intv dtim : UInt8)
  | directCfgStart
  deriving DecidableEq, Repr

inductive Fault where
  | nullRead
  | uninitRead
  /-- The scan of a form leaves the received bytes. -/
  | overrun
  | storeOutside (array : String)
  deriving DecidableEq, Repr

structure RateOpt where
  rateMode : UInt8
  rateIdx : UInt8
  deriving DecidableEq, Repr

structure BeaconOpt where
  bcnPrd : UInt32
  notifyPeerEn : UInt8
  deriving DecidableEq, Repr

structure BroadcastSts where
  txStatus : UInt16
  txPort : UInt16
  txLen : UInt32
  txSockfd : Int
  rxStatus : UInt16
  rxPort : UInt16
  rxSockfd : Int
  deriving DecidableEq, Repr

structure ConnStatus where
  connStatus : UInt8
  socketProtocol : UInt8
  socketType : UInt8
  socketPort : UInt16
  remoteIp : UInt32
  sockfd : Int
  connectFd : Int
  deriving DecidableEq, Repr

/-- The globals, the two parameter sectors, the live heap blocks by size, and
what was posted to the MAC task. -/
structure Globals where
  sysParam : CfgParam
  userParam : UserCfgParam
  factoryParam : UserCfgParam
  userFlash : UserCfgParam
  factoryFlash : UserCfgParam
  wlWorkmode : UInt32
  gRecvBufSize : UInt32
  rateOpt : RateOpt
  beaconOpt : BeaconOpt
  linkStatus : SysEvt
  smtconfigBegin : UInt8
  scanFlag : UInt8
  pingFlag : Bool
  pingCount : UInt32
  broadcast : BroadcastSts
  conn : ConnStatus
  uartLens : Nat × Nat
  threads : List String
  heap : List Nat
  mac : List MlmeMsg
  faults : List Fault
  deriving DecidableEq, Repr

/-- What is printed of a found access point. -/
structure ScanInfo where
  ssid : List UInt8
  channel : UInt8
  encryMode : UInt8
  authMode : UInt8
  rssi : Int
  deriving DecidableEq, Repr

/-- What the handlers get from outside: the chip, the heap, the network stack
and the words left on the stack. -/
structure Env where
  permanentAddress : Vector UInt8 6
  factoryPin : Bool
  mallocOk : Bool
  curCh : UInt8
  sysTime : UInt64
  netifAddr : UInt32
  netifMask : UInt32
  netifGw : UInt32
  scan : List ScanInfo
  socket : Int
  setsockoptOk : Bool
  bindOk : Bool
  sendtoOk : Bool
  junk : UInt32
  deriving DecidableEq, Repr

namespace Globals

def post (g : Globals) (msg : MlmeMsg) : Globals := { g with mac := g.mac ++ [msg] }
def fault (g : Globals) (f : Fault) : Globals := { g with faults := g.faults ++ [f] }
def setSys (g : Globals) (sys : CfgParam) : Globals := { g with sysParam := sys }

def copySysToUser (g : Globals) : Globals := { g with userParam := { g.userParam with cfg := g.sysParam } }

def copyUserToSys (g : Globals) : Globals := { g with sysParam := g.userParam.cfg }

def linked (g : Globals) : Bool := g.linkStatus == .linkUp || g.linkStatus == .scanDone

/-- `SaveUserParam`, with a faithful flash. -/
def saveUserParam (g : Globals) : Globals := { g with userFlash := g.userParam }

/-! ## Booting -/

/-- `GetUserParam`, with a faithful flash. -/
def getUserParam (g : Globals) : Globals := { g with userParam := g.userFlash, sysParam := g.userFlash.cfg }

def clampRecvBuf (frameLength : UInt16) : UInt16 :=
  if frameLength < 32 then 32 else if 1400 < frameLength then 1400 else frameLength

def loadUserParam (g : Globals) : Globals :=
  { g with
    userParam := { g.userParam with sleepMode := 0 }
    sysParam :=
      { g.userParam.cfg with
        bDhcpServer := 1
        bDnsServer := 1
        dnsName := putZero (moveMem g.userParam.cfg.dnsName (bytes "nufront.com")) 11 }
    gRecvBufSize := (clampRecvBuf g.userParam.frameLength).toUInt32
    factoryParam := { g.factoryParam with frameLength := clampRecvBuf g.userParam.frameLength } }

/-- The factory branch of `init_default_data`. -/
def loadFactory (env : Env) (g : Globals) : Globals :=
  { g with
    sysParam := infLoadDefaultParam env.permanentAddress
    factoryParam := initFactoryParam env.permanentAddress
    factoryFlash := initFactoryParam env.permanentAddress
    userParam := initFactoryParam env.permanentAddress
    userFlash := initFactoryParam env.permanentAddress }.post .start

def initSeriaNet (g : Globals) : Globals :=
  { g with
    conn := ⟨0, g.userParam.socketProtocol, g.userParam.socketType, g.userParam.socketPort,
      g.userParam.remoteCommIp, -1, -1⟩
    uartLens := (0, 0) }.post .start

/-- The globals after a reset and `InfLoadDefaultParam`. -/
def reset (env : Env) (g : Globals) : Globals where
  sysParam := infLoadDefaultParam env.permanentAddress
  userParam := .zero
  factoryParam := { UserCfgParam.zero with
    webSsid := moveMem zeros (bytes "nufront_sta"), webKey := moveMem zeros (bytes "nufront_sta"), webIpCfg := defaultIpCfg }
  userFlash := g.userFlash
  factoryFlash := g.factoryFlash
  wlWorkmode := 0
  gRecvBufSize := 1024
  rateOpt := ⟨0, 0⟩
  beaconOpt := ⟨100, 0⟩
  linkStatus := .linkDown
  smtconfigBegin := 0
  scanFlag := 0
  pingFlag := false
  pingCount := 0
  broadcast := ⟨0, 0, 0, 0, 0, 0, 0⟩
  conn := ⟨0, 0, 0, 0, 0, 0, 0⟩
  uartLens := (0, 0)
  threads := []
  heap := []
  mac := g.mac
  faults := g.faults

/-- `init_default_data`: the button, else the user sector if it is valid, else the factory parameters. -/
def initDefaultData (env : Env) (g : Globals) : Globals :=
  if env.factoryPin then g.loadFactory env
  else
    let g := g.getUserParam
    let g := if g.userParam.isValid = userParamFlagValid then g.loadUserParam.initSeriaNet else g.loadFactory env
    { g with wlWorkmode := g.userParam.atMode.toUInt32 }

/-- `BSP_ChipReset`, up to the end of `init_default_data`. -/
def boot (env : Env) (g : Globals) : Globals := (g.reset env).initDefaultData env

def blank : Globals where
  sysParam := .zero
  userParam := .zero
  factoryParam := .zero
  userFlash := .zero
  factoryFlash := .zero
  wlWorkmode := 0
  gRecvBufSize := 1024
  rateOpt := ⟨0, 0⟩
  beaconOpt := ⟨100, 0⟩
  linkStatus := .linkDown
  smtconfigBegin := 0
  scanFlag := 0
  pingFlag := false
  pingCount := 0
  broadcast := ⟨0, 0, 0, 0, 0, 0, 0⟩
  conn := ⟨0, 0, 0, 0, 0, 0, 0⟩
  uartLens := (0, 0)
  threads := []
  heap := []
  mac := []
  faults := []

def factory (env : Env) : Globals := blank.boot env

end Globals

def sampleEnv : Env where
  permanentAddress := #v[2, 0, 0, 0, 0, 1]
  factoryPin := false
  mallocOk := true
  curCh := 11
  sysTime := 0
  netifAddr := 0
  netifMask := 0
  netifGw := 0
  scan := []
  socket := 0
  setsockoptOk := true
  bindOk := true
  sendtoOk := true
  junk := 0

end SerialNet.Param
