import SerialNet.Param.Config

/-!
# AT commands

The handlers of `at_cmd.c` and `processCommand`. A handler gets the arguments,
the command's name first, and answers with the lines it prints.
-/

namespace SerialNet.Param

open Uart (SysEvt)

/-! ## Answers -/

inductive ErrorType where
  | invalidCommand
  | invalidParameter
  | invalidScanApFail
  | invalidPingRunning
  | invalidSmtconfRunning
  | invalidDataLinkdown
  | invalidBcttxRunningOrLinked
  | invalidBcttxSock
  | invalidBcttxSetopt
  | invalidBcttxSend
  | invalidBctrxRunningOrLinked
  | invalidBctrxSock
  | invalidBctrxBind
  deriving DecidableEq, Repr

def ErrorType.code : ErrorType → Int
  | invalidCommand => -1
  | invalidParameter => -2
  | invalidScanApFail => -9
  | invalidPingRunning => -16
  | invalidSmtconfRunning => -17
  | invalidDataLinkdown => -18
  | invalidBcttxRunningOrLinked => -40
  | invalidBcttxSock => -41
  | invalidBcttxSetopt => -42
  | invalidBcttxSend => -43
  | invalidBctrxRunningOrLinked => -45
  | invalidBctrxSock => -46
  | invalidBctrxBind => -47

inductive Arg where
  | int (n : Int)
  | str (s : List UInt8)
  | addr (a : UInt32)
  | fwType
  | fwVerNum (i : Nat)
  deriving DecidableEq, Repr

inductive Reply where
  /-- `+ERROR=%d`, or `+ERROR= %d`. -/
  | error (e : ErrorType)
  /-- `+ERROR=` and a text. -/
  | errorText (text : String)
  | print (fmt : String) (args : List Arg)
  deriving DecidableEq, Repr

def Reply.isError : Reply → Bool
  | error _ | errorText _ => true
  | print .. => false

abbrev Answer := Globals × List Reply

def Answer.failed (a : Answer) : Bool := a.2.any Reply.isError

section
variable (env : Env) (g : Globals) (argv : List (List UInt8))

def fail (e : ErrorType) : Answer := (g, [.error e])
def failText (t : String) : Answer := (g, [.errorText t])
def ok : Answer := (g, [.print "+OK\n\r" []])

def arg (i : Nat) : List UInt8 := argv.getD i []

def isQuery : Bool := argv.length == 2 && arg argv 1 == bytes "?"

def isText (i n : Nat) : Bool := strIsDigit (arg argv i) && (arg argv i).length == n

def bare (a : Answer) : Answer := if argv.length ≠ 1 then fail g .invalidCommand else a

/-! ## Base commands -/

inductive Request where
  | help | ver | sver | save | factory | rst | systime | baudrate | uartft | uartfl | mslp | lslpt
  | ipconfig | ping | mac | wqsopt | wphymode | wtxrate | wscanap | wsbcn | wscap | wsmtconf | wstop
  | nqscnn | nlocip | wsaconf | airkiss | bcttxstart | bcttxstop | bcttxdata | bctrxstart | bctrxstop | quit
  deriving DecidableEq, Repr

/-- `s_at_commands`, without the common `AT+`. -/
def sAtCommands : List (Request × String) :=
  [(.help, "HELP"), (.ver, "VER"), (.sver, "SVER"), (.save, "SAVE"), (.factory, "FACTORY"), (.rst, "RST"),
    (.systime, "SYSTIME"), (.baudrate, "BAUDRATE"), (.uartft, "UARTFT"), (.uartfl, "UARTFL"), (.mslp, "MSLP"),
    (.lslpt, "LSLPT"), (.ipconfig, "IPCONFIG"), (.ping, "PING"), (.mac, "MAC"), (.wqsopt, "WQSOPT"),
    (.wphymode, "WPHYMODE"), (.wtxrate, "WTXRATE"), (.wscanap, "WSCANAP"), (.wsbcn, "WSBCN"), (.wscap, "WSCAP"),
    (.wsmtconf, "WSMTCONF"), (.wstop, "WSTOP"), (.nqscnn, "NQSCNN"), (.nlocip, "NLOCIP"), (.wsaconf, "WSACONF"),
    (.airkiss, "AIRKISS"), (.bcttxstart, "BCTTXSTART"), (.bcttxstop, "BCTTXSTOP"), (.bcttxdata, "BCTTXDATA"),
    (.bctrxstart, "BCTRXSTART"), (.bctrxstop, "BCTRXSTOP"), (.quit, "QUIT")]

def stringTorequest (str : List UInt8) : Option Request :=
  (sAtCommands.find? fun c => bytes c.2 == str.map toUpper).map Prod.fst

def responseHELP : Answer :=
  bare g argv (g, [.print "+++++++ COMMAND LIST ++++++\n" []] ++
    sAtCommands.map (fun c => .print ("AT+" ++ c.2 ++ "\n\r") []) ++ [.print "------- COMMAND LIST ------\n+OK\n\r" []])

def responseVER : Answer := bare g argv (g, [.print "+OK=ATI:%d.%02x.%02x\n\r" [.int 1, .int 4, .int 0]])

def responseSVER : Answer :=
  bare g argv (g, [.print "+OK=%s:%x.%02x.%02x\n\r" [.fwType, .fwVerNum 0, .fwVerNum 1, .fwVerNum 2]])

def responseSAVE : Answer :=
  bare g argv (ok { g with userParam := { g.userParam with isValid := userParamFlagValid } }.saveUserParam)

def responseFACTORY : Answer :=
  bare g argv ({ g with userParam := .zero }.saveUserParam.boot env, [.print "+OK:rebooting...\n\r" []])

def responseRST : Answer := bare g argv (g.boot env, [.print "+OK:RST\n\r" []])

def responseSYSTIME : Answer :=
  bare g argv (g, [.print "+OK=SYSTIME:%d\n\r" [.int env.sysTime.toUInt32.toNat]])

def baudrates : List UInt32 :=
  [300, 1200, 2400, 4800, 9600, 19200, 38400, 57600, 115200, 156250, 250000, 312500, 500000, 625000, 1250000]

/-- `argv[1]` is compared before `argc` is checked. -/
def responseBAUDRATE : Answer :=
  let g := if argv.length < 2 then g.fault .uninitRead else g
  if isQuery argv then (g, [.print "+OK=%d\n\r" [.int g.userParam.baudrate.toNat]])
  else if argv.length == 2 && strIsDigit (arg argv 1) then
    if atoi (arg argv 1) ∈ baudrates then ok { g with userParam := { g.userParam with baudrate := atoi (arg argv 1) } }
    else fail g .invalidParameter
  else fail g .invalidParameter

/-- A query, or one number that is brought into its range and stored. -/
def setNumber (shown : Reply) (store : UInt32 → UserCfgParam) : Answer :=
  if isQuery argv then (g, [shown])
  else if argv.length == 2 && strIsDigit (arg argv 1) then ok { g with userParam := store (atoi (arg argv 1)) }
  else fail g .invalidParameter

def responseUARTFL : Answer :=
  setNumber g argv (.print "+OK=UARTFL:%d\n\r" [.int g.userParam.frameLength.toNat]) fun n =>
    { g.userParam with frameLength := Globals.clampRecvBuf n.toUInt16 }

def clampFrameGap (gap : UInt32) : UInt16 := if gap < 30 then 30 else if 10000 < gap then 10000 else gap.toUInt16

def responseUARTFT : Answer :=
  setNumber g argv (.print "+OK=UARTFT:%d\n\r" [.int g.userParam.frameGap.toNat]) fun n =>
    { g.userParam with frameGap := clampFrameGap n }

def responseMSLP : Answer :=
  bare g argv (g, [.print (if g.userParam.sleepMode = 0 then "+OK=NORMAL\n\r" else "+OK=LIGHT\n\r") []])

def responseLSLPT : Answer :=
  if argv.length ≠ 4 ∨ !strIsDigit (arg argv 1) ∨ !strIsDigit (arg argv 2) ∨ !strIsDigit (arg argv 3) ∨
      3 < (arg argv 2).length then fail g .invalidParameter
  else
    let mode := atoi (arg argv 1)
    let time := atoi (arg argv 2)
    let dtim := atoi (arg argv 3)
    if 3 < mode ∨ 255 < time ∨ time = 0 ∨ 1 < dtim then fail g .invalidParameter
    else if !g.linked then failText g "WiFi isn't started\n\r"
    else if mode = 0 then ok ({ g with userParam := { g.userParam with sleepMode := 0 } }.post (.psModeSet 0))
    else
      ok (({ g with userParam := { g.userParam with sleepMode := 1 } }.post
        (.listenIntvlSet time.toUInt8 dtim.toUInt8)).post (.psModeSet mode.toUInt8))

/-! ## Wi-Fi commands -/

def responseIPCONFIG : Answer :=
  let w := g.sysParam.wifiCfg
  bare g argv (g,
    [.print "DevMode:%s\tHWaddr" [.int g.userParam.cfg.wifiCfg.protocol.toNat]] ++
    env.permanentAddress.toList.map (fun b => .print ":%02x" [.int b.toNat]) ++
    [.print "\r\nInet addr:%s    " [.addr env.netifAddr], .print "\r\nNetmask:%s    " [.addr env.netifMask],
      .print "\r\nGateway:%s    " [.addr env.netifGw],
      .print "\r\nChannel:%d,\t" [.int (if w.protocol = 0 then env.curCh else w.channel).toNat]] ++
    (if w.protocol = 2 then [.print "Encry:%s    " [.int w.encry.toNat], .print "AuthMode:%s    " [.int w.authMode.toNat]] else []) ++
    [.print "WMM:%s\n\r" [.int w.wmmEn.toNat], .print "+OK\n\r" []])

def pingInit (count : UInt32) : Int × Globals :=
  if g.pingFlag then (-1, g) else (0, { g with pingFlag := true, pingCount := count })

def responsePING : Answer :=
  if argv.length ≠ 3 ∨ !isValidIp (arg argv 1) ∨ !strIsDigit (arg argv 2) ∨ arg argv 2 = [] then
    fail g .invalidParameter
  else
    let g := if (inetAton (arg argv 1)).isNone then g.fault .uninitRead else g
    let (ret, g) := pingInit g (atoi (arg argv 2))
    if ret = 0 then (g, []) else fail g .invalidPingRunning

def responseMAC : Answer :=
  bare g argv (g, [.print "+OK=MAC" []] ++ env.permanentAddress.toList.map (fun b => .print ":%02x" [.int b.toNat]) ++
    [.print "\n\r" []])

/-- The settings of `AT+WQSOPT` as the handler converts them. -/
structure WqsoptArgs where
  mode : UInt8
  channel : UInt8
  encry : UInt8
  authMode : UInt8
  wmmEn : UInt8

def wqsoptArgs : WqsoptArgs where
  mode := (atoi (arg argv 1)).toUInt8
  channel := if (atoi (arg argv 1)).toUInt8 = 0 then 1 else (atoi (arg argv 2)).toUInt8
  encry := (atoi (arg argv 3)).toUInt8
  authMode := (atoi (arg argv 4)).toUInt8
  wmmEn := (atoi (arg argv 5)).toUInt8

def wqsoptDigits : Bool :=
  isText argv 1 1 && (strIsDigit (arg argv 2) && (arg argv 2).length ≤ 2) && isText argv 3 1 && isText argv 4 1 &&
    isText argv 5 1

def WqsoptArgs.outOfRange (a : WqsoptArgs) : Bool :=
  (a.mode ≠ 0 && a.mode ≠ 1 && a.mode ≠ 2) || (a.channel < 1 || 13 < a.channel) || 4 < a.encry || 3 < a.authMode ||
    (a.wmmEn ≠ 0 && a.wmmEn ≠ 1)

/-- The two checks made after the Wi-Fi was stopped. -/
def WqsoptArgs.badAuth (a : WqsoptArgs) : Bool :=
  (a.encry = 0 && a.authMode ≠ 0) || (a.mode = 2 && a.encry = 4 && a.authMode ≠ 0)

def WqsoptArgs.set (a : WqsoptArgs) (sys : CfgParam) : CfgParam :=
  let sys := (infNetModeSet sys a.mode).2
  sys.setWifi { sys.wifiCfg with channel := a.channel, encry := a.encry, authMode := a.authMode, wmmEn := a.wmmEn }

def protocolName (protocol : UInt8) : Reply :=
  if protocol = 0 then .print "+OK=STA," []
  else if protocol = 1 then .print "+OK=ADHOC," []
  else if protocol = 2 then .print "+OK=SOFTAP," []
  else .print "+<mode>ERROR=%d," [.int (ErrorType.code .invalidParameter)]

def encryName (w : WifiCfg) : Reply :=
  if w.encry = 0 then .print "none," []
  else if w.encry = 1 then .print "wep," []
  else if w.encry = 2 then .print "tkip," []
  else if w.encry = 3 then .print "ccmp," []
  else if w.encry = 4 then (if w.protocol = 2 then .print "none," [] else .print "auto," [])
  else .error .invalidCommand

def authName (authMode : UInt8) : Reply :=
  if authMode = 0 then .print "open," []
  else if authMode = 1 then .print "share," []
  else if authMode = 2 then .print "wpa," []
  else if authMode = 3 then .print "wpa2," []
  else .error .invalidCommand

def responseWQSOPT : Answer :=
  let w := g.sysParam.wifiCfg
  if isQuery argv then
    (g, [protocolName w.protocol, .print "%d," [.int (if w.protocol = 0 then env.curCh else w.channel).toNat],
        encryName w, authName w.authMode] ++
      (if w.wmmEn = 0 then [.print "Disable\n\r" []] else if w.wmmEn = 1 then [.print "Enable\n\r" []] else []))
  else if argv.length ≠ 6 then fail g .invalidParameter
  else if !wqsoptDigits argv then fail g .invalidParameter
  else if (wqsoptArgs argv).outOfRange then fail g .invalidParameter
  else
    let g := if g.linked then g.post .stop else g
    if (wqsoptArgs argv).badAuth then fail g .invalidParameter
    else ok (g.setSys ((wqsoptArgs argv).set g.sysParam)).copySysToUser

def modeCckRate : List String := ["auto", "1Mbps", "2Mbps", "5.5Mbps", "11Mbps"]
def modeOfdmRate : List String := ["auto", "6Mbps", "9Mbps", "12Mbps", "18Mbps", "24Mbps", "36Mbps", "48Mbps", "54Mbps"]

/-- The accepted rates with their mode and index. -/
def txRates : List (String × UInt8 × UInt8) :=
  [("0", 0, 0), ("1", 0, 1), ("2", 0, 2), ("5.5", 0, 3), ("11", 0, 4), ("6", 1, 1), ("9", 1, 2), ("12", 1, 3),
    ("18", 1, 4), ("24", 1, 5), ("36", 1, 6), ("48", 1, 7), ("54", 1, 8)]

def infTxRateSet (mode idx : UInt8) : Int × Globals :=
  if 2 < mode ∨ (mode = 0 ∧ 4 < idx) ∨ 8 < idx then (-1, g) else (0, g.post (.txRateSet mode idx))

def responseWTXRATE : Answer :=
  if isQuery argv then
    if g.rateOpt.rateMode = 0 then (g, [.print "+OK=%s\n\r" [.str (bytes (modeCckRate.getD g.rateOpt.rateIdx.toNat ""))]])
    else if g.rateOpt.rateMode = 1 then
      (g, [.print "+OK=%s\n\r" [.str (bytes (modeOfdmRate.getD g.rateOpt.rateIdx.toNat ""))]])
    else fail g .invalidParameter
  else
    match txRates.find? fun r => argv.length == 2 && arg argv 1 == bytes r.1 with
    | none => fail g .invalidParameter
    | some (_, mode, idx) =>
      if !g.linked then failText g "WiFi isn't started\n\r"
      else
        let (ret, g) := infTxRateSet g mode idx
        if ret ≠ 0 then fail g .invalidParameter else ok { g with rateOpt := ⟨mode, idx⟩ }

/-- `pScanTable` and its `InfoCount`; a positive filter becomes 0. -/
def infScanStart (tableOk : Bool) (infoCount minRssiFilter scanType : UInt8) : Int × Globals :=
  if !tableOk ∨ infoCount = 0 then (-1, g)
  else (0, g.post (.scanRequest (if 0 < minRssiFilter ∧ minRssiFilter < 128 then 0 else minRssiFilter) scanType))

def scanTableSize : Nat := 45 + 44 * 31

/-- The scan itself: the wait for `ScanFlag` ends with the scan, and the table is freed. -/
def scanAp (minRssiFilter : UInt8) : Answer :=
  let g := { g with scanFlag := 0 }
  let g := if !g.linked then (g.setSys (infSsidSet g.sysParam none).2).post .start else g
  let (ret, g) := infScanStart g true 32 (0 - minRssiFilter) 0
  if ret ≠ 0 then (g, [.print "+OK:scanning...\n\r" [], .error .invalidScanApFail])
  else
    let g := { g with scanFlag := 1 }
    let g := if text g.sysParam.wifiCfg.ssid = [] then g.post .stop else g
    ({ g with heap := g.heap.erase scanTableSize },
      [.print "+OK:scanning...\n\r" [], .print "Scan number:%d\n\r" [.int env.scan.length],
        .print "+++++++ SCAN TABLE +++++++\n\r" []] ++
      env.scan.map (fun ap => .print "Ssid:%s, Channel:%d, EncryMode:%d, AuthMode:%d, Rssi:%d.\n\r"
        [.str ap.ssid, .int ap.channel.toNat, .int ap.encryMode.toNat, .int ap.authMode.toNat, .int ap.rssi]) ++
      [.print "+++++++ SCAN TABLE +++++++\n\r" [], .print "+OK:ScanFinish\n\r" []])

/-- The table is allocated before the arguments are checked. -/
def responseWSCANAP : Answer :=
  if !env.mallocOk then fail g .invalidScanApFail
  else
    let g := { g with heap := scanTableSize :: g.heap }
    if argv.length == 2 && strIsDigit (arg argv 1) && (arg argv 1).length != 0 then
      scanAp env g (atoi (arg argv 1)).toUInt8
    else fail g .invalidParameter

def infBeaconPeriodSet (bcnPrd : UInt16) (notifyPeerEn : UInt8) : Int × Globals := (0, g.post (.bcnPrdSet bcnPrd notifyPeerEn))

def wsbcnArgs : Bool := argv.length == 3 && strIsDigit (arg argv 1) && isText argv 2 1

def wsbcnRange : Bool := atoi (arg argv 1) ≤ 65535 && (atoi (arg argv 2)).toUInt8 ≤ 1

/-- The link is checked after the period was set. -/
def responseWSBCN : Answer :=
  if isQuery argv then
    if g.beaconOpt.notifyPeerEn = 0 then
      (g, [.print "+OK=Period:%d  " [.int g.beaconOpt.bcnPrd.toNat], .print "NotifyPeerEn:DISANBLE\n\r" []])
    else if g.beaconOpt.notifyPeerEn = 1 then
      (g, [.print "+OK=Period:%d  " [.int g.beaconOpt.bcnPrd.toNat], .print "NotifyPeerEn:ENABLE\n\r" []])
    else fail g .invalidParameter
  else if !wsbcnArgs argv then fail g .invalidParameter
  else if g.sysParam.wifiCfg.protocol = 0 then fail g .invalidParameter
  else if !wsbcnRange argv then fail g .invalidParameter
  else
    let period := atoi (arg argv 1)
    let mode := (atoi (arg argv 2)).toUInt8
    let (ret, g) := infBeaconPeriodSet g period.toUInt16 mode
    if ret ≠ 0 then fail g .invalidParameter
    else if !g.linked then failText g "WiFi isn't started\n\r"
    else ok { g with beaconOpt := ⟨period.toUInt16.toUInt32, mode⟩ }

/-- `PSK[i] = 0`; `WscEn` is the byte behind the array. -/
def clearPsk (w : WifiCfg) (i : Nat) : Option WifiCfg :=
  if i < 64 then some { w with psk := putZero w.psk i } else if i = 64 then some { w with wscEn := 0 } else none

def wscapArgs : Bool :=
  argv.length == 4 && ((arg argv 1).length ≤ 32 && 0 < (arg argv 1).length) && (arg argv 2).length ≤ 64

def wscapTrytime : Bool := strIsDigit (arg argv 3) && (arg argv 3).length != 0 && atoi (arg argv 3) ≤ 255

/-- `InfSsidSet` and `InfKeySet` with the given strings. -/
def setSsidKey (sys : CfgParam) (ssid key : List UInt8) : CfgParam := (infKeySet (infSsidSet sys (some ssid)).2 0 key).2

def wscapSta : Answer :=
  let g := g.post .stop
  let sys := setSsidKey (infNetModeSet g.sysParam 0).2 (arg argv 1) (arg argv 2)
  let sys := (infConTryTimesSet sys (atoi (arg argv 3)).toUInt8).2
  (((g.setSys sys).post .start).copySysToUser, [.print "+OK:connecting...\n\r" []])

def wscapSoftap : Answer :=
  let g := (g.post .stop).copyUserToSys
  let sys := (infNetModeSet { g.sysParam with bDhcpServer := 1, bDnsServer := 1 } 2).2
  (((g.setSys (setSsidKey sys (arg argv 1) (arg argv 2))).post .start).copySysToUser, [.print "+OK:setting...\n\r" []])

/-- The key is set with its ending zero. -/
def wscapAdhoc : Answer :=
  let g := (g.post .stop).copyUserToSys
  (((g.setSys (setSsidKey g.sysParam (arg argv 1) (arg argv 2 ++ [0]))).post .start).copySysToUser,
    [.print "+OK:adhoc...\n\r" []])

def responseWSCAP : Answer :=
  if isQuery argv then
    let g := match clearPsk g.sysParam.wifiCfg g.sysParam.wifiCfg.keyLength.toNat with
      | some w => g.setSys (g.sysParam.setWifi w)
      | none => g.fault (.storeOutside "PSK")
    (g, [.print "+OK=%s,%s\n\r" [.str (text g.sysParam.wifiCfg.ssid), .str (text g.sysParam.wifiCfg.psk)]])
  else if !wscapArgs argv then fail g .invalidParameter
  else if g.sysParam.wifiCfg.protocol = 0 then
    if !wscapTrytime argv then fail g .invalidParameter else wscapSta g argv
  else if g.sysParam.wifiCfg.protocol = 2 then wscapSoftap g argv
  else if g.sysParam.wifiCfg.protocol = 1 then wscapAdhoc g argv
  else (g, [])

def responseWSMTCONF : Answer :=
  bare g argv
    (if g.smtconfigBegin = 0 then
      (({ (g.post .stop).setSys (infNetModeSet g.sysParam 0).2 with smtconfigBegin := 1 }.post .directCfgStart),
        [.print "+OK:DirectConfig...\n\r" []])
    else fail g .invalidSmtconfRunning)

def responseWSTOP : Answer :=
  bare g argv
    (if !g.linked then failText g "WiFi isn't started\n\r" else (g.post .stop, [.print "+OK:WiFi Stopped\n\r" []]))

def responseWPHYMODE : Answer :=
  if isQuery argv then
    if g.sysParam.wifiCfg.phyMode = 1 then (g, [.print "+OK=PhyMode:b/g\n\r" []])
    else if g.sysParam.wifiCfg.phyMode = 2 then (g, [.print "+OK=PhyMode:b\n\r" []])
    else fail g .invalidParameter
  else if argv.length == 2 && isText argv 1 1 then
    let mode := atoi (arg argv 1)
    if mode ≠ 1 ∧ mode ≠ 2 then fail g .invalidParameter
    else if g.linked then failText g "WiFi Started\n\r"
    else
      let cfg := g.userParam.cfg
      let g := { g with userParam := { g.userParam with cfg := cfg.setWifi { cfg.wifiCfg with phyMode := mode.toUInt8 } } }
      ok (g.setSys (infPhyModeSet g.sysParam mode.toUInt8).2).copySysToUser
  else fail g .invalidParameter

/-! ## Network commands -/

/-- The parts of `AT+NQSCNN` are stored one by one, each with the whole of `SysParam`. -/
def nqscnnStore (u : UserCfgParam) : Globals := { g with userParam := u }.copySysToUser

def nmodeOk (a : List UInt8) : Bool := strIsDigit a && a.length == 1 && (atoi a).toUInt8 ≤ 1

def responseNMODE (a : List UInt8) : Int × Globals :=
  if nmodeOk a then (0, nqscnnStore g { g.userParam with socketProtocol := (atoi a).toUInt8 }) else (-1, g)

def responseNTYPE (a : List UInt8) : Int × Globals :=
  if nmodeOk a then (0, nqscnnStore g { g.userParam with socketType := (atoi a).toUInt8 }) else (-1, g)

def nportOk (a : List UInt8) : Bool := strIsDigit a && (atoi a ≤ 65535 && atoi a ≠ 0)

def responseNPORT (a : List UInt8) : Int × Globals :=
  if nportOk a then (0, nqscnnStore g { g.userParam with socketPort := (atoi a).toUInt16 }) else (-1, g)

def responseNRMTIP (a : List UInt8) : Int × Globals :=
  if g.userParam.socketType = 1 then (0, g)
  else if isValidIp a then
    match inetAton a with
    | some remoteIp => (0, nqscnnStore g { g.userParam with remoteCommIp := remoteIp })
    | none => (0, nqscnnStore (g.fault .uninitRead) { g.userParam with remoteCommIp := env.junk })
  else (-1, g)

def socketNames (u : UserCfgParam) : List Reply :=
  (if u.socketProtocol = 0 then [.print "+OK=UDP," []] else if u.socketProtocol = 1 then [.print "+OK=TCP," []] else []) ++
  (if u.socketType = 1 then [.print "server," []] else if u.socketType = 0 then [.print "client," []] else []) ++
  [.print "%d," [.int u.socketPort.toNat], .print "%s\n\r" [.addr u.remoteCommIp]]

def responseNQSCNN : Answer :=
  if isQuery argv then (g, socketNames g.userParam)
  else if argv.length = 5 then
    let (r1, g) := responseNMODE g (arg argv 1)
    let (r2, g) := responseNTYPE g (arg argv 2)
    let (r3, g) := responseNPORT g (arg argv 3)
    let (r4, g) := responseNRMTIP env g (arg argv 4)
    if r1 = 0 ∧ r2 = 0 ∧ r3 = 0 ∧ r4 = 0 then ok g else fail g .invalidParameter
  else fail g .invalidParameter

def nlocipMode : Bool :=
  !(!strIsDigit (arg argv 2) || (arg argv 2).length == 0 || !strIsDigit (arg argv 3) || (arg argv 3).length == 0 ||
    ((atoi (arg argv 2)).toUInt8 ≠ 0 && (atoi (arg argv 2)).toUInt8 ≠ 1))

def nlocipSet (sys : CfgParam) (ipAddr : UInt32) (mode trytimes : UInt8) : CfgParam :=
  { sys with
    ipCfg :=
      { sys.ipCfg with
        ip := ip4Addr ipAddr
        gateWay := ip4Addr ipAddr
        bDhcp := if sys.wifiCfg.protocol = 0 then mode else sys.ipCfg.bDhcp
        dhcpTryTimes := if sys.wifiCfg.protocol = 0 then trytimes else sys.ipCfg.dhcpTryTimes } }

def responseNLOCIP : Answer :=
  let ip := g.sysParam.ipCfg
  if isQuery argv then
    (g, (if g.linked then [.print "\r\nInet addr:%s    " [.addr env.netifAddr]]
        else [.print "+OK=IP:%d.%d.%d.%d\n\r" (ip.ip.toList.map fun b => .int b.toNat)]) ++
      (if ip.bDhcp = 0 then [.print "dhcp:disable" []] else []) ++ (if ip.bDhcp = 1 then [.print "dhcp:enable" []] else []) ++
      [.print " trytimes:%d\n\r" [.int ip.dhcpTryTimes.toNat]])
  else if argv.length ≠ 4 then fail g .invalidParameter
  else if !isValidIp (arg argv 1) then fail g .invalidParameter
  else if !nlocipMode argv then fail g .invalidParameter
  else if g.linked then failText g "WiFi Started\n\r"
  else
    let g := if (inetAton (arg argv 1)).isNone then g.fault .uninitRead else g
    ok (g.setSys (nlocipSet g.sysParam ((inetAton (arg argv 1)).getD env.junk) (atoi (arg argv 2)).toUInt8
      (atoi (arg argv 3)).toUInt8)).copySysToUser

def startThread (name : String) : Answer :=
  if argv.length = 1 then ({ g with threads := g.threads ++ [name] }, []) else fail g .invalidParameter

def responseWSACONF : Answer := startThread g argv "SoftApConfThread"
def responseAIRKISS : Answer := startThread g argv "AirKissConfThread"

/-! ## Broadcast commands -/

def portOk (a : List UInt8) : Bool := strIsDigit a && (atoi a ≤ 65535 && atoi a ≠ 0)

def Globals.setBroadcast (b : BroadcastSts) : Globals := { g with broadcast := b }

/-- The two start commands: `other` and `own` are the running directions, `set` is
the call made on the new socket, `opened` and `started` the status stored. -/
def bctStart (other own : UInt16) (otherErr ownErr sockErr setErr : ErrorType) (set : Bool)
    (opened started : BroadcastSts) (done : String) : Answer :=
  if argv.length ≠ 2 ∨ !portOk (arg argv 1) then fail g .invalidParameter
  else if !g.linked then failText g "link_status isn't SYS_EVT_LINK_UP\n\r"
  else if other ≠ 0 then fail g otherErr
  else if own ≠ 0 then fail g ownErr
  else if env.socket = -1 then fail (g.setBroadcast opened) sockErr
  else if !set then fail (g.setBroadcast opened) setErr
  else (g.setBroadcast started, [.print done []])

def responseBCTTXSTART : Answer :=
  let opened := { g.broadcast with txPort := (atoi (arg argv 1)).toUInt16, txSockfd := env.socket }
  bctStart env g argv g.broadcast.rxStatus g.broadcast.txStatus .invalidBctrxRunningOrLinked .invalidBcttxRunningOrLinked
    .invalidBcttxSock .invalidBcttxSetopt env.setsockoptOk opened { opened with txStatus := 1 } "+OK:BCTTXSTART\n\r"

def responseBCTRXSTART : Answer :=
  let opened := { g.broadcast with rxPort := (atoi (arg argv 1)).toUInt16, rxSockfd := env.socket }
  bctStart env g argv g.broadcast.txStatus g.broadcast.rxStatus .invalidBcttxRunningOrLinked .invalidBctrxRunningOrLinked
    .invalidBctrxSock .invalidBctrxBind env.bindOk opened { opened with rxStatus := 1 } "+OK:BCTRXSTART\n\r"

def responseBCTTXSTOP : Answer :=
  bare g argv (g.setBroadcast { g.broadcast with txStatus := 0 }, [.print "+OK:BCTTXSTOP\n\r" []])

def responseBCTTXDATA : Answer :=
  if argv.length ≠ 3 ∨ !strIsDigit (arg argv 1) then fail g .invalidParameter
  else if 256 < atoi (arg argv 1) ∨ atoi (arg argv 1) = 0 then
    fail (g.setBroadcast { g.broadcast with txLen := 0 }) .invalidParameter
  else
    let g := g.setBroadcast { g.broadcast with txLen := atoi (arg argv 1) }
    if !g.linked then failText g "link_status isn't SYS_EVT_LINK_UP\n\r"
    else if g.broadcast.txSockfd < 0 then fail g .invalidBcttxSock
    else if !env.sendtoOk then fail g .invalidBcttxSend
    else ok g

def responseBCTRXSTOP : Answer :=
  bare g argv (g.setBroadcast { g.broadcast with rxStatus := 0 }, [.print "+OK:BCTRXSTOP\n\r" []])

def responseQUIT : Answer :=
  bare g argv
    (if !g.linked then fail g .invalidDataLinkdown
    else
      ({ g with
          userParam := { g.userParam with atMode := 1 }
          uartLens := (0, 0)
          conn := ⟨0, g.userParam.socketProtocol, g.userParam.socketType, g.userParam.socketPort,
            g.userParam.remoteCommIp, -1, -1⟩ },
        [.print "+OK:DATAMODE\n" []]))

/-! ## Dispatch -/

def respond : Request → Answer
  | .help => responseHELP g argv
  | .ver => responseVER g argv
  | .sver => responseSVER g argv
  | .save => responseSAVE g argv
  | .factory => responseFACTORY env g argv
  | .rst => responseRST env g argv
  | .systime => responseSYSTIME env g argv
  | .baudrate => responseBAUDRATE g argv
  | .uartft => responseUARTFT g argv
  | .uartfl => responseUARTFL g argv
  | .mslp => responseMSLP g argv
  | .lslpt => responseLSLPT g argv
  | .ipconfig => responseIPCONFIG env g argv
  | .ping => responsePING g argv
  | .mac => responseMAC env g argv
  | .wqsopt => responseWQSOPT env g argv
  | .wphymode => responseWPHYMODE g argv
  | .wtxrate => responseWTXRATE g argv
  | .wscanap => responseWSCANAP env g argv
  | .wsbcn => responseWSBCN g argv
  | .wscap => responseWSCAP g argv
  | .wsmtconf => responseWSMTCONF g argv
  | .wstop => responseWSTOP g argv
  | .nqscnn => responseNQSCNN env g argv
  | .nlocip => responseNLOCIP env g argv
  | .wsaconf => responseWSACONF g argv
  | .airkiss => responseAIRKISS g argv
  | .bcttxstart => responseBCTTXSTART env g argv
  | .bcttxstop => responseBCTTXSTOP g argv
  | .bcttxdata => responseBCTTXDATA env g argv
  | .bctrxstart => responseBCTRXSTART env g argv
  | .bctrxstop => responseBCTRXSTOP g argv
  | .quit => responseQUIT g argv

def processCommand : Answer :=
  match argv with
  | [] => fail g .invalidCommand
  | name :: _ =>
    match stringTorequest name with
    | some request => respond env g argv request
    | none => fail g .invalidCommand

end

/-- A command line after its `AT+`. -/
def atCommand (env : Env) (g : Globals) (line : List UInt8) : Answer := processCommand env g (parseParameter line)

end SerialNet.Param
