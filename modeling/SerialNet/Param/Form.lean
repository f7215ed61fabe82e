import Mathlib.Data.List.DropRight
import SerialNet.Param.Config
import SerialNet.Util.Strlen

/-!
# Web forms

`url_decode`, the scan for the fields of a form, and the form handlers of
`http_parser.c` with `SetWifiParam` of `wifi_opt.c`. A handler gets the memory
from `rx` on and the number of received bytes.
-/

namespace SerialNet.Param

/-! ## url_decode -/

def hexDigit (c : UInt8) : Option UInt8 :=
  if isDigit c then some (c - 48)
  else if 65 ≤ c ∧ c ≤ 70 then some (c - 55)
  else if 97 ≤ c ∧ c ≤ 102 then some (c - 87)
  else none

/-- `atou_hex` of the two characters after a `%`. -/
def atouHex (a b : UInt8) : UInt8 :=
  match hexDigit a, hexDigit b with
  | none, _ => 0
  | some x, none => x
  | some x, some y => x * 16 + y

def isFieldEnd (c : UInt8) : Bool := c == 0 || c == 38 || c == 32 || c == 10 || c == 13

/-- The decoded characters and the value of `i` at the end: past `len` when an escape is cut short. -/
def urlDecodeFrom (len : Nat) : Nat → List UInt8 → List UInt8 × Nat
  | i, [] => ([], if len ≤ i then i else i + 1)
  | i, c :: src =>
    if len ≤ i then ([], i)
    else if isFieldEnd c then ([], i + 1)
    else if c == 37 then
      match src with
      | a :: b :: src => let (dst, j) := urlDecodeFrom len (i + 3) src; (atouHex a b :: dst, j)
      | src => ([atouHex (src.headD 0) 0], i + 3)
    else if c == 43 then let (dst, j) := urlDecodeFrom len (i + 1) src; (32 :: dst, j)
    else let (dst, j) := urlDecodeFrom len (i + 1) src; (c :: dst, j)

/-- The characters that `strlen` counts. -/
def counted (s : List UInt8) : List UInt8 := s.take Util.strlenMax

/-- `strrmvspace`. White space is looked for before the end that `strlen` sees;
what lies behind it stays unless some is cleared there. -/
def strrmvspace (s : List UInt8) : List UInt8 :=
  let t := s.dropWhile isSpace
  let kept := (counted t).rdropWhile isSpace
  if kept = counted t then t else kept

def EndsBare (s : List UInt8) : Prop := ∀ c ∈ s.getLast?, isSpace c = false

section
variable {s t : List UInt8}

@[simp] theorem counted_nil : counted [] = [] := List.take_nil

theorem counted_short (h : s.length ≤ Util.strlenMax) : counted s = s := List.take_of_length_le h

theorem length_counted_le (s : List UInt8) : (counted s).length ≤ s.length := List.length_take_le' _ _

theorem counted_head (h : t.dropWhile isSpace = t) : (counted t).dropWhile isSpace = counted t := by
  refine List.dropWhile_eq_self_iff.mpr fun hl => ?_
  have hlen : 0 < t.length := Nat.lt_of_lt_of_le hl (length_counted_le t)
  rw [show (counted t)[0] = t[0] from List.getElem_take]
  exact List.dropWhile_eq_self_iff.mp h hlen

theorem rdropWhile_iff : t.rdropWhile isSpace = t ↔ EndsBare t := by
  rw [List.rdropWhile_eq_self_iff]
  constructor
  · intro h c hc
    obtain ⟨hne, rfl⟩ := List.mem_getLast?_eq_getLast hc
    exact Bool.eq_false_iff.mpr (h hne)
  · exact fun h hne => Bool.eq_false_iff.mp (h _ (List.getLast?_eq_some_getLast hne))

theorem strrmvspace_sublist : (strrmvspace s).Sublist s := by
  unfold strrmvspace
  dsimp only
  split
  · exact List.dropWhile_sublist _
  · exact ((List.rdropWhile_prefix _ _).sublist.trans (List.take_sublist _ _)).trans (List.dropWhile_sublist _)

/-- A text that starts with no white space stays if its counted characters end in none. -/
theorem strrmvspace_eq_iff (hhead : s.dropWhile isSpace = s) : strrmvspace s = s ↔ EndsBare (counted s) := by
  rw [← rdropWhile_iff, strrmvspace, hhead]
  refine ⟨fun h => ?_, fun h => if_pos h⟩
  by_contra hne
  rw [if_neg hne] at h
  have hspaces := List.rdropWhile_prefix isSpace (counted s)
  refine hne (hspaces.eq_of_length_le ?_)
  rw [h]
  exact length_counted_le s

end

/-- The text left at `dst`, and the characters consumed. -/
def urlDecode (src : List UInt8) (len : Nat) : List UInt8 × Nat :=
  let (dst, i) := urlDecodeFrom len 0 src
  (strrmvspace (dst.takeWhile (· != 0)), i)

/-! ## The scan -/

def startsWith (rx : List UInt8) (key : String) : Bool := (rx.take (bytes key).length).map toLower == bytes key

/-- The fields in their order. `skip` characters belong to the field before;
when the received ones run out first, `rx_len` wraps and there is no end. -/
def scanFrom (keys : List String) : Nat → Nat → List UInt8 → Option (List (String × List UInt8))
  | 0, 0, _ => some []
  | 0, _ + 1, _ => none
  | n + 1, skip + 1, rx => scanFrom keys n skip rx.tail
  | n + 1, 0, rx =>
    match keys.find? (startsWith rx) with
    | none => scanFrom keys n 0 rx.tail
    | some key =>
      let len := (bytes key).length
      if key = "save=" then scanFrom keys n (len - 1) rx.tail
      else
        let (value, i) := urlDecode (rx.drop len) (n + 1 - len)
        (scanFrom keys n (len + i - 1) rx.tail).map ((key, value) :: ·)

def scan (keys : List String) (rx : List UInt8) (rxLen : Nat) : Option (List (String × List UInt8)) :=
  scanFrom keys rxLen 0 rx

def field (fields : List (String × List UInt8)) (key : String) : Option (List UInt8) :=
  (fields.reverse.find? fun f => f.1 == key).map Prod.snd

def atoiPtr (p : Option (List UInt8)) : UInt32 := (p.map atoi).getD 0

/-- `strlen` and the characters at a pointer; the null pointer has length 0. -/
def strPtr (p : Option (List UInt8)) : List UInt8 := p.getD []

def toInt (x : UInt32) : Int := if x < 0x80000000 then x.toNat else x.toNat - 0x100000000

def outside (lo hi : Int) (x : UInt32) : Bool := toInt x < lo || hi < toInt x

def Globals.addFaults (g : Globals) (l : List Fault) : Globals := { g with faults := g.faults ++ l }

def Globals.setUser (g : Globals) (u : UserCfgParam) : Globals := { g with userParam := u }

section
variable (g : Globals) (l : List Fault) (u : UserCfgParam)

@[simp] theorem addFaults_userParam : (g.addFaults l).userParam = g.userParam := rfl
@[simp] theorem addFaults_wlWorkmode : (g.addFaults l).wlWorkmode = g.wlWorkmode := rfl
@[simp] theorem setUser_userParam : (g.setUser u).userParam = u := rfl
@[simp] theorem setUser_wlWorkmode : (g.setUser u).wlWorkmode = g.wlWorkmode := rfl
@[simp] theorem setUser_faults : (g.setUser u).faults = g.faults := rfl
@[simp] theorem setUser_addFaults : (g.setUser u).addFaults l = (g.addFaults l).setUser u := rfl
@[simp] theorem setUser_setUser (u' : UserCfgParam) : (g.setUser u).setUser u' = g.setUser u' := rfl

end

def faultIf (c : Bool) (f : Fault) : List Fault := if c then [f] else []

/-! ## http_setup_uart -/

def uartKeys : List String := ["baudrate=", "framelen=", "frametime="]

structure UartForm where
  baudrate : Option (List UInt8)
  framelen : Option (List UInt8)
  frametime : Option (List UInt8)
  deriving DecidableEq, Repr

def readUart (fields : List (String × List UInt8)) : UartForm :=
  ⟨field fields "baudrate=", field fields "framelen=", field fields "frametime="⟩

def UartForm.rejected (f : UartForm) : Bool :=
  outside 300 1250000 (atoiPtr f.baudrate) || outside 0 1400 (atoiPtr f.framelen) || toInt (atoiPtr f.frametime) < 30

def UartForm.store (f : UartForm) (u : UserCfgParam) : UserCfgParam :=
  { u with
    baudrate := atoiPtr f.baudrate
    frameLength := (atoiPtr f.framelen).toUInt16
    frameGap := (atoiPtr f.frametime).toUInt16 }

def httpSetupUart (g : Globals) (rx : List UInt8) (rxLen : Nat) : Globals :=
  match scan uartKeys rx rxLen with
  | none => g.fault .overrun
  | some fields =>
    let f := readUart fields
    if f.rejected then g else g.setUser (f.store g.userParam)

/-! ## http_setup_net -/

def netKeys : List String := ["workmode=", "socktype=", "conntype=", "remoteip=", "port="]

structure NetForm where
  workmode : Option (List UInt8)
  socktype : Option (List UInt8)
  conntype : Option (List UInt8)
  remoteip : Option (List UInt8)
  port : Option (List UInt8)
  deriving DecidableEq, Repr

def readNet (fields : List (String × List UInt8)) : NetForm :=
  ⟨field fields "workmode=", field fields "socktype=", field fields "conntype=", field fields "remoteip=",
    field fields "port="⟩

/-- There is no lower bound for the port. -/
def NetForm.rejected (f : NetForm) : Bool :=
  outside 0 1 (atoiPtr f.socktype) || outside 0 1 (atoiPtr f.conntype) || 65535 < toInt (atoiPtr f.port) ||
    outside 0 1 (atoiPtr f.workmode)

def NetForm.store (f : NetForm) (remoteip : UInt32) (u : UserCfgParam) : UserCfgParam :=
  { u with
    socketProtocol := (atoiPtr f.socktype).toUInt8
    socketType := (atoiPtr f.conntype).toUInt8
    remoteCommIp := remoteip
    socketPort := (atoiPtr f.port).toUInt16 }

/-- The address a pointer converts to, or what `inet_aton` left on the stack. -/
def atonPtr (junk : UInt32) (p : Option (List UInt8)) : UInt32 := (p.bind inetAton).getD junk

/-- A string that does not convert leaves its variable uninitialised. -/
def unset (p : Option (List UInt8)) : Bool := p.isSome && (p.bind inetAton).isNone

/-- `wl_workmode` is a global, stored before the check. -/
def httpSetupNet (env : Env) (g : Globals) (rx : List UInt8) (rxLen : Nat) : Globals :=
  match scan netKeys rx rxLen with
  | none => g.fault .overrun
  | some fields =>
    let f := readNet fields
    let g := { g.addFaults (faultIf f.remoteip.isNone .nullRead) with wlWorkmode := atoiPtr f.workmode }
    if f.rejected then g
    else (g.addFaults (faultIf (unset f.remoteip) .uninitRead)).setUser (f.store (atonPtr env.junk f.remoteip) g.userParam)

/-! ## http_setup_wifibase -/

def wifiKeys : List String :=
  ["wifimode=", "encry=", "authmode=", "apssid=", "apkey=", "apipaddr=", "apnetmask=", "channel=", "stassid=", "stakey=",
    "dhcp=", "staipaddr=", "stanetmask=", "gateway=", "dnsserv=", "save="]

structure WifiForm where
  protocol : Option (List UInt8)
  wlProtocol : UInt32
  ssid : Option (List UInt8)
  key : Option (List UInt8)
  ipaddr : Option (List UInt8)
  netmask : Option (List UInt8)
  gateway : Option (List UInt8)
  dnsserv : Option (List UInt8)
  authmode : Option (List UInt8)
  encrymode : Option (List UInt8)
  channel : Option (List UInt8)
  dhcp : Option (List UInt8)
  webSsid : Option (List UInt8)
  webKey : Option (List UInt8)
  webIpaddr : Option (List UInt8)
  webNetmask : Option (List UInt8)
  deriving DecidableEq, Repr

def WifiForm.empty : WifiForm :=
  ⟨none, 0, none, none, none, none, none, none, none, none, none, none, none, none, none, none⟩

/-- A field of the access point or of the station goes to the `web` pointer
unless the mode seen so far is its own. -/
def WifiForm.take (f : WifiForm) (key : String) (value : List UInt8) : WifiForm :=
  let v := some value
  if key = "wifimode=" then { f with protocol := v, wlProtocol := atoi value }
  else if key = "encry=" then { f with encrymode := v }
  else if key = "authmode=" then { f with authmode := v }
  else if key = "apssid=" then (if f.wlProtocol = 2 then { f with ssid := v } else { f with webSsid := v })
  else if key = "apkey=" then (if f.wlProtocol = 2 then { f with key := v } else { f with webKey := v })
  else if key = "apipaddr=" then (if f.wlProtocol = 2 then { f with ipaddr := v } else { f with webIpaddr := v })
  else if key = "apnetmask=" then (if f.wlProtocol = 2 then { f with netmask := v } else { f with webNetmask := v })
  else if key = "channel=" then { f with channel := v }
  else if key = "stassid=" then (if f.wlProtocol = 0 then { f with ssid := v } else { f with webSsid := v })
  else if key = "stakey=" then (if f.wlProtocol = 0 then { f with key := v } else { f with webKey := v })
  else if key = "dhcp=" then { f with dhcp := v }
  else if key = "staipaddr=" then (if f.wlProtocol = 0 then { f with ipaddr := v } else { f with webIpaddr := v })
  else if key = "stanetmask=" then (if f.wlProtocol = 0 then { f with netmask := v } else { f with webNetmask := v })
  else if key = "gateway=" then { f with gateway := v }
  else if key = "dnsserv=" then { f with dnsserv := v }
  else f

def readWifi (fields : List (String × List UInt8)) : WifiForm := fields.foldl (fun f kv => f.take kv.1 kv.2) .empty

/-- `NST_MOVE_MEM(dst, s, strlen(s)); dst[strlen(s)] = 0`. -/
def copyText {n : Nat} (dst : Vector UInt8 n) (s : List UInt8) : Vector UInt8 n := putZero (moveMem dst s) s.length

/-- What is stored before the check: an address that does not convert is left alone. -/
def WifiForm.storeWeb (f : WifiForm) (u : UserCfgParam) : UserCfgParam :=
  { u with
    webIpCfg :=
      { u.webIpCfg with
        ip := ((f.webIpaddr.bind inetAton).map ip4Addr).getD u.webIpCfg.ip
        netmask := ((f.webNetmask.bind inetAton).map ip4Addr).getD u.webIpCfg.netmask }
    webSsid := copyText u.webSsid (strPtr f.webSsid)
    webKey := copyText u.webKey (strPtr f.webKey) }

def WifiForm.rejected (f : WifiForm) : Bool :=
  outside 0 2 f.wlProtocol || outside 0 3 (atoiPtr f.authmode) || outside 0 4 (atoiPtr f.encrymode) ||
    outside 0 13 (atoiPtr f.channel)

def wlSetIpconfig (ip : IpCfg) (ipaddr netmask gateway dnsserv : UInt32) : IpCfg :=
  { ip with ip := ip4Addr ipaddr, netmask := ip4Addr netmask, gateWay := ip4Addr gateway, dns := ip4Addr dnsserv }

/-- The key is ended by a zero only where the array has room for one. -/
def setPsk (psk : Vector UInt8 64) (key : List UInt8) : Vector UInt8 64 :=
  if key.length < 64 then putZero (moveMem psk key) key.length else moveMem psk key

/-- `SetWifiParam`, on the Wi-Fi part. -/
def WifiForm.storeWifi (f : WifiForm) (w : WifiCfg) : WifiCfg :=
  { w with
    protocol := f.wlProtocol.toUInt8
    ssid := copyText w.ssid (strPtr f.ssid)
    psk := setPsk w.psk (strPtr f.key)
    keyLength := UInt8.ofNat (counted (strPtr f.key)).length
    authMode := (atoiPtr f.authmode).toUInt8
    encry := (atoiPtr f.encrymode).toUInt8
    channel := if 0 < atoiPtr f.channel ∧ atoiPtr f.channel < 14 then (atoiPtr f.channel).toUInt8 else w.channel }

/-- What is stored after the check. In station mode the gateway and the name
server are also the form's own. -/
def WifiForm.store (f : WifiForm) (junk : UInt32) (u : UserCfgParam) : UserCfgParam :=
  let ip := wlSetIpconfig u.cfg.ipCfg (atonPtr junk f.ipaddr) (atonPtr junk f.netmask) (atonPtr junk f.gateway)
    (atonPtr junk f.dnsserv)
  { u with
    cfg :=
      { u.cfg with
        wifiCfg := f.storeWifi u.cfg.wifiCfg
        ipCfg := { ip with bDhcp := if f.wlProtocol = 0 then (atoiPtr f.dhcp).toUInt8 else u.cfg.ipCfg.bDhcp }
        bDhcpServer := if f.wlProtocol = 2 then 1 else u.cfg.bDhcpServer }
    webIpCfg :=
      { u.webIpCfg with
        gateWay := if f.wlProtocol = 0 then ip.gateWay else u.webIpCfg.gateWay
        dns := if f.wlProtocol = 0 then ip.dns else u.webIpCfg.dns } }

/-- What the statements before the check leave undefined. -/
def WifiForm.readFaults (f : WifiForm) : List Fault :=
  faultIf f.webIpaddr.isNone .nullRead ++ faultIf f.webNetmask.isNone .nullRead ++
    faultIf (32 ≤ (strPtr f.webSsid).length) (.storeOutside "web_ssid") ++
    faultIf (64 ≤ (strPtr f.webKey).length) (.storeOutside "web_key") ++ faultIf f.ipaddr.isNone .nullRead ++
    faultIf f.netmask.isNone .nullRead ++ faultIf f.gateway.isNone .nullRead ++ faultIf f.dnsserv.isNone .nullRead

def WifiForm.storeFaults (f : WifiForm) : List Fault :=
  faultIf (unset f.ipaddr) .uninitRead ++ faultIf (unset f.netmask) .uninitRead ++
    faultIf (unset f.gateway) .uninitRead ++ faultIf (unset f.dnsserv) .uninitRead ++
    faultIf (33 ≤ (strPtr f.ssid).length) (.storeOutside "Ssid") ++
    faultIf (64 < (strPtr f.key).length) (.storeOutside "PSK")

def httpSetupWifibase (env : Env) (g : Globals) (rx : List UInt8) (rxLen : Nat) : Globals :=
  match scan wifiKeys rx rxLen with
  | none => g.fault .overrun
  | some fields =>
    let f := readWifi fields
    let g := (g.addFaults f.readFaults).setUser (f.storeWeb g.userParam)
    if f.rejected then g else (g.addFaults f.storeFaults).setUser (f.store env.junk g.userParam)

/-! ## The other forms -/

def httpResetsys (env : Env) (g : Globals) : Globals :=
  let u := { g.userParam with atMode := g.wlWorkmode.toUInt8, isValid := userParamFlagValid }
  { g with userParam := u }.saveUserParam.boot env

def httpFactory (env : Env) (g : Globals) : Globals := { g with userParam := .zero }.saveUserParam.boot env

end SerialNet.Param
