import SerialNet.Lib.Html
import SerialNet.Param.Config

/-!
# The Wi-Fi page

The shipped page `wifibase 0x6C000.html` and the function of `http_builder.c`
that fills the current settings in, by one substitution after the other.
-/

namespace SerialNet.Param

/-! ## The template

The lines of the page, table row by table row. -/

/-- The head of the page, and the network mode. -/
def wifimodeRows : List String :=
  ["<html>", "<head>", "<title>WIFI BASE</title>",
   "<meta http-equiv=\"Content-Type\" content=\"text/html;charset=gb2312\">",
   "<link rel=\"stylesheet\" type=\"text/css\" href=\"public.css\">", "</head>", "<body>", "<div id=\"container\">",
   "<div id=\"head\">", "<h1>WIFI BASE</h1>", "<a href=\"login.html\">SIGN IN</a>",
   "|| <a href=\"status.html\">SYSTEM WIZARD</a>", "|| <a href=\"wifibase.html\">WIFI BASE</a>",
   "|| <a href=\"wifinet.html\">WIFI SERIALNET</a>", "</div>", "<div id=\"maincontent\">", "<div id=\"menu\">",
   "<fieldset><legend>WIFI Base Config</legend>", "<table align=\"center\">",
   "<form action=\"wifibase\" method=\"post\">", "<tr><td><h3>WiFi Mode Set\u00a3\u00ba</h3></td></tr>", "<tr>",
   "  <td>WiFi Mode</td>", "  <td>", "  <select name=\"wifimode\">", "  <option value=\"0\">STA</option>",
   "  <option value=\"2\">SoftAP</option>", "  </select>", "  </td>", "</tr>"]

def encryRow : List String :=
  ["<tr>", "  <td>Encry</td>", "  <td>", "  <select name=\"encry\">", "  <option value=\"0\">none</option>",
   "  <option value=\"1\">wep</option>", "  <option value=\"2\">tkip</option>", "  <option value=\"3\">ccmp</option>",
   "  <option value=\"4\">auto</option>", "  </select>", "  </td>", "</tr>"]

def authmodeRow : List String :=
  ["<tr>", "  <td>AuthMode</td>", "  <td>", "  <select name=\"authmode\">", "  <option value=\"0\">open</option>",
   "  <option value=\"1\">share</option>", "  <option value=\"2\">wpa1</option>", "  <option value=\"3\">wpa2</option>",
   "  </select>", "  </td>", "</tr>"]

def apssidRows : List String :=
  ["<tr><td><h3>SofpAP Set\u00a3\u00ba</h3></td></tr>", "<tr>", "  <td>SSID</td>",
   "  <td><input name=\"apssid\" value=\"\" size=\"30\" maxlength=\"100\"></td>", "</tr>"]

def apkeyRow : List String :=
  ["<tr>", "  <td>PASS</td>",
   "  <td><input name=\"apkey\" value=\"\" size=\"30\" maxlength=\"100\" type=\"password\"></td>", "</tr>"]

def apipaddrRow : List String :=
  ["<tr>", "  <td>Local IP</td>", "  <td><input name=\"apipaddr\" value=\"\" size=\"30\" maxlength=\"100\"></td>",
   "</tr>"]

def apnetmaskRow : List String :=
  ["<tr>", "  <td>Netmask</td>", "  <td><input name=\"apnetmask\" value=\"\" size=\"30\" maxlength=\"100\"></td>",
   "</tr>"]

def channelRow : List String :=
  ["<tr>", "  <td>Channel</td>", "  <td>", "  <select name=\"channel\">", "  <option value=\"1\">ch1</option>",
   "  <option value=\"2\">ch2</option>", "  <option value=\"3\">ch3</option>", "  <option value=\"4\">ch4</option>",
   "  <option value=\"5\">ch5</option>", "  <option value=\"6\">ch6</option>", "  <option value=\"7\">ch7</option>",
   "  <option value=\"8\">ch8</option>", "  <option value=\"9\">ch9</option>",
   "  <option value=\"10\">ch10</option>", "  <option value=\"11\">ch11</option>",
   "  <option value=\"12\">ch12</option>", "  <option value=\"13\">ch13</option>", "  </select>", "  </td>", "</tr>"]

def stassidRows : List String :=
  ["<tr><td><h3>SAT Set\u00a3\u00ba</h3></td></tr>", "<tr>", "  <td>SSID</td>",
   "  <td><input name=\"stassid\" value=\"\" size=\"30\" maxlength=\"100\"></td>", "</tr>"]

def stakeyRow : List String :=
  ["<tr>", "  <td>PASS</td>",
   "  <td><input name=\"stakey\" value=\"\" size=\"30\" maxlength=\"100\" type=\"password\"></td>", "</tr>"]

def dhcpRow : List String :=
  ["<tr>", "  <td>DHCP Client</td>", "  <td>", "  <select name=\"dhcp\">", "  <option value=\"0\">Disable</option>",
   "  <option value=\"1\">Enable</option>", "  </select>", "  </td>", "</tr>"]

def staipaddrRow : List String :=
  ["<tr>", "  <td>IP Address</td>", "  <td><input name=\"staipaddr\" value=\"\" size=\"30\" maxlength=\"100\"></td>",
   "</tr>"]

def stanetmaskRow : List String :=
  ["<tr>", "  <td>Netmask</td>", "  <td><input name=\"stanetmask\" value=\"\" size=\"30\" maxlength=\"100\"></td>",
   "</tr>"]

def gatewayRow : List String :=
  ["<tr>", "  <td>Gateway</td>", "  <td><input name=\"gateway\" value=\"\" size=\"30\" maxlength=\"100\"></td>",
   "</tr>"]

def dnsservRow : List String :=
  ["<tr>", "  <td>DNS Server</td>", "  <td><input name=\"dnsserv\" value=\"\" size=\"30\" maxlength=\"100\"></td>",
   "</tr>"]

def endRows : List String :=
  ["<tr align=\"center\">", "  <td colspan=\"2\"> <input name=\"save\" value=\"submit\" type=\"submit\"></td>",
   "</tr>", "</form>", "</table>", "</fieldset>", "</div>", "</div>", "</div>", "</body>", ""]

def wifibaseLines : List String :=
  wifimodeRows ++ (encryRow ++ (authmodeRow ++ (apssidRows ++ (apkeyRow ++ (apipaddrRow ++ (apnetmaskRow ++ (channelRow ++
    (stassidRows ++ (stakeyRow ++ (dhcpRow ++ (staipaddrRow ++ (stanetmaskRow ++ (gatewayRow ++ (dnsservRow ++
      endRows))))))))))))))

def html (lines : List String) : List UInt8 := lines.flatMap fun line => bytes line ++ [13, 10]

/-- The page as it lies in the buffer, before the ending zero. -/
def wifibaseHtml : List UInt8 := html wifibaseLines

/-! ## Texts -/

def dec (b : UInt8) : List UInt8 :=
  if b < 10 then [48 + b]
  else if b < 100 then [48 + b / 10, 48 + b % 10]
  else [48 + b / 100, 48 + b / 10 % 10, 48 + b % 10]

theorem dec_spec (d : UInt8) : (1 ≤ (dec d).length ∧ (dec d).length ≤ 3) ∧ (dec d).all Html.isPlain = true ∧
    (1 < d → ∀ o ∈ [[48, 34], [49, 34]], ¬o <+: dec d ++ [34]) := by
  revert d
  apply forall_byte
  decide +kernel

theorem dec_length (d : UInt8) : 1 ≤ (dec d).length ∧ (dec d).length ≤ 3 := (dec_spec d).1

theorem dec_plain (d : UInt8) : (dec d).all Html.isPlain = true := (dec_spec d).2.1

theorem atoi_dec (b : UInt8) : atoi (dec b) = b.toUInt32 := by
  revert b
  apply forall_byte
  decide +kernel

def inetNtoa (ip : Vector UInt8 4) : List UInt8 :=
  [46].intercalate (ip.toList.map dec)

theorem toList_four (ip : Vector UInt8 4) : ∃ a b c d, ip.toList = [a, b, c, d] := by
  obtain ⟨⟨l⟩, hl⟩ := ip
  match l, hl with
  | [a, b, c, d], _ => exact ⟨a, b, c, d, rfl⟩

theorem inetNtoa_toList {ip : Vector UInt8 4} {a b c d : UInt8} (h : ip.toList = [a, b, c, d]) :
    inetNtoa ip = dec a ++ 46 :: dec b ++ 46 :: dec c ++ 46 :: dec d := by
  simp [inetNtoa, h, List.intercalate]

/-- The string in an array, `none` when it runs on past the array. -/
def arrayStr {n : Nat} (v : Vector UInt8 n) : Option (List UInt8) := if 0 ∈ v.toList then some (text v) else none

/-- The string at `PSK`: a key of 64 characters is ended by `WscEn` if that is 0. -/
def pskStr (w : WifiCfg) : Option (List UInt8) :=
  if 0 ∈ w.psk.toList then some (text w.psk) else if w.wscEn = 0 then some w.psk.toList else none

/-! ## html_rebuild_wifibase -/

/-- `nustrstr`: what stands before the first match, and what follows it. -/
def nustrstr (str2 : List UInt8) : List UInt8 → Option (List UInt8 × List UInt8)
  | [] => none
  | c :: s =>
    if str2.isPrefixOf (c :: s) then some ([], (c :: s).drop str2.length)
    else (nustrstr str2 s).map fun r => (c :: r.1, r.2)

theorem nustrstr_split {str : List UInt8} : ∀ {t before after : List UInt8}, nustrstr str t = some (before, after) →
    t = before ++ str ++ after
  | [], _, _, h => by cases h
  | c :: t, before, after, h => by
    rw [nustrstr] at h
    by_cases hp : str.isPrefixOf (c :: t) = true
    · rw [if_pos hp] at h
      cases h
      obtain ⟨s, hs⟩ := List.isPrefixOf_iff_prefix.mp hp
      rw [← hs, List.drop_left]
      rfl
    · rw [if_neg hp] at h
      obtain ⟨⟨b, a⟩, hr, he⟩ := Option.map_eq_some_iff.mp h
      cases he
      rw [nustrstr_split hr]
      rfl

/-- A match in a piece is the match in the whole. -/
theorem nustrstr_append {str : List UInt8} : ∀ {t before after : List UInt8} (u : List UInt8),
    nustrstr str t = some (before, after) → nustrstr str (t ++ u) = some (before, after ++ u)
  | [], _, _, _, h => by cases h
  | c :: t, before, after, u, h => by
    have hlen : str.length ≤ (c :: t).length := by
      rw [nustrstr_split h]
      simp only [List.length_append]
      omega
    have hpre : str.isPrefixOf (c :: t ++ u) = str.isPrefixOf (c :: t) := by
      rw [Bool.eq_iff_iff, List.isPrefixOf_iff_prefix, List.isPrefixOf_iff_prefix]
      exact ⟨fun hp => List.prefix_of_prefix_length_le hp (List.prefix_append _ _) hlen,
        fun hp => hp.trans (List.prefix_append _ _)⟩
    rw [List.cons_append, nustrstr, ← List.cons_append, hpre]
    rw [nustrstr] at h
    by_cases hp : str.isPrefixOf (c :: t) = true
    · rw [if_pos hp] at h ⊢
      cases h
      rw [List.drop_append_of_le_length hlen]
    · rw [if_neg hp] at h ⊢
      obtain ⟨⟨b, a⟩, hr, he⟩ := Option.map_eq_some_iff.mp h
      cases he
      rw [nustrstr_append u hr]
      rfl

/-- What is written at `dest`, the rest of the template, and `datalen`. -/
structure Build where
  dst : List UInt8
  mainstr : List UInt8
  datalen : UInt32
  deriving DecidableEq, Repr

/-- Copy up to the first match of `str`, then `str` and `value`. -/
def Build.insert (b : Build) (str value : List UInt8) : Build :=
  match nustrstr str b.mainstr with
  | none => b
  | some (before, after) =>
    { dst := b.dst ++ (before ++ str ++ value)
      mainstr := after
      datalen := b.datalen - UInt32.ofNat before.length - UInt32.ofNat (str.length + value.length) }

def selectOption (n : UInt8) : List UInt8 := bytes "option value=\"" ++ dec n ++ bytes "\""

def selectCheckDefault : List UInt8 := bytes " selected=\"true\""

theorem selectCheckDefault_length : (32 :: selectCheckDefault).length ≤ 17 := by decide

def Build.check (b : Build) (n : UInt8) : Build := b.insert (selectOption n) (32 :: selectCheckDefault)

def inputValue (name : String) : List UInt8 := bytes "name=\"" ++ bytes name ++ bytes "\" value=\""

def Build.fill (b : Build) (name : String) (value : List UInt8) : Build := b.insert (inputValue name) value

/-- The rest of the template, and `datalen` after it: a `datalen` of 0 ends the
copy behind the next character. -/
def copyRest : UInt32 → List UInt8 → List UInt8 × UInt32
  | datalen, [] => ([], datalen)
  | datalen, c :: s =>
    if datalen = 0 then ([c], datalen - 1)
    else let (dst, datalen) := copyRest (datalen - 1) s; (c :: dst, datalen)

/-- There is room for the rest of the template. -/
theorem copyRest_all : ∀ {s : List UInt8} {datalen : UInt32}, s.length ≤ datalen.toNat →
    copyRest datalen s = (s, datalen - UInt32.ofNat s.length)
  | [], datalen, _ => by simp [copyRest]
  | c :: s, datalen, h => by
    have hlt : s.length + 1 ≤ datalen.toNat := h
    have hne : datalen ≠ 0 := by
      rintro rfl
      cases hlt
    have hpred : (datalen - 1).toNat = datalen.toNat - 1 := by
      rw [UInt32.toNat_sub_of_le _ _ (by rw [UInt32.le_iff_toNat_le]; exact Nat.le_trans (Nat.le_add_left 1 _) hlt)]
      rfl
    have hsub : datalen - 1 - UInt32.ofNat s.length = datalen - (UInt32.ofNat s.length + 1) := by grind
    rw [copyRest, if_neg hne, copyRest_all (by omega), List.length_cons, UInt32.ofNat_add]
    exact congrArg (Prod.mk (c :: s)) hsub

/-- What `pt` points to, by the mode; it is never set for another mode. -/
def byMode {α : Type} (protocol : UInt8) (sta softap : Option α) : Option α :=
  if protocol = 0 then sta else if protocol = 2 then softap else none

/-- The bytes at `dest` and the value returned; `none` when a string is read
that has no end, or through the null pointer. -/
def htmlRebuildWifibase (u : UserCfgParam) (src : List UInt8) (len : UInt32) : Option (List UInt8 × UInt32) := do
  let w := u.cfg.wifiCfg
  let ip := u.cfg.ipCfg
  let web := u.webIpCfg
  let b := (((Build.mk [] src len).check w.protocol).check w.encry).check w.authMode
  let b := b.fill "apssid" (← byMode w.protocol (arrayStr u.webSsid) (arrayStr w.ssid))
  let b := b.fill "apkey" (← byMode w.protocol (arrayStr u.webKey) (pskStr w))
  let b := b.fill "apipaddr" (← byMode w.protocol (some (inetNtoa web.ip)) (some (inetNtoa ip.ip)))
  let b := b.fill "apnetmask" (← byMode w.protocol (some (inetNtoa web.netmask)) (some (inetNtoa ip.netmask)))
  let b := b.check w.channel
  let b := b.fill "stassid" (← byMode w.protocol (arrayStr w.ssid) (arrayStr u.webSsid))
  let b := b.fill "stakey" (← byMode w.protocol (pskStr w) (arrayStr u.webKey))
  let b := b.check ip.bDhcp
  let b := b.fill "staipaddr" (← byMode w.protocol (some (inetNtoa ip.ip)) (some (inetNtoa web.ip)))
  let b := b.fill "stanetmask" (← byMode w.protocol (some (inetNtoa ip.netmask)) (some (inetNtoa web.netmask)))
  let b := (b.fill "gateway" (inetNtoa web.gateWay)).fill "dnsserv" (inetNtoa web.dns)
  let (rest, datalen) := copyRest b.datalen b.mainstr
  return (b.dst ++ rest, len - datalen)

end SerialNet.Param
