import SerialNet.Param.PageBuilder
import SerialNet.Param.PageSave

/-!
# Saving the Wi-Fi page unchanged

The page goes out and comes back with every value as it stands. What is stored
then is what was there, under the conditions of `Redisplays` and no others.
-/

namespace SerialNet.Param

open Html Patch

/-! ## Strings in arrays -/

section
variable {n : Nat} {v : Vector UInt8 n}

theorem text_length_le (v : Vector UInt8 n) : (text v).length ≤ n := by
  have := (List.takeWhile_sublist (· != 0) (l := v.toList)).length_le
  rwa [Vector.length_toList] at this

theorem text_getElem {i : Nat} (h : i < (text v).length) : (text v)[i] = v.get ⟨i, Nat.lt_of_lt_of_le h (text_length_le v)⟩ :=
  ((List.takeWhile_prefix (· != 0)).getElem h).trans (Vector.getElem_toList _)

theorem takeWhile_zero : ∀ (l : List UInt8), (∃ r, l = l.takeWhile (· != 0) ++ 0 :: r) ∨ (0 ∉ l ∧ l.takeWhile (· != 0) = l)
  | [] => .inr ⟨List.not_mem_nil, rfl⟩
  | c :: l => by
    by_cases hc : c = 0
    · subst hc
      exact .inl ⟨l, rfl⟩
    · rw [List.takeWhile_cons_of_pos (by simpa using hc)]
      rcases takeWhile_zero l with ⟨r, hr⟩ | ⟨h0, hl⟩
      · exact .inl ⟨r, congrArg (c :: ·) hr⟩
      · exact .inr ⟨fun h => (List.mem_cons.mp h).elim (fun h => hc h.symm) h0, congrArg (c :: ·) hl⟩

/-- Either a zero ends the string inside the array, or the array is all string. -/
theorem text_cases (v : Vector UInt8 n) :
    (0 ∈ v.toList ∧ ∃ h : (text v).length < n, v[(text v).length] = 0) ∨
      (0 ∉ v.toList ∧ text v = v.toList ∧ (text v).length = n) := by
  rcases takeWhile_zero v.toList with ⟨r, hr⟩ | ⟨h0, hl⟩
  · have hlen : (text v).length < n := by
      have := congrArg List.length hr
      rw [Vector.length_toList, List.length_append, List.length_cons] at this
      rw [text]
      omega
    refine .inl ⟨by rw [hr]; exact List.mem_append_right _ List.mem_cons_self, hlen, ?_⟩
    have hget : v.toList[(text v).length]? = some 0 := by
      rw [hr, text, List.getElem?_append_right (Nat.le_refl _), Nat.sub_self]
      rfl
    rwa [Vector.getElem?_toList, Vector.getElem?_eq_getElem hlen, Option.some.injEq] at hget
  · exact .inr ⟨h0, hl, by rw [text, hl, Vector.length_toList]⟩

theorem zero_mem_iff : 0 ∈ v.toList ↔ (text v).length < n := by
  rcases text_cases v with ⟨h0, hlt, -⟩ | ⟨h0, -, heq⟩
  · exact iff_of_true h0 hlt
  · exact iff_of_false h0 (Nat.not_lt.mpr (Nat.le_of_eq heq.symm))

theorem text_end (h : (text v).length < n) : v[(text v).length] = 0 := by
  rcases text_cases v with ⟨-, _, h0⟩ | ⟨-, -, heq⟩
  · exact h0
  · exact absurd h (Nat.not_lt.mpr (Nat.le_of_eq heq.symm))

theorem moveMem_text : moveMem v (text v) = v := by
  apply Vector.ext
  intro i hi
  rw [moveMem, Vector.getElem_ofFn]
  by_cases h : i < (text v).length
  · rw [List.getElem?_eq_getElem h, Option.getD_some, text_getElem h]
    rfl
  · rw [List.getElem?_eq_none (Nat.not_lt.mp h)]
    rfl

/-- A string copied over itself leaves the array. -/
theorem copyText_text (h : (text v).length < n) : copyText v (text v) = v := by
  rw [copyText, moveMem_text]
  apply Vector.ext
  intro i hi
  rw [putZero, Vector.getElem_setIfInBounds]
  split
  · rename_i he
    subst he
    exact (text_end h).symm
  · rfl

end

theorem setPsk_text (psk : Vector UInt8 64) : setPsk psk (text psk) = psk := by
  unfold setPsk
  split
  · rename_i h
    exact copyText_text h
  · exact moveMem_text

/-! ## The settings -/

/-- What the form offers, with names and keys of letters and digits. -/
structure Enterable (u : UserCfgParam) : Prop where
  offered : u.cfg.wifiCfg.Offered
  ssid : 1 ≤ (text u.cfg.wifiCfg.ssid).length ∧ (text u.cfg.wifiCfg.ssid).length ≤ 32
  ssidAlnum : (text u.cfg.wifiCfg.ssid).all isAlnum = true
  psk : (text u.cfg.wifiCfg.psk).all isAlnum = true
  webSsid : 1 ≤ (text u.webSsid).length
  webSsidAlnum : (text u.webSsid).all isAlnum = true
  webKey : (text u.webKey).all isAlnum = true

/-- Every string ends in its array, a full `PSK` in a `WscEn` of 0. -/
structure Ended (u : UserCfgParam) : Prop where
  webSsid : (text u.webSsid).length < 32
  webKey : (text u.webKey).length < 64
  psk : (text u.cfg.wifiCfg.psk).length < 64 ∨ u.cfg.wifiCfg.wscEn = 0

def Slots.of (u : UserCfgParam) : Slots :=
  let w := u.cfg.wifiCfg
  let ip := u.cfg.ipCfg
  let web := u.webIpCfg
  let sta := w.protocol = 0
  { apssid := if sta then text u.webSsid else text w.ssid
    apkey := if sta then text u.webKey else text w.psk
    apipaddr := if sta then inetNtoa web.ip else inetNtoa ip.ip
    apnetmask := if sta then inetNtoa web.netmask else inetNtoa ip.netmask
    stassid := if sta then text w.ssid else text u.webSsid
    stakey := if sta then text w.psk else text u.webKey
    staipaddr := if sta then inetNtoa ip.ip else inetNtoa web.ip
    stanetmask := if sta then inetNtoa ip.netmask else inetNtoa web.netmask
    gateway := inetNtoa web.gateWay
    dnsserv := inetNtoa web.dns }

theorem arrayStr_some {n : Nat} {v : Vector UInt8 n} (h : (text v).length < n) : arrayStr v = some (text v) :=
  if_pos (zero_mem_iff.mpr h)

theorem arrayStr_none {n : Nat} {v : Vector UInt8 n} (h : ¬(text v).length < n) : arrayStr v = none :=
  if_neg fun h0 => h (zero_mem_iff.mp h0)

theorem pskStr_some {w : WifiCfg} (h : (text w.psk).length < 64 ∨ w.wscEn = 0) : pskStr w = some (text w.psk) := by
  unfold pskStr
  by_cases h0 : 0 ∈ w.psk.toList
  · rw [if_pos h0]
  · have hw : w.wscEn = 0 := h.resolve_left fun hlt => h0 (zero_mem_iff.mpr hlt)
    rw [if_neg h0, if_pos hw]
    rcases text_cases w.psk with ⟨h, -⟩ | ⟨-, ht, -⟩
    · exact absurd h h0
    · rw [ht]

theorem pskStr_none {w : WifiCfg} (h : ¬((text w.psk).length < 64 ∨ w.wscEn = 0)) : pskStr w = none := by
  rw [not_or] at h
  unfold pskStr
  rw [if_neg fun h0 => h.1 (zero_mem_iff.mp h0), if_neg h.2]

section
variable {u : UserCfgParam} (hu : Enterable u)
include hu

theorem slots_of (he : Ended u) : slots u = some (Slots.of u) := by
  have hssid : arrayStr u.cfg.wifiCfg.ssid = some (text u.cfg.wifiCfg.ssid) := arrayStr_some (Nat.lt_succ_of_le hu.ssid.2)
  unfold slots Slots.of
  dsimp only
  rw [arrayStr_some he.webSsid, arrayStr_some he.webKey, pskStr_some he.psk, hssid]
  rcases hu.offered.protocol with hp | hp
  · rw [hp]
    rfl
  · rw [hp]
    rfl

theorem ended_of_slots {s : Slots} (h : slots u = some s) : Ended u := by
  have hssid : arrayStr u.cfg.wifiCfg.ssid = some (text u.cfg.wifiCfg.ssid) := arrayStr_some (Nat.lt_succ_of_le hu.ssid.2)
  unfold slots at h
  dsimp only at h
  rw [hssid] at h
  refine ⟨?_, ?_, ?_⟩
  · by_contra hn
    rw [arrayStr_none hn] at h
    rcases hu.offered.protocol with hp | hp <;> simp [byMode, hp] at h
  · by_contra hn
    rw [arrayStr_none hn] at h
    rcases hu.offered.protocol with hp | hp <;> simp [byMode, hp] at h
  · by_contra hn
    rw [pskStr_none hn] at h
    rcases hu.offered.protocol with hp | hp <;> simp [byMode, hp] at h

theorem slots_plain : (Slots.of u).Plain := by
  have halnum : ∀ {v : List UInt8}, v.all isAlnum = true → v.all isPlain = true := by
    intro v h
    rw [List.all_eq_true] at h ⊢
    intro c hc
    simp [isPlain, h c hc]
  have hip : ∀ ip : Vector UInt8 4, (inetNtoa ip).all isPlain = true ∧ (inetNtoa ip).length ≤ 64 := by
    intro ip
    have h46 : isPlain 46 = true := by decide
    obtain ⟨a, b, c, d, hbytes⟩ := toList_four ip
    have ha := (dec_length a).2
    have hb := (dec_length b).2
    have hc := (dec_length c).2
    have hd := (dec_length d).2
    rw [inetNtoa_toList hbytes]
    constructor
    · simp only [List.all_append, List.all_cons, dec_plain, h46, Bool.and_self]
    · simp only [List.length_append, List.length_cons]
      omega
  have hssid : _ ∧ (text u.cfg.wifiCfg.ssid).length ≤ 64 := ⟨halnum hu.ssidAlnum, Nat.le_trans hu.ssid.2 (by decide)⟩
  have hpsk : _ ∧ (text u.cfg.wifiCfg.psk).length ≤ 64 := ⟨halnum hu.psk, text_length_le _⟩
  have hweb : _ ∧ (text u.webSsid).length ≤ 64 := ⟨halnum hu.webSsidAlnum, Nat.le_trans (text_length_le _) (by decide)⟩
  have hkey : _ ∧ (text u.webKey).length ≤ 64 := ⟨halnum hu.webKey, text_length_le _⟩
  have hall : ∀ v ∈ (Slots.of u).values, v.all isPlain = true ∧ v.length ≤ 64 := by
    unfold Slots.of Slots.values
    dsimp only
    rcases hu.offered.protocol with hp | hp
    · simp only [hp, if_true, List.forall_mem_cons]
      exact ⟨hweb, hkey, hip _, hip _, hssid, hpsk, hip _, hip _, hip _, hip _, fun _ h => absurd h List.not_mem_nil⟩
    · simp only [hp, show ((2 : UInt8) = 0) = False by decide, if_false, List.forall_mem_cons]
      exact ⟨hssid, hpsk, hip _, hip _, hweb, hkey, hip _, hip _, hip _, hip _, fun _ h => absurd h List.not_mem_nil⟩
  exact ⟨fun v hv => (hall v hv).1, fun v hv => (hall v hv).2⟩

end

/-! ## What is stored -/

theorem inside_byte {n : UInt8} {b : UInt8} (h : b ≤ n) : outside 0 n.toNat b.toUInt32 = false := by
  have hlt := b.toNat_lt
  have hint : toInt b.toUInt32 = b.toNat := by
    rw [toInt, if_pos (by rw [UInt32.lt_iff_toNat_lt, UInt8.toNat_toUInt32]; exact Nat.lt_trans hlt (by decide)),
      UInt8.toNat_toUInt32]
  have hle : b.toNat ≤ n.toNat := h
  simp [outside, hint, hle]

theorem shown_inside {w : WifiCfg} (hw : w.Offered) :
    ((shown w.protocol w.encry w.authMode).1 = 0 ∨ (shown w.protocol w.encry w.authMode).1 = 2) ∧
      (shown w.protocol w.encry w.authMode).2.1 ≤ 4 ∧ (shown w.protocol w.encry w.authMode).2.2 ≤ 3 := by
  have ha : w.authMode ≤ 4 := UInt8.le_trans hw.authMode (by decide)
  have h0 : (0 : UInt8) ≤ 3 := by decide
  unfold shown
  split
  · exact ⟨.inr rfl, ha, h0⟩
  · split
    · exact ⟨hw.protocol, ha, h0⟩
    · exact ⟨hw.protocol, hw.encry, hw.authMode⟩

theorem pageForm_passes {w : WifiCfg} (hw : w.Offered) (bDhcp : UInt8) (s : Slots) :
    (pageForm (shown w.protocol w.encry w.authMode) w.channel bDhcp s).rejected = false := by
  obtain ⟨hp, he, ha⟩ := shown_inside hw
  have hp2 : (shown w.protocol w.encry w.authMode).1 ≤ 2 := by
    rcases hp with hp | hp
    · rw [hp]; decide
    · rw [hp]; decide
  unfold WifiForm.rejected pageForm
  simp only [atoiPtr, Option.map_some, Option.getD_some, atoi_dec]
  rw [show outside 0 2 _ = false from inside_byte hp2, show outside 0 3 _ = false from inside_byte ha,
    show outside 0 4 _ = false from inside_byte he, show outside 0 13 _ = false from inside_byte hw.channel.2]
  rfl

/-! ## Sending the page back -/

def pageBody (page : List UInt8 × UInt32) : List UInt8 := formBody (formFields (page.1.take page.2.toNat))

/-- The page goes out, and its form comes back unchanged. -/
def resave (env : Env) (g : Globals) (rest : List UInt8) : Option Globals :=
  (htmlRebuildWifibase g.userParam wifibaseHtml 4096).map fun page =>
    httpSetupWifibase env g (pageBody page ++ rest) (pageBody page).length

/-- The page built over the memory `m`; what goes out is read back there. -/
def resaveBuffer (env : Env) (m : Nat → UInt8) (g : Globals) (rest : List UInt8) : Option Globals :=
  (rebuildWifibase g.userParam m wifibaseHtml 4096).map fun r =>
    let page := (read r.1.mem 0 r.2.toNat, r.2)
    httpSetupWifibase env g (pageBody page ++ rest) (pageBody page).length

structure Unchanged (u u' : UserCfgParam) : Prop where
  protocol : u'.cfg.wifiCfg.protocol = u.cfg.wifiCfg.protocol
  ssid : u'.cfg.wifiCfg.ssid = u.cfg.wifiCfg.ssid
  psk : u'.cfg.wifiCfg.psk = u.cfg.wifiCfg.psk
  webSsid : u'.webSsid = u.webSsid
  webKey : u'.webKey = u.webKey
  ip : u'.cfg.ipCfg.ip = u.cfg.ipCfg.ip
  netmask : u'.cfg.ipCfg.netmask = u.cfg.ipCfg.netmask
  webIp : u'.webIpCfg.ip = u.webIpCfg.ip
  webNetmask : u'.webIpCfg.netmask = u.webIpCfg.netmask
  gateWay : u'.cfg.ipCfg.gateWay = u.cfg.ipCfg.gateWay
  dns : u'.cfg.ipCfg.dns = u.cfg.ipCfg.dns
  webGateWay : u'.webIpCfg.gateWay = u.webIpCfg.gateWay
  webDns : u'.webIpCfg.dns = u.webIpCfg.dns
  encry : u'.cfg.wifiCfg.encry = u.cfg.wifiCfg.encry
  authMode : u'.cfg.wifiCfg.authMode = u.cfg.wifiCfg.authMode
  channel : u'.cfg.wifiCfg.channel = u.cfg.wifiCfg.channel
  bDhcp : u'.cfg.ipCfg.bDhcp = u.cfg.ipCfg.bDhcp

/-- Saving the page unchanged is defined and changes nothing. -/
def Resaves (env : Env) (g : Globals) (rest : List UInt8) : Prop :=
  ∃ g', resave env g rest = some g' ∧ g'.faults = g.faults ∧ Unchanged g.userParam g'.userParam

/-- The page shows the settings that are stored from it. -/
structure Redisplays (u : UserCfgParam) : Prop where
  ended : Ended u
  encry : ¬(u.cfg.wifiCfg.protocol = 0 ∧ u.cfg.wifiCfg.encry = 2)
  authMode : u.cfg.wifiCfg.authMode ≤ u.cfg.wifiCfg.encry
  gateWay : u.cfg.ipCfg.gateWay = u.webIpCfg.gateWay
  dns : u.cfg.ipCfg.dns = u.webIpCfg.dns
  bDhcp : u.cfg.wifiCfg.protocol = 0 → u.cfg.ipCfg.bDhcp ≤ 1

theorem shown_iff {p e a : UInt8} : shown p e a = (p, e, a) ↔ ¬(p = 0 ∧ e = 2) ∧ a ≤ e := by
  unfold shown
  split
  · rename_i h
    refine iff_of_false (fun hs => ?_) fun hs => hs.1 h
    have hp : (2 : UInt8) = p := congrArg Prod.fst hs
    exact absurd (hp.trans h.1) (by decide)
  · rename_i h
    split
    · rename_i hlt
      refine iff_of_false (fun hs => ?_) fun hs => absurd hlt (UInt8.not_lt.mpr hs.2)
      have ha : a = e := congrArg (fun m => m.2.1) hs
      exact absurd (ha ▸ hlt) (UInt8.lt_irrefl _)
    · rename_i hle
      exact iff_of_true rfl ⟨h, UInt8.not_lt.mp hle⟩

theorem ip4Addr_aton (junk : UInt32) (ip : Vector UInt8 4) : ip4Addr (atonPtr junk (some (inetNtoa ip))) = ip := by
  obtain ⟨a, ha, hip⟩ := Option.map_eq_some_iff.mp (inetAton_ntoa ip)
  rw [atonPtr, Option.bind_some, ha]
  exact hip

section
variable {g : Globals} (hu : Enterable g.userParam)
include hu

theorem resave_page (he : Ended g.userParam) (env : Env) (rest : List UInt8) :
    let w := g.userParam.cfg.wifiCfg
    let f := pageForm (shown w.protocol w.encry w.authMode) w.channel (shownDhcp g.userParam.cfg.ipCfg.bDhcp)
      (Slots.of g.userParam)
    resave env g rest = some ((g.addFaults (f.readFaults ++ f.storeFaults)).setUser
      (f.store env.junk (f.storeWeb g.userParam))) := by
  obtain ⟨page, hpage, hlen, hfields⟩ := page_read hu.offered (slots_of hu he) (slots_plain hu)
  have hbody : pageBody (page, UInt32.ofNat page.length) =
      formBody (pageFields g.userParam.cfg.wifiCfg g.userParam.cfg.ipCfg.bDhcp (Slots.of g.userParam) ++
        [(bytes "save", bytes "submit")]) := by
    have hret : (UInt32.ofNat page.length).toNat = page.length :=
      UInt32.toNat_ofNat_of_lt' (Nat.lt_of_le_of_lt hlen (by decide))
    rw [pageBody, hret, List.take_length, hfields]
  have hscan := @scan_page g.userParam.cfg.wifiCfg g.userParam.cfg.ipCfg.bDhcp _ (slots_plain hu) rest
  dsimp only at hscan ⊢
  rw [resave, hpage, Option.map_some, hbody]
  unfold httpSetupWifibase
  rw [hscan]
  dsimp only
  rw [readWifi_page (shown_inside hu.offered).1, if_neg (by rw [pageForm_passes hu.offered]; decide)]
  simp [Globals.addFaults, Globals.setUser]

theorem ended_of_resave {env : Env} {rest : List UInt8} {g' : Globals} (h : resave env g rest = some g') :
    Ended g.userParam := by
  obtain ⟨page, hpage, -⟩ := Option.map_eq_some_iff.mp h
  rw [rebuild_slots] at hpage
  obtain ⟨s, hs, -⟩ := Option.map_eq_some_iff.mp hpage
  exact ended_of_slots hu hs

/-- The buffer holds the page that comes back, whatever was there before. -/
theorem resave_buffer {env : Env} {rest : List UInt8} {g' : Globals} (m : Nat → UInt8)
    (h : resave env g rest = some g') : resaveBuffer env m g rest = some g' := by
  have he := ended_of_resave hu h
  obtain ⟨page, hpage, hlen, -⟩ := page_read hu.offered (slots_of hu he) (slots_plain hu)
  obtain ⟨w, hw, hmem, -⟩ := rebuildWifibase_text m hpage
  have hret : (UInt32.ofNat page.length).toNat = page.length :=
    UInt32.toNat_ofNat_of_lt' (Nat.lt_of_le_of_lt hlen (by decide))
  rw [resave, hpage] at h
  rw [resaveBuffer, hw, Option.map_some, hret, hmem.read]
  exact h

end

def ownForm (u : UserCfgParam) (dhcp : UInt8) : WifiForm where
  protocol := some (dec u.cfg.wifiCfg.protocol)
  wlProtocol := u.cfg.wifiCfg.protocol.toUInt32
  ssid := some (text u.cfg.wifiCfg.ssid)
  key := some (text u.cfg.wifiCfg.psk)
  ipaddr := some (inetNtoa u.cfg.ipCfg.ip)
  netmask := some (inetNtoa u.cfg.ipCfg.netmask)
  gateway := some (inetNtoa u.webIpCfg.gateWay)
  dnsserv := some (inetNtoa u.webIpCfg.dns)
  authmode := some (dec u.cfg.wifiCfg.authMode)
  encrymode := some (dec u.cfg.wifiCfg.encry)
  channel := some (dec u.cfg.wifiCfg.channel)
  dhcp := some (dec dhcp)
  webSsid := some (text u.webSsid)
  webKey := some (text u.webKey)
  webIpaddr := some (inetNtoa u.webIpCfg.ip)
  webNetmask := some (inetNtoa u.webIpCfg.netmask)

section
variable {u : UserCfgParam} {dhcp : UInt8}

theorem pageForm_own (hp : u.cfg.wifiCfg.protocol = 0 ∨ u.cfg.wifiCfg.protocol = 2) :
    pageForm (u.cfg.wifiCfg.protocol, u.cfg.wifiCfg.encry, u.cfg.wifiCfg.authMode) u.cfg.wifiCfg.channel dhcp (Slots.of u) =
      ownForm u dhcp := by
  rcases hp with hp | hp <;> simp [pageForm, ownForm, Slots.of, hp]

theorem aton_ntoa_isSome (ip : Vector UInt8 4) : ((some (inetNtoa ip)).bind inetAton).isSome = true := by
  rw [Option.bind_some, ← Option.isSome_map, inetAton_ntoa]
  rfl

theorem ownForm_faults (hu : Enterable u) (he : Ended u) : (ownForm u dhcp).readFaults ++ (ownForm u dhcp).storeFaults = [] := by
  have hr : (ownForm u dhcp).Readable := ⟨rfl, rfl, he.webSsid, he.webKey, rfl, rfl, rfl, rfl⟩
  have hf : (ownForm u dhcp).Fits := ⟨aton_ntoa_isSome _, aton_ntoa_isSome _, aton_ntoa_isSome _, aton_ntoa_isSome _,
    Nat.lt_succ_of_le hu.ssid.2, text_length_le _⟩
  rw [WifiForm.readFaults_iff.mpr hr, (WifiForm.storeFaults_iff hr).mpr hf]
  rfl

theorem ownForm_stores (junk : UInt32) (hu : Enterable u) (hr : Redisplays u) :
    Unchanged u ((ownForm u (shownDhcp u.cfg.ipCfg.bDhcp)).store junk ((ownForm u (shownDhcp u.cfg.ipCfg.bDhcp)).storeWeb u)) where
  protocol := UInt8.toUInt8_toUInt32 _
  ssid := copyText_text (Nat.lt_succ_of_le hu.ssid.2)
  psk := setPsk_text _
  webSsid := copyText_text hr.ended.webSsid
  webKey := copyText_text hr.ended.webKey
  ip := ip4Addr_aton junk _
  netmask := ip4Addr_aton junk _
  webIp := by
    show (((some (inetNtoa u.webIpCfg.ip)).bind inetAton).map ip4Addr).getD _ = _
    rw [Option.bind_some, inetAton_ntoa]
    rfl
  webNetmask := by
    show (((some (inetNtoa u.webIpCfg.netmask)).bind inetAton).map ip4Addr).getD _ = _
    rw [Option.bind_some, inetAton_ntoa]
    rfl
  gateWay := (ip4Addr_aton junk _).trans hr.gateWay.symm
  dns := (ip4Addr_aton junk _).trans hr.dns.symm
  webGateWay := by
    show (if _ then ip4Addr (atonPtr junk (some (inetNtoa u.webIpCfg.gateWay))) else u.webIpCfg.gateWay) = _
    rw [ip4Addr_aton, ite_self]
  webDns := by
    show (if _ then ip4Addr (atonPtr junk (some (inetNtoa u.webIpCfg.dns))) else u.webIpCfg.dns) = _
    rw [ip4Addr_aton, ite_self]
  encry := by
    show (atoi (dec _)).toUInt8 = _
    rw [atoi_dec, UInt8.toUInt8_toUInt32]
  authMode := by
    show (atoi (dec _)).toUInt8 = _
    rw [atoi_dec, UInt8.toUInt8_toUInt32]
  channel := by
    show (if _ then (atoi (dec u.cfg.wifiCfg.channel)).toUInt8 else u.cfg.wifiCfg.channel) = _
    rw [atoi_dec, UInt8.toUInt8_toUInt32, ite_self]
  bDhcp := by
    show (if u.cfg.wifiCfg.protocol.toUInt32 = 0 then (atoi (dec _)).toUInt8 else u.cfg.ipCfg.bDhcp) = _
    rw [atoi_dec, UInt8.toUInt8_toUInt32]
    split
    · rename_i h
      exact if_neg (UInt8.not_lt.mpr (hr.bDhcp (UInt8.toUInt32_inj.mp h)))
    · rfl

end

section
variable {env : Env} {g : Globals} {rest : List UInt8} (hu : Enterable g.userParam)
include hu

theorem redisplays_of_resaves (h : Resaves env g rest) : Redisplays g.userParam := by
  obtain ⟨g', hg, -, hsame⟩ := h
  have he := ended_of_resave hu hg
  have hpage := resave_page hu he env rest
  dsimp only at hpage
  rw [hg, Option.some.injEq] at hpage
  subst hpage
  have hm : shown g.userParam.cfg.wifiCfg.protocol g.userParam.cfg.wifiCfg.encry g.userParam.cfg.wifiCfg.authMode =
      (g.userParam.cfg.wifiCfg.protocol, g.userParam.cfg.wifiCfg.encry, g.userParam.cfg.wifiCfg.authMode) := by
    have hp := (UInt8.toUInt8_toUInt32 _).symm.trans hsame.protocol
    have hen : (atoi (dec _)).toUInt8 = _ := hsame.encry
    have hau : (atoi (dec _)).toUInt8 = _ := hsame.authMode
    rw [atoi_dec, UInt8.toUInt8_toUInt32] at hen hau
    exact Prod.ext hp (Prod.ext hen hau)
  have hgw := (ip4Addr_aton env.junk _).symm.trans hsame.gateWay
  have hdns := (ip4Addr_aton env.junk _).symm.trans hsame.dns
  refine ⟨he, (shown_iff.mp hm).1, (shown_iff.mp hm).2, hgw.symm, hdns.symm, fun hp0 => ?_⟩
  have hd := hsame.bDhcp
  rw [hm] at hd
  change (if g.userParam.cfg.wifiCfg.protocol.toUInt32 = 0 then (atoi (dec (shownDhcp g.userParam.cfg.ipCfg.bDhcp))).toUInt8
    else g.userParam.cfg.ipCfg.bDhcp) = _ at hd
  rw [hp0, if_pos (show UInt8.toUInt32 0 = 0 from rfl), atoi_dec, UInt8.toUInt8_toUInt32, shownDhcp] at hd
  split at hd
  · rw [← hd]
    decide
  · rename_i hle
    exact UInt8.not_lt.mp hle

theorem resaves_of_redisplays (hr : Redisplays g.userParam) : Resaves env g rest := by
  have hm := shown_iff.mpr ⟨hr.encry, hr.authMode⟩
  have hpage := resave_page hu hr.ended env rest
  dsimp only at hpage
  rw [hm, pageForm_own hu.offered.protocol] at hpage
  refine ⟨_, hpage, ?_, ownForm_stores env.junk hu hr⟩
  rw [setUser_faults, addFaults_iff]
  exact ownForm_faults hu hr.ended

end

/-- **The Wi-Fi page.** Saving it unchanged changes nothing exactly when the
page shows every setting as it is stored; and the page saved is the one in the buffer. -/
theorem wifibase_resave (env : Env) (g : Globals) (rest : List UInt8) (hu : Enterable g.userParam) :
    (Resaves env g rest ↔ Redisplays g.userParam) ∧
      ∀ m g', resave env g rest = some g' → resaveBuffer env m g rest = some g' :=
  ⟨⟨redisplays_of_resaves hu, resaves_of_redisplays hu⟩, fun m _ => resave_buffer hu m⟩

def homeSsid : Vector UInt8 33 := moveMem zeros (bytes "home")
def accessSsid : Vector UInt8 32 := moveMem zeros (bytes "access")
def accessKey : Vector UInt8 64 := moveMem zeros (bytes "secret")

def station (mode : UInt8) : Globals where
  __ := Globals.blank
  userParam :=
    { UserCfgParam.zero with
      cfg :=
        { CfgParam.zero with
          wifiCfg := { WifiCfg.zero with ssid := homeSsid, encry := mode, authMode := mode, channel := 6 }
          ipCfg := defaultIpCfg }
      webSsid := accessSsid
      webKey := accessKey
      webIpCfg := defaultIpCfg }

theorem station_enterable {mode : UInt8} (h : mode ≤ 3) : Enterable (station mode).userParam where
  offered := ⟨.inl rfl, UInt8.le_trans h (by decide), h, (by decide : (1 : UInt8) ≤ 6 ∧ (6 : UInt8) ≤ 13)⟩
  ssid := (by decide : 1 ≤ (text homeSsid).length ∧ (text homeSsid).length ≤ 32)
  ssidAlnum := (by decide : (text homeSsid).all isAlnum = true)
  psk := (by decide : (text (zeros : Vector UInt8 64)).all isAlnum = true)
  webSsid := (by decide : 1 ≤ (text accessSsid).length)
  webSsidAlnum := (by decide : (text accessSsid).all isAlnum = true)
  webKey := (by decide : (text accessKey).all isAlnum = true)

theorem wifibase_resave_station : Resaves sampleEnv (station 3) [] :=
  (wifibase_resave sampleEnv (station 3) [] (station_enterable (by decide))).1.mpr
    ⟨⟨by decide, by decide, .inr rfl⟩, by decide, by decide, rfl, rfl, fun _ => by decide⟩

/-- TKIP shows as the second network mode, and is saved as that. -/
theorem tkip_station_changes : Enterable (station 2).userParam ∧ ¬Resaves sampleEnv (station 2) [] := by
  have hu : Enterable (station 2).userParam := station_enterable (by decide)
  exact ⟨hu, fun h => (redisplays_of_resaves hu h).encry ⟨rfl, rfl⟩⟩

end SerialNet.Param
