import SerialNet.Param.PageRead

/-!
# The fields of the Wi-Fi page

The page as a whole: the rows one behind the other, within the buffer, give
the fields of `pageFields`.
-/

namespace SerialNet.Param

open Html

/-! ## The room -/

/-- `datalen` counts what was written, and no more than `n` bytes come in all. -/
structure Bounded (b : Build) (len : UInt32) (n : Nat) : Prop where
  datalen : b.datalen + UInt32.ofNat b.dst.length = len
  length : b.dst.length + b.mainstr.length ≤ n

theorem Bounded.insert {b : Build} {len : UInt32} {n k : Nat} {str value : List UInt8} (h : Bounded b len n)
    (hv : value.length ≤ k) : Bounded (b.insert str value) len (n + k) := by
  obtain ⟨hd, hl⟩ := h
  unfold Build.insert
  split
  · exact ⟨hd, by omega⟩
  · rename_i before after hm
    have hlen := congrArg List.length (nustrstr_split hm)
    constructor
    · simp only [List.length_append, UInt32.ofNat_add] at *
      grind
    · simp only [List.length_append] at *
      omega

theorem Bounded.check {b : Build} {len : UInt32} {n : Nat} (h : Bounded b len n) (k : UInt8) :
    Bounded (b.check k) len (n + 17) :=
  h.insert selectCheckDefault_length

theorem Bounded.fill {b : Build} {len : UInt32} {n : Nat} {v : List UInt8} (h : Bounded b len n) (m : String)
    (hv : v.length ≤ 64) : Bounded (b.fill m v) len (n + 64) :=
  h.insert hv

/-! ## The page -/

structure Slots where
  apssid : List UInt8
  apkey : List UInt8
  apipaddr : List UInt8
  apnetmask : List UInt8
  stassid : List UInt8
  stakey : List UInt8
  staipaddr : List UInt8
  stanetmask : List UInt8
  gateway : List UInt8
  dnsserv : List UInt8

def slots (u : UserCfgParam) : Option Slots := do
  let w := u.cfg.wifiCfg
  let ip := u.cfg.ipCfg
  let web := u.webIpCfg
  return {
    apssid := ← byMode w.protocol (arrayStr u.webSsid) (arrayStr w.ssid)
    apkey := ← byMode w.protocol (arrayStr u.webKey) (pskStr w)
    apipaddr := ← byMode w.protocol (some (inetNtoa web.ip)) (some (inetNtoa ip.ip))
    apnetmask := ← byMode w.protocol (some (inetNtoa web.netmask)) (some (inetNtoa ip.netmask))
    stassid := ← byMode w.protocol (arrayStr w.ssid) (arrayStr u.webSsid)
    stakey := ← byMode w.protocol (pskStr w) (arrayStr u.webKey)
    staipaddr := ← byMode w.protocol (some (inetNtoa ip.ip)) (some (inetNtoa web.ip))
    stanetmask := ← byMode w.protocol (some (inetNtoa ip.netmask)) (some (inetNtoa web.netmask))
    gateway := inetNtoa web.gateWay
    dnsserv := inetNtoa web.dns }

/-- The substitutions up to the last one. -/
def pageBuild (w : WifiCfg) (bDhcp : UInt8) (s : Slots) (src : List UInt8) (len : UInt32) : Build :=
  let b := ((((Build.mk [] src len).check w.protocol).check w.encry).check w.authMode).fill "apssid" s.apssid
  let b := ((b.fill "apkey" s.apkey).fill "apipaddr" s.apipaddr).fill "apnetmask" s.apnetmask
  let b := ((b.check w.channel).fill "stassid" s.stassid).fill "stakey" s.stakey
  let b := ((b.check bDhcp).fill "staipaddr" s.staipaddr).fill "stanetmask" s.stanetmask
  (b.fill "gateway" s.gateway).fill "dnsserv" s.dnsserv

theorem rebuild_slots (u : UserCfgParam) (src : List UInt8) (len : UInt32) :
    htmlRebuildWifibase u src len = (slots u).map fun s =>
      let b := pageBuild u.cfg.wifiCfg u.cfg.ipCfg.bDhcp s src len
      (b.dst ++ (copyRest b.datalen b.mainstr).1, len - (copyRest b.datalen b.mainstr).2) := by
  unfold htmlRebuildWifibase slots
  simp only [Option.bind_eq_bind, Option.map_bind, Option.pure_def, Function.comp_def, Option.map_some]
  rfl

def Slots.values (s : Slots) : List (List UInt8) :=
  [s.apssid, s.apkey, s.apipaddr, s.apnetmask, s.stassid, s.stakey, s.staipaddr, s.stanetmask, s.gateway, s.dnsserv]

structure Slots.Plain (s : Slots) : Prop where
  plain : ∀ v ∈ s.values, v.all isPlain = true
  short : ∀ v ∈ s.values, v.length ≤ 64

theorem plain_unquoted {v : List UInt8} (h : v.all isPlain = true) : ∀ c ∈ v, c ≠ 34 := by
  rintro _ hc rfl
  exact absurd (List.all_eq_true.mp h 34 hc) (by decide)

def shownDhcp (bDhcp : UInt8) : UInt8 := if 1 < bDhcp then 0 else bDhcp

def pageFields (w : WifiCfg) (bDhcp : UInt8) (s : Slots) : List Field :=
  modeFields (shown w.protocol w.encry w.authMode) ++
    [(bytes "apssid", s.apssid), (bytes "apkey", s.apkey), (bytes "apipaddr", s.apipaddr),
      (bytes "apnetmask", s.apnetmask), (bytes "channel", dec w.channel), (bytes "stassid", s.stassid),
      (bytes "stakey", s.stakey), (bytes "dhcp", dec (shownDhcp bDhcp)), (bytes "staipaddr", s.staipaddr),
      (bytes "stanetmask", s.stanetmask), (bytes "gateway", s.gateway), (bytes "dnsserv", s.dnsserv)]

structure WifiCfg.Offered (w : WifiCfg) : Prop where
  protocol : w.protocol = 0 ∨ w.protocol = 2
  encry : w.encry ≤ 4
  authMode : w.authMode ≤ 3
  channel : 1 ≤ w.channel ∧ w.channel ≤ 13

section
variable {w : WifiCfg} {bDhcp : UInt8} {s : Slots}

theorem byte_le {n : UInt8} : ∀ {k : UInt8}, k ≤ n → k ∈ (List.range (n.toNat + 1)).map UInt8.ofNat := by
  intro k h
  rw [List.mem_map]
  exact ⟨k.toNat, List.mem_range.mpr (Nat.lt_succ_of_le h), UInt8.ofNat_toNat⟩

theorem pageBuild_shows (hw : w.Offered) (hs : s.Plain) (len : UInt32) :
    Shows (pageBuild w bDhcp s wifibaseHtml len) (pageFields w bDhcp s) (behindValue (bytes "dnsserv"))
      (html (rowEnd ++ endRows)) := by
  have hv : ∀ v ∈ s.values, ∀ c ∈ v, c ≠ 34 := fun v h => plain_unquoted (hs.plain v h)
  simp only [Slots.values, List.forall_mem_cons] at hv
  obtain ⟨v₁, v₂, v₃, v₄, v₅, v₆, v₇, v₈, v₉, v₁₀, -⟩ := hv
  have hp : w.protocol ∈ [0, 2] := List.mem_pair.mpr hw.protocol
  have he : w.encry ∈ [0, 1, 2, 3, 4] := byte_le hw.encry
  have ha : w.authMode ∈ [0, 1, 2, 3] := byte_le hw.authMode
  have hc : w.channel ∈ [1, 2, 3, 4, 5, 6, 7, 8, 9, 10, 11, 12, 13] := by
    have h13 : w.channel ∈ 0 :: [1, 2, 3, 4, 5, 6, 7, 8, 9, 10, 11, 12, 13] := byte_le hw.channel.2
    refine (List.mem_cons.mp h13).resolve_left fun h => ?_
    exact absurd (h ▸ hw.channel.1) (by decide)
  have h₀ : Shows ⟨[], wifibaseHtml, len⟩ [] start (html wifibaseLines) :=
    ⟨[], .inl rfl, (List.nil_append _).symm, .refl _⟩
  have h₁ := h₀.modes hp he ha v₁
  have h₂ := h₁.row rows_read.apkey v₂
  have h₃ := h₂.row rows_read.apipaddr v₃
  have h₄ := h₃.row rows_read.apnetmask v₄
  rw [← List.append_assoc channelRow] at h₄
  have h₅ := h₄.row (rows_read.stassid _ hc) v₅
  have h₆ := h₅.row rows_read.stakey v₆
  rw [← List.append_assoc dhcpRow] at h₆
  by_cases hd : 1 < bDhcp
  · have h₇ := h₆.row rows_read.staipaddrUnmarked v₇
    rw [List.foldl_nil, ← check_other hd h₆] at h₇
    have h₁₀ := ((h₇.row rows_read.stanetmask v₈).row rows_read.gateway v₉).row rows_read.dnsserv v₁₀
    rw [pageFields, shownDhcp, if_pos hd]
    simp only [List.foldl_cons, List.foldl_nil, List.nil_append, List.append_assoc, List.cons_append] at h₁₀
    exact h₁₀
  · have h₇ := h₆.row (rows_read.staipaddr _ (byte_le (UInt8.not_lt.mp hd))) v₇
    have h₁₀ := ((h₇.row rows_read.stanetmask v₈).row rows_read.gateway v₉).row rows_read.dnsserv v₁₀
    rw [pageFields, shownDhcp, if_neg hd]
    simp only [List.foldl_cons, List.foldl_nil, List.nil_append, List.append_assoc, List.cons_append] at h₁₀
    exact h₁₀

theorem pageBuild_bounded (hs : s.Plain) (len : UInt32) : Bounded (pageBuild w bDhcp s wifibaseHtml len) len 4096 := by
  have hv := hs.short
  simp only [Slots.values, List.forall_mem_cons] at hv
  obtain ⟨v₁, v₂, v₃, v₄, v₅, v₆, v₇, v₈, v₉, v₁₀, -⟩ := hv
  have h₀ : Bounded ⟨[], wifibaseHtml, len⟩ len 3286 :=
    ⟨UInt32.add_zero len, by rw [List.length_nil, Nat.zero_add]; exact wifibaseHtml_length⟩
  have h₄ := ((((h₀.check w.protocol).check w.encry).check w.authMode).fill "apssid" v₁).fill "apkey" v₂
  have h₆ := (((h₄.fill "apipaddr" v₃).fill "apnetmask" v₄).check w.channel).fill "stassid" v₅
  have h₈ := (((h₆.fill "stakey" v₆).check bDhcp).fill "staipaddr" v₇).fill "stanetmask" v₈
  have h₁₀ := (h₈.fill "gateway" v₉).fill "dnsserv" v₁₀
  exact ⟨h₁₀.datalen, Nat.le_trans h₁₀.length (by decide)⟩

/-- **The page**: what the browser reads, and the length returned. -/
theorem page_read {u : UserCfgParam} (hw : u.cfg.wifiCfg.Offered) (hu : slots u = some s) (hs : s.Plain) :
    ∃ page, htmlRebuildWifibase u wifibaseHtml 4096 = some (page, UInt32.ofNat page.length) ∧ page.length ≤ 4096 ∧
      formFields page = pageFields u.cfg.wifiCfg u.cfg.ipCfg.bDhcp s ++ [(bytes "save", bytes "submit")] := by
  obtain ⟨hd, hl⟩ := @pageBuild_bounded u.cfg.wifiCfg u.cfg.ipCfg.bDhcp s hs 4096
  obtain ⟨q, hq, hmain, hread⟩ := @pageBuild_shows u.cfg.wifiCfg u.cfg.ipCfg.bDhcp s hw hs 4096
  rw [rebuild_slots, hu, Option.map_some]
  generalize pageBuild u.cfg.wifiCfg u.cfg.ipCfg.bDhcp s wifibaseHtml 4096 = b at *
  have hroom : b.mainstr.length ≤ b.datalen.toNat := by
    have hdst : (UInt32.ofNat b.dst.length).toNat = b.dst.length :=
      UInt32.toNat_ofNat_of_lt' (show b.dst.length < 2 ^ 32 by omega)
    have hle : UInt32.ofNat b.dst.length ≤ 4096 := by
      rw [UInt32.le_iff_toNat_le, hdst]
      exact Nat.le_trans (Nat.le_add_right _ _) hl
    have hdata : b.datalen = 4096 - UInt32.ofNat b.dst.length := by grind
    rw [hdata, UInt32.toNat_sub_of_le _ _ hle, hdst, show (4096 : UInt32).toNat = 4096 from rfl]
    exact Nat.le_sub_of_add_le (Nat.add_comm _ _ ▸ hl)
  dsimp only
  rw [copyRest_all hroom]
  refine ⟨b.dst ++ b.mainstr, ?_, ?_, ?_⟩
  · have hret : 4096 - (b.datalen - UInt32.ofNat b.mainstr.length) = UInt32.ofNat (b.dst.length + b.mainstr.length) := by
      rw [UInt32.ofNat_add]
      grind
    rw [hret, List.length_append]
  · rwa [List.length_append]
  · rw [hmain, ← List.append_assoc, formFields, fields_append, hread.gives, hread.leaves, rows_read.save]

end

end SerialNet.Param
