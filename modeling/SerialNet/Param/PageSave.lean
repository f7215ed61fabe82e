import Mathlib.Tactic.IntervalCases
import SerialNet.Param.FormAtomic
import SerialNet.Param.FormScan
import SerialNet.Param.IpText
import SerialNet.Param.PageFields

/-!
# Saving the Wi-Fi page

The body a browser sends for the page goes through `http_setup_wifibase`
field by field; what is stored is compared with what was there.
-/

namespace SerialNet.Param

open Html

/-! ## Addresses -/

theorem section_dec (b : UInt8) : Section (dec b) ∧ partNumber (dec b) = b.toNat := by
  have hdec : allDigits (dec b) = true ∧ dec b ≠ [] ∧ decimal (dec b) ≤ 255 ∧ partNumber (dec b) = b.toNat := by
    revert b
    apply forall_byte
    decide +kernel
  exact ⟨⟨hdec.1, hdec.2.1, hdec.2.2.1⟩, hdec.2.2.2⟩

theorem inetAton_ntoa (ip : Vector UInt8 4) : (inetAton (inetNtoa ip)).map ip4Addr = some ip := by
  obtain ⟨a, b, c, d, hbytes⟩ := toList_four ip
  have hquad : inetNtoa ip = quad (dec a) (dec b) (dec c) (dec d) := by
    rw [inetNtoa_toList hbytes]
    simp only [quad, List.append_assoc, List.cons_append]
  rw [hquad, inetAton_quad (section_dec _).1 (section_dec _).1 (section_dec _).1 (section_dec _).1, (section_dec _).2,
    (section_dec _).2, (section_dec _).2, (section_dec _).2]
  simp only [UInt8.ofNat_toNat]
  congr 1
  apply Vector.toList_inj.mp
  rw [hbytes]
  rfl

/-! ## The form of the page -/

def pageEntries (w : WifiCfg) (bDhcp : UInt8) (s : Slots) : List (String × List UInt8) :=
  let m := shown w.protocol w.encry w.authMode
  [("wifimode", dec m.1), ("encry", dec m.2.1), ("authmode", dec m.2.2), ("apssid", s.apssid), ("apkey", s.apkey),
    ("apipaddr", s.apipaddr), ("apnetmask", s.apnetmask), ("channel", dec w.channel), ("stassid", s.stassid),
    ("stakey", s.stakey), ("dhcp", dec (shownDhcp bDhcp)), ("staipaddr", s.staipaddr), ("stanetmask", s.stanetmask),
    ("gateway", s.gateway), ("dnsserv", s.dnsserv)]

theorem formBody_bodyText : ∀ {fs : List (String × List UInt8)},
    (∀ e ∈ fs, (bytes e.1).all isPlain = true ∧ e.2.all isPlain = true) →
      formBody (fs.map (fun e => (bytes e.1, e.2)) ++ [(bytes "save", bytes "submit")]) =
        bodyText (fs.map fun e => (e.1 ++ "=", e.2))
  | [], _ => formBody_submit
  | (name, v) :: fs, h => by
    rw [List.forall_mem_cons] at h
    have heq : bytes (name ++ "=") = bytes name ++ [61] := by
      rw [bytes_append]
      exact congrArg (bytes name ++ ·) (bytes_ofList ['='])
    rw [List.map_cons, List.cons_append, formBody_cons h.1.1 h.1.2 (by simp), formBody_bodyText h.2]
    simp [bodyText, entryText, heq]

section
variable {w : WifiCfg} {bDhcp : UInt8} {s : Slots}

theorem pageEntries_values (hs : s.Plain) : ∀ e ∈ pageEntries w bDhcp s,
    e.1 ++ "=" ∈ valueKeys ∧ (bytes e.1).all isPlain = true ∧ e.2.all isPlain = true := by
  have hv := hs.plain
  simp only [Slots.values, List.forall_mem_cons] at hv
  obtain ⟨v₁, v₂, v₃, v₄, v₅, v₆, v₇, v₈, v₉, v₁₀, -⟩ := hv
  have hnames := @pageNames_plain
  unfold pageNames at hnames
  simp only [List.forall_mem_cons] at hnames
  obtain ⟨n₁, n₂, n₃, n₄, n₅, n₆, n₇, n₈, n₉, n₁₀, n₁₁, n₁₂, n₁₃, n₁₄, n₁₅, -⟩ := hnames
  simp only [pageEntries, List.forall_mem_cons]
  exact ⟨⟨n₁.1, n₁.2, dec_plain _⟩, ⟨n₂.1, n₂.2, dec_plain _⟩, ⟨n₃.1, n₃.2, dec_plain _⟩, ⟨n₄.1, n₄.2, v₁⟩,
    ⟨n₅.1, n₅.2, v₂⟩, ⟨n₆.1, n₆.2, v₃⟩, ⟨n₇.1, n₇.2, v₄⟩, ⟨n₈.1, n₈.2, dec_plain _⟩, ⟨n₉.1, n₉.2, v₅⟩,
    ⟨n₁₀.1, n₁₀.2, v₆⟩, ⟨n₁₁.1, n₁₁.2, dec_plain _⟩, ⟨n₁₂.1, n₁₂.2, v₇⟩, ⟨n₁₃.1, n₁₃.2, v₈⟩, ⟨n₁₄.1, n₁₄.2, v₉⟩,
    ⟨n₁₅.1, n₁₅.2, v₁₀⟩, fun _ h => absurd h (List.not_mem_nil)⟩

theorem scan_page (hs : s.Plain) (rest : List UInt8) :
    let body := formBody (pageFields w bDhcp s ++ [(bytes "save", bytes "submit")])
    scan wifiKeys (body ++ rest) body.length = some ((pageEntries w bDhcp s).map fun e => (e.1 ++ "=", e.2)) := by
  have hv := @pageEntries_values w bDhcp s hs
  have hfields : pageFields w bDhcp s = (pageEntries w bDhcp s).map fun e => (bytes e.1, e.2) := rfl
  dsimp only
  rw [hfields, formBody_bodyText fun e he => (hv e he).2]
  apply scan_body rest
  rw [List.forall_mem_map]
  exact fun e he => ⟨(hv e he).1, (hv e he).2.2⟩

/-- The pointers after the scan. -/
def pageForm (m : UInt8 × UInt8 × UInt8) (channel dhcp : UInt8) (s : Slots) : WifiForm where
  protocol := some (dec m.1)
  wlProtocol := m.1.toUInt32
  ssid := some (if m.1 = 0 then s.stassid else s.apssid)
  key := some (if m.1 = 0 then s.stakey else s.apkey)
  ipaddr := some (if m.1 = 0 then s.staipaddr else s.apipaddr)
  netmask := some (if m.1 = 0 then s.stanetmask else s.apnetmask)
  gateway := some s.gateway
  dnsserv := some s.dnsserv
  authmode := some (dec m.2.2)
  encrymode := some (dec m.2.1)
  channel := some (dec channel)
  dhcp := some (dec dhcp)
  webSsid := some (if m.1 = 0 then s.apssid else s.stassid)
  webKey := some (if m.1 = 0 then s.apkey else s.stakey)
  webIpaddr := some (if m.1 = 0 then s.apipaddr else s.staipaddr)
  webNetmask := some (if m.1 = 0 then s.apnetmask else s.stanetmask)

theorem readWifi_page (h : (shown w.protocol w.encry w.authMode).1 = 0 ∨ (shown w.protocol w.encry w.authMode).1 = 2) :
    readWifi ((pageEntries w bDhcp s).map fun e => (e.1 ++ "=", e.2)) =
      pageForm (shown w.protocol w.encry w.authMode) w.channel (shownDhcp bDhcp) s := by
  unfold pageEntries
  generalize shown w.protocol w.encry w.authMode = m at *
  obtain ⟨p, e, a⟩ := m
  dsimp only at h
  have h0 : atoi (dec 0) = 0 := rfl
  have h2 : atoi (dec 2) = 2 := rfl
  rcases h with rfl | rfl
  · simp [readWifi, WifiForm.take, WifiForm.empty, pageForm, h0]
  · simp [readWifi, WifiForm.take, WifiForm.empty, pageForm, h2]

end

end SerialNet.Param
