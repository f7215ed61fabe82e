import SerialNet.Lib.Run
import SerialNet.Param.Config

/-!
# The parameter setters

Calls of the setters of `param.c` in any order, next to the values they last
accepted.
-/

namespace SerialNet.Param

open Run

namespace Setters

/-! ## The calls -/

section
variable (sys : CfgParam)

def infChannelSet (ch : UInt8) : Int × CfgParam :=
  if ch < 1 ∨ 13 < ch then (-1, sys) else (0, sys.setWifi { sys.wifiCfg with channel := ch })

def infEncModeSet (encMode : UInt8) : Int × CfgParam :=
  if 5 ≤ encMode then (-1, sys) else (0, sys.setWifi { sys.wifiCfg with encry := encMode })

def infAuthModeSet (authMode : UInt8) : Int × CfgParam :=
  if 4 ≤ authMode then (-1, sys) else (0, sys.setWifi { sys.wifiCfg with authMode := authMode })

/-- `none` is the null pointer. -/
def infDnsSrvSet (enable : UInt8) (dnsName : Option (List UInt8)) : Int × CfgParam :=
  if enable ≠ 0 then
    match dnsName with
    | none => (-1, sys)
    | some name =>
      if 32 < name.length then (-1, sys)
      else (0, { sys with bDnsServer := 1, dnsName := moveMem sys.dnsName name })
  else (0, { sys with bDnsServer := 0 })

end

/-- A call, with the bytes its pointer and length give. -/
inductive Call where
  | ssid (pSsid : Option (List UInt8))
  | key (index : UInt8) (keyBuf : Option (List UInt8))
  | dnsSrv (enable : UInt8) (dnsName : Option (List UInt8))
  | netMode (mode : UInt8)
  | phyMode (mode : UInt8)
  | channel (ch : UInt8)
  | encMode (mode : UInt8)
  | authMode (mode : UInt8)

def Call.apply (sys : CfgParam) : Call → Int × CfgParam
  | .ssid p => infSsidSet sys p
  | .key _ none => (-1, sys)
  | .key index (some keyBuf) => infKeySet sys index keyBuf
  | .dnsSrv enable name => infDnsSrvSet sys enable name
  | .netMode mode => infNetModeSet sys mode
  | .phyMode mode => infPhyModeSet sys mode
  | .channel ch => infChannelSet sys ch
  | .encMode mode => infEncModeSet sys mode
  | .authMode mode => infAuthModeSet sys mode

/-! ## What they write -/

inductive Field where
  | ssid
  | psk
  | dnsName
  | keyIndex
  | keyLength
  | protocol
  | phyMode
  | channel
  | encry
  | authMode
  | bDnsServer
  deriving DecidableEq, Repr

def Field.bytes (sys : CfgParam) : Field → List UInt8
  | .ssid => sys.wifiCfg.ssid.toList
  | .psk => sys.wifiCfg.psk.toList
  | .dnsName => sys.dnsName.toList
  | .keyIndex => [sys.wifiCfg.keyIndex]
  | .keyLength => [sys.wifiCfg.keyLength]
  | .protocol => [sys.wifiCfg.protocol]
  | .phyMode => [sys.wifiCfg.phyMode]
  | .channel => [sys.wifiCfg.channel]
  | .encry => [sys.wifiCfg.encry]
  | .authMode => [sys.wifiCfg.authMode]
  | .bDnsServer => [sys.bDnsServer]

/-- The bytes a copy of `s` writes, and the one behind it. -/
def copied (f : Field) (s : List UInt8) : List (Field × Nat) := (List.range s.length).map (Prod.mk f)

def Call.writes : Call → List (Field × Nat)
  | .ssid none => [(.ssid, 0)]
  | .ssid (some s) => if 32 < s.length ∨ s.length = 0 then [(.ssid, 0)] else copied .ssid s ++ [(.ssid, s.length)]
  | .key _ none => []
  | .key index (some s) =>
    if 3 < index ∨ 64 < s.length then []
    else [(.keyIndex, 0), (.keyLength, 0)] ++ copied .psk s ++ if s.length < 64 then [(.psk, s.length)] else []
  | .dnsSrv enable name =>
    if enable ≠ 0 then
      match name with
      | none => []
      | some s => if 32 < s.length then [] else (.bDnsServer, 0) :: copied .dnsName s
    else [(.bDnsServer, 0)]
  | .netMode mode => if 3 ≤ mode then [] else [(.protocol, 0)]
  | .phyMode mode => if 3 ≤ mode then [] else [(.phyMode, 0)]
  | .channel ch => if ch < 1 ∨ 13 < ch then [] else [(.channel, 0)]
  | .encMode mode => if 5 ≤ mode then [] else [(.encry, 0)]
  | .authMode mode => if 4 ≤ mode then [] else [(.authMode, 0)]

/-! ## The values last accepted -/

structure Accepted where
  ssid : List UInt8
  key : List UInt8
  dnsName : List UInt8
  protocol : UInt8
  phyMode : UInt8
  channel : UInt8
  encry : UInt8
  authMode : UInt8

/-- A refused SSID counts as an empty one. -/
def Call.accept (a : Accepted) (ret : Int) : Call → Accepted
  | .ssid p => { a with ssid := if ret = 0 then p.getD [] else [] }
  | .key _ p => { a with key := if ret = 0 then p.getD [] else a.key }
  | .dnsSrv enable name => { a with dnsName := if ret = 0 ∧ enable ≠ 0 then name.getD [] else a.dnsName }
  | .netMode mode => { a with protocol := if ret = 0 then mode else a.protocol }
  | .phyMode mode => { a with phyMode := if ret = 0 then mode else a.phyMode }
  | .channel ch => { a with channel := if ret = 0 then ch else a.channel }
  | .encMode mode => { a with encry := if ret = 0 then mode else a.encry }
  | .authMode mode => { a with authMode := if ret = 0 then mode else a.authMode }

structure State where
  sys : CfgParam
  accepted : Accepted

def step (s : State) (call : Call) : State :=
  let r := call.apply s.sys
  ⟨r.2, call.accept s.accepted r.1⟩

/-- The default parameters, which count as accepted. -/
def start (permanentAddress : Vector UInt8 6) : State :=
  let sys := infLoadDefaultParam permanentAddress
  ⟨sys,
    { ssid := text sys.wifiCfg.ssid
      key := []
      dnsName := text sys.dnsName
      protocol := sys.wifiCfg.protocol
      phyMode := sys.wifiCfg.phyMode
      channel := sys.wifiCfg.channel
      encry := sys.wifiCfg.encry
      authMode := sys.wifiCfg.authMode }⟩

structure Agrees (s : State) : Prop where
  ssid : text s.sys.wifiCfg.ssid = s.accepted.ssid
  key : s.sys.wifiCfg.psk.toList.take s.sys.wifiCfg.keyLength.toNat = s.accepted.key
  dnsName : text s.sys.dnsName = s.accepted.dnsName
  protocol : s.sys.wifiCfg.protocol = s.accepted.protocol
  phyMode : s.sys.wifiCfg.phyMode = s.accepted.phyMode
  channel : s.sys.wifiCfg.channel = s.accepted.channel
  encry : s.sys.wifiCfg.encry = s.accepted.encry
  authMode : s.sys.wifiCfg.authMode = s.accepted.authMode

/-- What a refused call leaves. -/
def Call.refused (sys : CfgParam) : Call → CfgParam
  | .ssid _ => sys.setWifi { sys.wifiCfg with ssid := putZero sys.wifiCfg.ssid 0 }
  | _ => sys

/-- A call writes its own fields, inside their arrays, and a refused one changes nothing but the SSID. -/
structure Contained (sys : CfgParam) (call : Call) : Prop where
  inside : ∀ w ∈ call.writes, w.2 < (w.1.bytes sys).length
  frame : ∀ f i, (f, i) ∉ call.writes → (Field.bytes (call.apply sys).2 f)[i]? = (f.bytes sys)[i]?
  refused : (call.apply sys).1 = -1 → (call.apply sys).2 = call.refused sys

/-- An accepted string has no zero, and a DNS name ends where one is stored. -/
def Ends (s : State) : Call → Prop
  | .ssid (some b) => b.length ≠ 0 → b.length ≤ 32 → 0 ∉ b
  | .dnsSrv enable (some b) => enable ≠ 0 → b.length ≤ 32 → 0 ∉ b ∧ s.sys.dnsName.toList[b.length]? = some 0
  | _ => True

/-! ## Copies -/

section
variable {n : Nat} {dst v : Vector UInt8 n} {s : List UInt8} {i j : Nat}

theorem text_putZero (h : 0 < n) : text (putZero v 0) = [] := by
  have h0 : (putZero v 0).toList = 0 :: (putZero v 0).toList.drop 1 := putZero_drop h
  rw [text, h0]
  rfl

theorem moveMem_getElem? (h : s.length ≤ i) : (moveMem dst s).toList[i]? = dst.toList[i]? := by
  by_cases hi : i < n
  · simp [moveMem, hi, List.getElem?_eq_none h]
  · simp [hi]

theorem putZero_getElem? (h : i ≠ j) : (putZero v j).toList[i]? = v.toList[i]? := by
  simp [putZero, List.getElem?_set_ne h.symm]

theorem mem_copied {f g : Field} : (g, i) ∈ copied f s ↔ g = f ∧ i < s.length := by
  simp [copied, eq_comm, and_comm]

end

/-! ## One call -/

section
variable {sys : CfgParam}

theorem scalar_inside {c : Prop} [Decidable c] {f : Field} (h : (f.bytes sys).length = 1) {w : Field × Nat}
    (hw : w ∈ if c then [] else [(f, 0)]) : w.2 < (w.1.bytes sys).length := by
  split at hw
  · cases hw
  · obtain rfl := List.mem_singleton.mp hw
    exact h ▸ Nat.one_pos

theorem inside (call : Call) : ∀ w ∈ call.writes, w.2 < (w.1.bytes sys).length := by
  rintro ⟨f, i⟩ hw
  cases call with
  | ssid p =>
    cases p with
    | none => simp_all [Call.writes, Field.bytes]
    | some s =>
      simp only [Call.writes] at hw
      split at hw
      · simp_all [Field.bytes]
      · rcases List.mem_append.mp hw with hc | hc
        · obtain ⟨rfl, hi⟩ := mem_copied.mp hc
          simp only [Field.bytes, Vector.length_toList]
          omega
        · obtain ⟨rfl, rfl⟩ := Prod.mk.inj (List.mem_singleton.mp hc)
          simp only [Field.bytes, Vector.length_toList]
          omega
  | key index p =>
    cases p with
    | none => cases hw
    | some s =>
      simp only [Call.writes] at hw
      split at hw
      · cases hw
      · rcases List.mem_append.mp hw with hc | hc
        · rcases List.mem_append.mp hc with hc | hc
          · simp at hc
            rcases hc with ⟨rfl, rfl⟩ | ⟨rfl, rfl⟩ <;> exact Nat.one_pos
          · obtain ⟨rfl, hi⟩ := mem_copied.mp hc
            simp only [Field.bytes, Vector.length_toList]
            omega
        · split at hc
          · obtain ⟨rfl, rfl⟩ := Prod.mk.inj (List.mem_singleton.mp hc)
            simpa only [Field.bytes, Vector.length_toList]
          · cases hc
  | dnsSrv enable p =>
    simp only [Call.writes] at hw
    split at hw
    · cases p with
      | none => cases hw
      | some s =>
        simp only at hw
        split at hw
        · cases hw
        · rcases List.mem_cons.mp hw with hc | hc
          · obtain ⟨rfl, rfl⟩ := Prod.mk.inj hc
            exact Nat.one_pos
          · obtain ⟨rfl, hi⟩ := mem_copied.mp hc
            simp only [Field.bytes, Vector.length_toList]
            omega
    · obtain ⟨rfl, rfl⟩ := Prod.mk.inj (List.mem_singleton.mp hw)
      exact Nat.one_pos
  | netMode mode => exact scalar_inside rfl hw
  | phyMode mode => exact scalar_inside rfl hw
  | channel ch => exact scalar_inside rfl hw
  | encMode mode => exact scalar_inside rfl hw
  | authMode mode => exact scalar_inside rfl hw

section
variable {f : Field} {i : Nat}

theorem bytes_ssid {v : Vector UInt8 33} (hf : f ≠ .ssid) :
    f.bytes (sys.setWifi { sys.wifiCfg with ssid := v }) = f.bytes sys := by
  cases f with
  | ssid => exact absurd rfl hf
  | _ => rfl

theorem bytes_key {index len : UInt8} {v : Vector UInt8 64} (hi : f ≠ .keyIndex) (hl : f ≠ .keyLength) (hp : f ≠ .psk) :
    f.bytes (sys.setWifi { sys.wifiCfg with keyIndex := index, keyLength := len, psk := v }) = f.bytes sys := by
  cases f with
  | keyIndex => exact absurd rfl hi
  | keyLength => exact absurd rfl hl
  | psk => exact absurd rfl hp
  | _ => rfl

theorem bytes_dns {b : UInt8} {v : Vector UInt8 33} (hb : f ≠ .bDnsServer) (hd : f ≠ .dnsName) :
    f.bytes { sys with bDnsServer := b, dnsName := v } = f.bytes sys := by
  cases f with
  | bDnsServer => exact absurd rfl hb
  | dnsName => exact absurd rfl hd
  | _ => rfl

theorem scalar_byte {x y : UInt8} {l : List (Field × Nat)} (h0 : (f, 0) ∈ l) (h : (f, i) ∉ l) : [x][i]? = [y][i]? := by
  cases i with
  | zero => exact absurd h0 h
  | succ i => rfl

theorem scalar_frame {c : Prop} [Decidable c] {g : Field} {sys' : CfgParam} (hg : (g.bytes sys).length = 1)
    (hg' : (g.bytes sys').length = 1) (heq : ∀ f, f ≠ g → f.bytes sys' = f.bytes sys)
    (hw : (f, i) ∉ if c then [] else [(g, 0)]) :
    (f.bytes (if c then ((-1, sys) : Int × CfgParam) else (0, sys')).2)[i]? = (f.bytes sys)[i]? := by
  by_cases hc : c
  · rw [if_pos hc]
  · rw [if_neg hc] at hw ⊢
    by_cases hf : f = g
    · subst hf
      obtain ⟨x, hx⟩ := List.length_eq_one_iff.mp hg
      obtain ⟨y, hy⟩ := List.length_eq_one_iff.mp hg'
      rw [hx, hy]
      exact scalar_byte (List.mem_singleton.mpr rfl) hw
    · rw [heq f hf]

theorem refused_branch {c : Prop} [Decidable c] {out sys' : CfgParam}
    (h : (if c then ((-1, out) : Int × CfgParam) else (0, sys')).1 = -1) :
    (if c then ((-1, out) : Int × CfgParam) else (0, sys')).2 = out := by
  by_cases hc : c
  · rw [if_pos hc]
  · rw [if_neg hc] at h
    cases h

theorem ssid_frame {p : Option (List UInt8)} (hw : (f, i) ∉ (Call.ssid p).writes) :
    (f.bytes (infSsidSet sys p).2)[i]? = (f.bytes sys)[i]? := by
  by_cases hf : f = .ssid
  · subst hf
    have hclear : (Field.ssid, i) ∉ [(Field.ssid, 0)] →
        (putZero sys.wifiCfg.ssid 0).toList[i]? = sys.wifiCfg.ssid.toList[i]? := fun h =>
      putZero_getElem? fun h0 => h (h0 ▸ List.mem_singleton.mpr rfl)
    cases p with
    | none => exact hclear hw
    | some s =>
      simp only [Call.writes] at hw
      simp only [infSsidSet]
      split at hw
      · rename_i hs
        rw [if_pos hs]
        exact hclear hw
      · rename_i hs
        rw [if_neg hs]
        obtain ⟨h1, h2⟩ := not_or.mp (mt List.mem_append.mpr hw)
        have hi : i ≠ s.length := fun h => h2 (h ▸ List.mem_singleton.mpr rfl)
        have hle : s.length ≤ i := Nat.not_lt.mp fun h => h1 (mem_copied.mpr ⟨rfl, h⟩)
        exact (putZero_getElem? hi).trans (moveMem_getElem? hle)
  · have heq : f.bytes (infSsidSet sys p).2 = f.bytes sys := by
      unfold infSsidSet
      split
      · exact bytes_ssid hf
      · split
        · exact bytes_ssid hf
        · exact bytes_ssid hf
    rw [heq]

theorem key_frame {index : UInt8} {s : List UInt8} (hw : (f, i) ∉ (Call.key index (some s)).writes) :
    (f.bytes (infKeySet sys index s).2)[i]? = (f.bytes sys)[i]? := by
  simp only [Call.writes] at hw
  by_cases hs : 3 < index ∨ 64 < s.length
  · rw [infKeySet, if_pos hs]
  · rw [if_neg hs] at hw
    rw [infKeySet, if_neg hs]
    by_cases hf : f = .keyIndex ∨ f = .keyLength
    · rcases hf with rfl | rfl
      · exact scalar_byte (by simp) hw
      · exact scalar_byte (by simp) hw
    · by_cases hp : f = .psk
      · subst hp
        obtain ⟨h1, h2⟩ := not_or.mp (mt List.mem_append.mpr hw)
        have hle : s.length ≤ i :=
          Nat.not_lt.mp fun h => h1 (List.mem_append_right _ (mem_copied.mpr ⟨rfl, h⟩))
        simp only [Field.bytes, CfgParam.setWifi_wifi]
        split
        · rename_i hlt
          have hi : i ≠ s.length := fun h => h2 (by simp [hlt, h])
          exact (putZero_getElem? hi).trans (moveMem_getElem? hle)
        · exact moveMem_getElem? hle
      · obtain ⟨hi, hl⟩ := not_or.mp hf
        rw [bytes_key hi hl hp]

theorem dnsSrv_frame {enable : UInt8} {p : Option (List UInt8)} (hw : (f, i) ∉ (Call.dnsSrv enable p).writes) :
    (f.bytes (infDnsSrvSet sys enable p).2)[i]? = (f.bytes sys)[i]? := by
  simp only [Call.writes] at hw
  unfold infDnsSrvSet
  by_cases he : enable ≠ 0
  · rw [if_pos he] at hw ⊢
    cases p with
    | none => rfl
    | some s =>
      simp only at hw ⊢
      by_cases hs : 32 < s.length
      · rw [if_pos hs]
      · rw [if_neg hs] at hw ⊢
        by_cases hb : f = .bDnsServer
        · subst hb
          exact scalar_byte (by simp) hw
        · by_cases hd : f = .dnsName
          · subst hd
            refine moveMem_getElem? (Nat.not_lt.mp fun h => hw ?_)
            exact List.mem_cons_of_mem _ (mem_copied.mpr ⟨rfl, h⟩)
          · rw [bytes_dns hb hd]
  · rw [if_neg he] at hw ⊢
    by_cases hb : f = .bDnsServer
    · subst hb
      exact scalar_byte (List.mem_singleton.mpr rfl) hw
    · cases f with
      | bDnsServer => exact absurd rfl hb
      | _ => rfl

theorem frame (call : Call) (hw : (f, i) ∉ call.writes) :
    (f.bytes (call.apply sys).2)[i]? = (f.bytes sys)[i]? := by
  cases call with
  | ssid p => exact ssid_frame hw
  | key index p =>
    cases p with
    | none => rfl
    | some s => exact key_frame hw
  | dnsSrv enable p => exact dnsSrv_frame hw
  | netMode mode => exact scalar_frame rfl rfl (fun f hf => by cases f <;> first | exact absurd rfl hf | rfl) hw
  | phyMode mode => exact scalar_frame rfl rfl (fun f hf => by cases f <;> first | exact absurd rfl hf | rfl) hw
  | channel ch => exact scalar_frame rfl rfl (fun f hf => by cases f <;> first | exact absurd rfl hf | rfl) hw
  | encMode mode => exact scalar_frame rfl rfl (fun f hf => by cases f <;> first | exact absurd rfl hf | rfl) hw
  | authMode mode => exact scalar_frame rfl rfl (fun f hf => by cases f <;> first | exact absurd rfl hf | rfl) hw

end

theorem refused (call : Call) (h : (call.apply sys).1 = -1) : (call.apply sys).2 = call.refused sys := by
  cases call with
  | ssid p =>
    cases p with
    | none => rfl
    | some s => exact refused_branch h
  | key index p =>
    cases p with
    | none => rfl
    | some s => exact refused_branch h
  | dnsSrv enable p =>
    simp only [Call.apply, infDnsSrvSet] at h ⊢
    by_cases he : enable ≠ 0
    · rw [if_pos he] at h ⊢
      cases p with
      | none => rfl
      | some s => exact refused_branch h
    · rw [if_neg he] at h
      cases h
  | netMode mode => exact refused_branch h
  | phyMode mode => exact refused_branch h
  | channel ch => exact refused_branch h
  | encMode mode => exact refused_branch h
  | authMode mode => exact refused_branch h

theorem contained (call : Call) : Contained sys call :=
  ⟨inside call, fun _ _ => frame call, refused call⟩

end

/-! ## Runs of calls -/

section
variable {s : State} {b : List UInt8}

theorem agrees_ssid (h : Agrees s) (p : Option (List UInt8)) : Agrees (step s (.ssid p)) ↔ Ends s (.ssid p) := by
  have hrest : ∀ v a, text v = a → Agrees
      ⟨s.sys.setWifi { s.sys.wifiCfg with ssid := v }, { s.accepted with ssid := a }⟩ := fun v a hv =>
    { h with ssid := hv }
  cases p with
  | none => exact iff_of_true (hrest _ _ (text_putZero (by decide))) trivial
  | some b =>
    simp only [step, Call.apply, infSsidSet, Ends]
    by_cases hb : 32 < b.length ∨ b.length = 0
    · rw [if_pos hb]
      exact iff_of_true (hrest _ _ (text_putZero (by decide))) fun h0 h32 => by omega
    · rw [if_neg hb]
      have hlt : b.length < 33 := by omega
      refine ⟨fun hs _ _ => (text_putZero_moveMem_iff hlt).mp hs.ssid, fun hz => hrest _ _ ?_⟩
      exact (text_putZero_moveMem_iff hlt).mpr (hz (by omega) (by omega))

theorem agrees_key (h : Agrees s) (index : UInt8) (p : Option (List UInt8)) : Agrees (step s (.key index p)) := by
  cases p with
  | none => exact h
  | some b =>
    by_cases hb : 3 < index ∨ 64 < b.length
    · have hr : infKeySet s.sys index b = (-1, s.sys) := if_pos hb
      simp only [step, Call.apply, hr]
      exact h
    · obtain ⟨hi, hl⟩ := not_or.mp hb
      have hkey := @infKeySet_key s.sys b index (UInt8.not_lt.mp hi) (Nat.not_lt.mp hl)
      have hk : (infKeySet s.sys index b).2.wifiCfg.psk.toList.take
          (infKeySet s.sys index b).2.wifiCfg.keyLength.toNat = b := by rw [hkey.1, hkey.2]
      simp only [step, Call.apply, infKeySet, if_neg hb] at hk ⊢
      exact { h with key := hk }

theorem agrees_dnsSrv (h : Agrees s) (enable : UInt8) (p : Option (List UInt8)) :
    Agrees (step s (.dnsSrv enable p)) ↔ Ends s (.dnsSrv enable p) := by
  by_cases he : enable = 0
  · subst he
    refine iff_of_true { h with } ?_
    cases p with
    | none => trivial
    | some b => exact fun h0 => absurd rfl h0
  · cases p with
    | none =>
      have hr : infDnsSrvSet s.sys enable none = (-1, s.sys) := if_pos he
      simp only [step, Call.apply, hr]
      exact iff_of_true h trivial
    | some b =>
      by_cases hb : 32 < b.length
      · have hr : infDnsSrvSet s.sys enable (some b) = (-1, s.sys) := by
          simp only [infDnsSrvSet, if_pos he, if_pos hb]
        simp only [step, Call.apply, hr]
        exact iff_of_true h fun _ hl => absurd hl (Nat.not_le.mpr hb)
      · have hr : infDnsSrvSet s.sys enable (some b) =
            (0, { s.sys with bDnsServer := 1, dnsName := moveMem s.sys.dnsName b }) := by
          simp only [infDnsSrvSet, if_pos he, if_neg hb]
        have hacc : (Call.dnsSrv enable (some b)).accept s.accepted 0 = { s.accepted with dnsName := b } := by
          simp [Call.accept, he]
        have hlt : b.length < 33 := by omega
        simp only [step, Call.apply, hr, hacc]
        refine ⟨fun hs _ _ => (text_moveMem_iff hlt).mp hs.dnsName, fun hz => ?_⟩
        exact { h with dnsName := (text_moveMem_iff hlt).mpr (hz he (Nat.not_lt.mp hb)) }

theorem agrees_step (h : Agrees s) (call : Call) : Agrees (step s call) ↔ Ends s call := by
  cases call with
  | ssid p => exact agrees_ssid h p
  | key index p => exact iff_of_true (agrees_key h index p) trivial
  | dnsSrv enable p => exact agrees_dnsSrv h enable p
  | netMode mode =>
    refine iff_of_true ?_ trivial
    simp only [step, Call.apply, infNetModeSet]
    split
    · exact h
    · exact { h with protocol := rfl }
  | phyMode mode =>
    refine iff_of_true ?_ trivial
    simp only [step, Call.apply, infPhyModeSet]
    split
    · exact h
    · exact { h with phyMode := rfl }
  | channel ch =>
    refine iff_of_true ?_ trivial
    simp only [step, Call.apply, infChannelSet]
    split
    · exact h
    · exact { h with channel := rfl }
  | encMode mode =>
    refine iff_of_true ?_ trivial
    simp only [step, Call.apply, infEncModeSet]
    split
    · exact h
    · exact { h with encry := rfl }
  | authMode mode =>
    refine iff_of_true ?_ trivial
    simp only [step, Call.apply, infAuthModeSet]
    split
    · exact h
    · exact { h with authMode := rfl }

theorem agrees_start (permanentAddress : Vector UInt8 6) : Agrees (start permanentAddress) := by
  simp only [start]
  generalize hsys : infLoadDefaultParam permanentAddress = sys
  have hkey : sys.wifiCfg.keyLength = 0 := by simp only [← hsys, infLoadDefaultParam, WifiCfg.zero]
  have hnil : sys.wifiCfg.psk.toList.take sys.wifiCfg.keyLength.toNat = [] := by rw [hkey]; exact List.take_zero
  exact ⟨rfl, hnil, rfl, rfl, rfl, rfl, rfl, rfl⟩

end

/-- The parameters hold the values last accepted after every call of a run exactly when the strings have
no zero and each DNS name ends where the array already has one. -/
theorem setters_keep_values (permanentAddress : Vector UInt8 6) (calls : List Call) :
    ((∀ front, front <+: calls → Agrees (run step (start permanentAddress) front)) ↔
        Meets step Ends (start permanentAddress) calls) ∧
      ∀ sys call, Contained sys call := by
  refine ⟨?_, fun sys call => contained call⟩
  rw [prefix_iff_meets, and_iff_right (agrees_start permanentAddress)]
  have hstep : ∀ s call, Agrees s → (Agrees (step s call) ↔ Ends s call) := fun s call hs => agrees_step hs call
  exact meets_iff_of_inv (fun s call hs => (hstep s call hs).mpr) hstep (agrees_start permanentAddress) calls

/-- A shorter DNS name keeps the end of the longer one. -/
theorem dns_name_keeps_tail :
    ¬∀ calls front, front <+: calls → Agrees (run step (start #v[0, 1, 2, 3, 4, 5]) front) := by
  intro h
  have hdns := (h _ [.dnsSrv 1 (some (bytes "ab"))] (List.prefix_refl _)).dnsName
  revert hdns
  decide

end Setters

end SerialNet.Param
