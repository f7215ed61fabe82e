import Mathlib.Data.List.TakeWhile
import SerialNet.Lib.CStr
import SerialNet.Param.Config

/-!
# Provisioning over the soft access point

`SoftApConfThread` waits for one datagram of 200 bytes, copies an SSID and a
password out of it into two arrays on its stack and hands them to the setters
as strings. The arrays are not cleared first.
-/

namespace SerialNet.Param

open Patch CStr

/-! ## The stack -/

inductive Local where
  | ssid
  | password
deriving DecidableEq, Repr

def Local.size : Local → Nat
  | .ssid => 33
  | .password => 64

/-- Where the arrays lie, in a memory that ends at `ramEnd`. -/
structure Frame where
  base : Local → Nat
  ramEnd : Nat
  apart : base .ssid + 33 ≤ base .password ∨ base .password + 64 ≤ base .ssid
  inRam : ∀ a, base a + a.size ≤ ramEnd

/-- `touched` are the accesses through the arrays and `looked` those to
`recv_data`, each with the number of bytes received. -/
structure SoftAp where
  mem : Nat → UInt8
  sys : CfgParam
  touched : List (Local × Nat)
  looked : List (Nat × Nat)

/-- One turn of the loop: the link status it sees and what `recvfrom` returns, with no bytes on its time-out. -/
structure Recv where
  linkUp : Bool
  bytes : List UInt8
deriving DecidableEq, Repr

def Recv.at (r : Recv) (i : Nat) : UInt8 := r.bytes.getD i 0

/-- How far `for (i = 0; i < 8; i++)` comes. -/
def Recv.header (r : Recv) : Nat := ((List.range 8).takeWhile fun i => r.at i == UInt8.ofNat i).length

def Recv.ssidLen (r : Recv) : Nat := (r.at 8).toNat
def Recv.passwordLen (r : Recv) : Nat := (r.at (9 + r.ssidLen)).toNat
def Recv.ssid (r : Recv) : List UInt8 := (List.range r.ssidLen).map fun j => r.at (9 + j)
def Recv.password (r : Recv) : List UInt8 := (List.range r.passwordLen).map fun j => r.at (9 + r.ssidLen + 1 + j)

section
variable (f : Frame)

/-- `strlen` of an array, which runs on behind it when it holds no zero. -/
def Frame.len (m : Nat → UInt8) (a : Local) : Nat := strlen m (f.base a) (f.ramEnd - f.base a)

/-- The copy loop and `a[j+1] = '\0'` behind it, where `j` has already passed the last character. -/
def Frame.fill (s : SoftAp) (r : Recv) (a : Local) (i : Nat) (data : List UInt8) : SoftAp :=
  { s with
    mem := patch (patch s.mem (f.base a) data) (f.base a + data.length + 1) [0]
    touched := s.touched ++ (List.range data.length ++ [data.length + 1]).map (Prod.mk a)
    looked := s.looked ++ (List.range data.length).map fun j => (i + j, r.bytes.length) }

/-- `strlen(a)` and the first so many bytes, as many as the `UINT8` parameter of a setter holds. -/
def Frame.string (m : Nat → UInt8) (a : Local) : List UInt8 := read m (f.base a) (f.len m a % 256)

/-- `SysParam` after the setters of the loop's end. -/
def Frame.station (sys : CfgParam) (m : Nat → UInt8) : CfgParam :=
  let sys := (infNetModeSet sys 0).2
  let sys := (infSsidSet sys (some (f.string m .ssid))).2
  let sys := (infKeySet sys 0 (f.string m .password)).2
  let sys := (infConTryTimesSet sys 5).2
  sys.setWifi { sys.wifiCfg with encry := 4 }

def Frame.strlenReads (m : Nat → UInt8) (a : Local) : List (Local × Nat) :=
  (List.range (f.len m a + 1)).map (Prod.mk a)

def Frame.connect (s : SoftAp) : SoftAp :=
  { s with
    sys := f.station s.sys s.mem
    touched := s.touched ++ (f.strlenReads s.mem .ssid ++ f.strlenReads s.mem .password) }

/-- One turn of `while(1)`; the flag is `goto END`. -/
def Frame.turn (s : SoftAp) (r : Recv) : SoftAp × Bool :=
  if !r.linkUp then (s, true)
  else if r.bytes.length ≠ 200 then (s, false)
  else
    let s := { s with looked := s.looked ++ (List.range (min (r.header + 1) 8)).map fun i => (i, r.bytes.length) }
    if r.header ≠ 8 then (s, false)
    else
      let s := { s with looked := s.looked ++ [(8, r.bytes.length)] }
      if r.ssidLen > 32 ∨ r.ssidLen = 0 then (s, true)
      else
        let s := f.fill s r .ssid 9 r.ssid
        let s := { s with looked := s.looked ++ [(9 + r.ssidLen, r.bytes.length)] }
        if r.passwordLen > 64 then (s, true)
        else (f.connect (f.fill s r .password (9 + r.ssidLen + 1) r.password), true)

def Frame.clear (s : SoftAp) (a : Local) : SoftAp :=
  { s with
    mem := patch s.mem (f.base a) (List.replicate (f.len s.mem a) 0)
    touched := s.touched ++ f.strlenReads s.mem a }

def Frame.finish (s : SoftAp) : SoftAp := f.clear (f.clear s .ssid) .password

/-- `while(1)` and the end of the thread; no result while it still waits. -/
def Frame.loop (s : SoftAp) : List Recv → Option SoftAp
  | [] => none
  | r :: rs =>
    match f.turn s r with
    | (s, true) => some (f.finish s)
    | (s, false) => Frame.loop s rs

/-- `SysParam` as the thread sets it up before it starts the access point. -/
def softApParam (permanentAddress : Vector UInt8 6) (sys : CfgParam) : CfgParam :=
  let sys := (infNetModeSet sys 2).2
  let sys := { sys with ipCfg := { sys.ipCfg with ip := #v[10, 10, 10, 1] } }
  let sys := sys.setWifi { sys.wifiCfg with encry := 3, authMode := 3 }
  let wifissid := bytes "NL6621-" ++ (permanentAddress.toList.drop 2).flatMap hex2
  let sys := (infSsidSet sys (some wifissid)).2
  (infKeySet sys 0 (bytes "12345678")).2

/-- The thread once its socket is bound, on a stack with any contents. -/
def softApConfThread (permanentAddress : Vector UInt8 6) (sys : CfgParam) (m : Nat → UInt8) (recvs : List Recv) :
    Option SoftAp :=
  f.loop ⟨m, softApParam permanentAddress sys, [], []⟩ recvs

end

def Recv.decides (r : Recv) : Bool := !r.linkUp || (r.bytes.length == 200 && r.header == 8)

/-! ## What the thread is to do -/

/-- A packet with an SSID and a password the setters take, free of zeros. -/
structure Recv.Provides (r : Recv) : Prop where
  linked : r.linkUp = true
  whole : r.bytes.length = 200
  headed : r.bytes.take 8 = [0, 1, 2, 3, 4, 5, 6, 7]
  ssidLen : 1 ≤ r.ssidLen ∧ r.ssidLen ≤ 32
  passwordLen : r.passwordLen ≤ 64
  ssidChars : 0 ∉ r.ssid
  passwordChars : 0 ∉ r.password

def Takes (sys : CfgParam) (r : Recv) : Prop :=
  text sys.wifiCfg.ssid = r.ssid ∧ sys.wifiCfg.keyLength.toNat = r.passwordLen ∧
    sys.wifiCfg.psk.toList.take r.passwordLen = r.password

/-- The thread ended on `r` as it should. -/
structure Settles (r : Recv) (s : SoftAp) : Prop where
  inside : ∀ x ∈ s.touched, x.2 < x.1.size
  received : ∀ x ∈ s.looked, x.1 < x.2
  takes : r.Provides → Takes s.sys r

/-- A zero ends the array's old contents. -/
def Frame.Ended (f : Frame) (m : Nat → UInt8) (a : Local) : Prop := 0 ∈ read m (f.base a) a.size

/-- The link is down, or the packet's SSID is of no length the setter takes. -/
def Recv.Refused (r : Recv) : Prop := r.linkUp = false ∨ r.ssidLen > 32 ∨ r.ssidLen = 0

/-- What the stack must have held: zeros right behind the characters to come, and
some zero in an array that is not filled. -/
def Frame.Clean (f : Frame) (m : Nat → UInt8) (r : Recv) : Prop :=
  (r.Refused → f.Ended m .ssid ∧ f.Ended m .password) ∧
    (¬r.Refused → r.ssidLen ≤ 31 ∧
      (r.passwordLen > 64 → f.Ended m .password) ∧
      (r.passwordLen ≤ 64 → r.passwordLen ≤ 62 ∧ (0 ∉ r.ssid → 0 ∉ r.password →
        m (f.base .ssid + r.ssidLen) = 0 ∧ m (f.base .password + r.passwordLen) = 0)))

/-! ## The arrays -/

section
variable {f : Frame} {m m' : Nat → UInt8} {a b : Local} {s : SoftAp} {r : Recv} {i : Nat} {data : List UInt8}

def Within (l : List (Local × Nat)) : Prop := ∀ x ∈ l, x.2 < x.1.size

theorem within_append {l l' : List (Local × Nat)} : Within (l ++ l') ↔ Within l ∧ Within l' := List.forall_mem_append

theorem within_nil : Within [] := fun _ h => absurd h (List.not_mem_nil)

theorem within_map {l : List Nat} : Within (l.map (Prod.mk a)) ↔ ∀ i ∈ l, i < a.size := List.forall_mem_map

theorem within_fill {n : Nat} : Within ((List.range n ++ [n + 1]).map (Prod.mk a)) ↔ n + 1 < a.size := by
  rw [within_map]
  constructor
  · intro h
    exact h (n + 1) (List.mem_append_right _ List.mem_cons_self)
  · intro h i hi
    rcases List.mem_append.mp hi with hi | hi
    · have := List.mem_range.mp hi
      omega
    · rw [List.mem_singleton.mp hi]
      exact h

theorem within_strlenReads : Within (f.strlenReads m a) ↔ f.Ended m a := by
  have hr := f.inRam a
  rw [Frame.strlenReads, within_map, Frame.Ended, ← strlen_lt_iff (n := f.ramEnd - f.base a) (by omega)]
  constructor
  · intro h
    exact h _ (List.mem_range.mpr (Nat.lt_succ_self _))
  · intro h i hi
    exact Nat.lt_of_le_of_lt (Nat.le_of_lt_succ (List.mem_range.mp hi)) h

def Frame.Same (f : Frame) (a : Local) (m m' : Nat → UInt8) : Prop :=
  ∀ i, i < a.size → m (f.base a + i) = m' (f.base a + i)

theorem ended_same (h : f.Same a m m') : f.Ended m a ↔ f.Ended m' a := by
  rw [Frame.Ended, Frame.Ended, read_congr h]

theorem patch_same {l : List UInt8} {k : Nat} (hab : a ≠ b) (hk : k + l.length ≤ a.size) :
    f.Same b (patch m (f.base a + k) l) m := by
  intro i hi
  have h := f.apart
  apply patch_outside
  cases a <;> cases b
  · exact absurd rfl hab
  · simp only [Local.size] at hk hi
    omega
  · simp only [Local.size] at hk hi
    omega
  · exact absurd rfl hab

theorem fill_same (hab : a ≠ b) (hn : data.length + 1 < a.size) : f.Same b (f.fill s r a i data).mem s.mem := by
  intro j hj
  have h1 := @patch_same f (patch s.mem (f.base a) data) a b [0] (data.length + 1) hab (by simp only [List.length_singleton]; omega) j hj
  have h2 := @patch_same f s.mem a b data 0 hab (by omega) j hj
  exact h1.trans h2

theorem fill_data : read (f.fill s r a i data).mem (f.base a) data.length = data := by
  refine Eq.trans (read_congr fun j hj => ?_) (read_patch (m := s.mem))
  exact patch_below (by omega)

/-- The cell behind the characters keeps what it held. -/
theorem fill_gap : (f.fill s r a i data).mem (f.base a + data.length) = s.mem (f.base a + data.length) :=
  (patch_below (by omega)).trans (patch_above (by omega))

theorem fill_zero : (f.fill s r a i data).mem (f.base a + (data.length + 1)) = 0 :=
  @patch_inside _ _ (f.base a + data.length + 1) [0] 0 (by decide)

theorem fill_ended (hn : data.length + 1 < a.size) : f.Ended (f.fill s r a i data).mem a :=
  mem_read.mpr ⟨data.length + 1, hn, fill_zero⟩

/-- The string in a filled array: the characters alone if the gap held a zero, and one more if not. -/
theorem string_fill (h0 : 0 ∉ data) (hn : data.length + 1 < a.size) (hd : read m (f.base a) data.length = data)
    (hz : m (f.base a + (data.length + 1)) = 0) :
    (m (f.base a + data.length) = 0 → f.string m a = data) ∧
      (m (f.base a + data.length) ≠ 0 → (f.string m a).length = data.length + 1) := by
  have hr := f.inRam a
  have hs : a.size ≤ 64 := by cases a <;> decide
  have hne : ∀ i, i < data.length → m (f.base a + i) ≠ 0 := fun i hi h =>
    h0 (hd ▸ mem_read.mpr ⟨i, hi, h⟩)
  constructor
  · intro hg
    have hl : f.len m a = data.length := strlen_eq hne hg (by omega)
    rw [Frame.string, hl, Nat.mod_eq_of_lt (by omega), hd]
  · intro hg
    have hl : f.len m a = data.length + 1 := by
      refine strlen_eq (fun i hi => ?_) hz (by omega)
      rcases Nat.lt_or_ge i data.length with h | h
      · exact hne i h
      · rw [show i = data.length by omega]
        exact hg
    rw [Frame.string, hl, Nat.mod_eq_of_lt (by omega), length_read]

end

theorem string_no_zero {f : Frame} {m : Nat → UInt8} {a : Local} : 0 ∉ f.string m a := by
  intro h
  obtain ⟨i, hi, hz⟩ := mem_read.mp h
  exact strlen_ne (Nat.lt_of_lt_of_le hi (Nat.mod_le _ _)) hz

/-! ## The setters -/

section
variable {f : Frame} {sys : CfgParam} {m : Nat → UInt8}

theorem station_ssid (h1 : 1 ≤ (f.string m .ssid).length) (h2 : (f.string m .ssid).length ≤ 32) :
    text (f.station sys m).wifiCfg.ssid = f.string m .ssid := by
  have hset : (f.station sys m).wifiCfg.ssid =
      (infSsidSet (infNetModeSet sys 0).2 (some (f.string m .ssid))).2.wifiCfg.ssid := infKeySet_ssid
  rw [hset, infSsidSet_text h1 h2 string_no_zero]

theorem station_key (h : (f.string m .password).length ≤ 64) :
    (f.station sys m).wifiCfg.keyLength.toNat = (f.string m .password).length ∧
      (f.station sys m).wifiCfg.psk.toList.take (f.string m .password).length = f.string m .password :=
  @infKeySet_key (infSsidSet (infNetModeSet sys 0).2 (some (f.string m .ssid))).2 (f.string m .password) 0 (by decide) h

end

/-! ## The turns -/

section
variable {f : Frame} {s : SoftAp} {r : Recv}

def SoftAp.Received (s : SoftAp) : Prop := ∀ x ∈ s.looked, x.1 < x.2

theorem received_append {l : List Nat} (h : s.Received) (hl : ∀ i ∈ l, i < r.bytes.length) :
    ∀ x ∈ s.looked ++ l.map fun i => (i, r.bytes.length), x.1 < x.2 := by
  intro x hx
  rcases List.mem_append.mp hx with hx | hx
  · exact h x hx
  · obtain ⟨i, hi, rfl⟩ := List.mem_map.mp hx
    exact hl i hi

theorem fill_received {a : Local} {i : Nat} {data : List UInt8} (h : s.Received) (hi : i + data.length ≤ r.bytes.length) :
    (f.fill s r a i data).Received := by
  intro x hx
  rcases List.mem_append.mp hx with hx | hx
  · exact h x hx
  · obtain ⟨j, hj, rfl⟩ := List.mem_map.mp hx
    have := List.mem_range.mp hj
    simp only
    omega

theorem ssid_length : r.ssid.length = r.ssidLen := by rw [Recv.ssid, List.length_map, List.length_range]

theorem password_length : r.password.length = r.passwordLen := by rw [Recv.password, List.length_map, List.length_range]

theorem turn_received (h : s.Received) : (f.turn s r).1.Received := by
  rw [Frame.turn]
  split_ifs with hl hb hh hs hp
  · exact h
  · exact h
  · exact received_append h fun i hi => by have := List.mem_range.mp hi; omega
  all_goals
    have h1 : ∀ x ∈ s.looked ++ (List.range (min (r.header + 1) 8)).map fun i => (i, r.bytes.length), x.1 < x.2 :=
      received_append h fun i hi => by have := List.mem_range.mp hi; omega
    have h2 := @received_append { s with looked := _ } r [8] h1 fun i hi => by rw [List.mem_singleton.mp hi]; omega
  · exact h2
  all_goals
    have h3 := @fill_received f { s with looked := _ } r .ssid 9 r.ssid h2 (by rw [ssid_length]; omega)
    have h4 := @received_append _ r [9 + r.ssidLen] h3 fun i hi => by rw [List.mem_singleton.mp hi]; omega
  · exact h4
  · exact @fill_received f { f.fill { s with looked := _ } r .ssid 9 r.ssid with looked := _ } r .password
      (9 + r.ssidLen + 1) r.password h4 (by rw [password_length]; omega)

theorem turn_waits (h : r.decides = false) : f.turn s r = ({ s with looked := (f.turn s r).1.looked }, false) := by
  rw [Recv.decides] at h
  simp only [Bool.or_eq_false_iff, Bool.and_eq_false_iff, beq_eq_false_iff_ne, Bool.not_eq_false'] at h
  rw [Frame.turn]
  split_ifs with hl hb hh hs hp
  · simp [h.1] at hl
  · rfl
  · rfl
  all_goals exact absurd h.2 (by simp only [not_or]; exact ⟨hb, hh⟩)

theorem decides_linked (h : r.decides = true) (hr : ¬r.Refused) :
    r.linkUp = true ∧ r.bytes.length = 200 ∧ r.header = 8 ∧ 1 ≤ r.ssidLen ∧ r.ssidLen ≤ 32 := by
  rw [Recv.Refused, not_or, not_or] at hr
  rw [Recv.decides] at h
  have hl : r.linkUp = true := by simpa using hr.1
  simp only [hl, Bool.not_true, Bool.false_or, Bool.and_eq_true, beq_iff_eq] at h
  exact ⟨hl, h.1, h.2, by omega, by omega⟩

theorem turn_refused (h : r.decides = true) (hr : r.Refused) :
    f.turn s r = ({ s with looked := (f.turn s r).1.looked }, true) := by
  rw [Frame.turn]
  by_cases hl : r.linkUp = true
  · rw [Recv.decides] at h
    simp only [hl, Bool.not_true, Bool.false_or, Bool.and_eq_true, beq_iff_eq] at h
    have hs : r.ssidLen > 32 ∨ r.ssidLen = 0 := by simpa [Recv.Refused, hl] using hr
    simp [hl, h.1, h.2, hs]
  · simp [hl]

theorem turn_long (h : r.decides = true) (hr : ¬r.Refused) (hp : r.passwordLen > 64) :
    f.turn s r = ({ f.fill s r .ssid 9 r.ssid with looked := (f.turn s r).1.looked }, true) := by
  obtain ⟨hl, hb, hh, h1, h2⟩ := decides_linked h hr
  have hs : ¬(r.ssidLen > 32 ∨ r.ssidLen = 0) := by omega
  rw [Frame.turn]
  simp only [hl, hb, hh, hs, hp, Bool.not_true, Bool.false_eq_true, if_false, ne_eq, not_true_eq_false, if_true]
  rfl

theorem turn_accepted (h : r.decides = true) (hr : ¬r.Refused) (hp : ¬r.passwordLen > 64) :
    f.turn s r =
      ({ f.connect (f.fill (f.fill s r .ssid 9 r.ssid) r .password (9 + r.ssidLen + 1) r.password) with
          looked := (f.turn s r).1.looked }, true) := by
  obtain ⟨hl, hb, hh, h1, h2⟩ := decides_linked h hr
  have hs : ¬(r.ssidLen > 32 ∨ r.ssidLen = 0) := by omega
  rw [Frame.turn]
  simp only [hl, hb, hh, hs, hp, Bool.not_true, Bool.false_eq_true, if_false, ne_eq, not_true_eq_false]
  rfl

/-! ## The thread -/

theorem finish_within : Within (f.finish s).touched ↔
    Within s.touched ∧ f.Ended s.mem .ssid ∧ f.Ended s.mem .password := by
  have hsplit : (f.finish s).touched =
      s.touched ++ f.strlenReads s.mem .ssid ++ f.strlenReads (f.clear s .ssid).mem .password := rfl
  rw [hsplit, within_append, within_append, within_strlenReads, within_strlenReads, and_assoc]
  refine and_congr_right fun _ => and_congr_right fun he => ended_same ?_
  have hr := f.inRam .ssid
  have hlen : f.len s.mem .ssid < Local.ssid.size := (strlen_lt_iff (by omega)).mpr he
  exact @patch_same f s.mem .ssid .password _ 0 (by decide) (by rw [List.length_replicate]; omega)

theorem finish_sys : (f.finish s).sys = s.sys := rfl

theorem finish_received (h : s.Received) : (f.finish s).Received := h

/-- The thread waits through every turn that decides nothing and ends at the first that does. -/
theorem loop_decides (recvs : List Recv) (s : SoftAp) (hs : s.Received) (h : recvs.find? Recv.decides = some r) :
    ∃ l, (∀ x ∈ l, x.1 < x.2) ∧ f.loop s recvs = some (f.finish (f.turn { s with looked := l } r).1) := by
  induction recvs generalizing s with
  | nil => cases h
  | cons q recvs ih =>
    rw [Frame.loop]
    cases hq : q.decides with
    | true =>
      rw [List.find?_cons_of_pos hq] at h
      cases h
      refine ⟨s.looked, hs, ?_⟩
      by_cases hr : r.Refused
      · rw [turn_refused hq hr]
      · by_cases hp : r.passwordLen > 64
        · rw [turn_long hq hr hp]
        · rw [turn_accepted hq hr hp]
    | false =>
      rw [List.find?_cons_of_neg (by rw [hq]; decide)] at h
      rw [turn_waits hq]
      exact ih _ (turn_received hs) h

theorem loop_waits (recvs : List Recv) (s : SoftAp) (h : recvs.find? Recv.decides = none) : f.loop s recvs = none := by
  induction recvs generalizing s with
  | nil => rfl
  | cons q recvs ih =>
    rw [List.find?_cons] at h
    cases hq : q.decides with
    | true =>
      rw [hq] at h
      cases h
    | false =>
      rw [hq] at h
      rw [Frame.loop, turn_waits hq]
      exact ih _ h

/-- The header loop runs through exactly when the packet starts with the bytes 0 to 7. -/
theorem header_eq (hb : r.bytes.length = 200) : r.header = 8 ↔ r.bytes.take 8 = [0, 1, 2, 3, 4, 5, 6, 7] := by
  have hall : r.header = 8 ↔ ∀ i ∈ List.range 8, r.at i = UInt8.ofNat i := by
    rw [Recv.header]
    constructor
    · intro h
      have he : (List.range 8).takeWhile (fun i => r.at i == UInt8.ofNat i) = List.range 8 :=
        (List.takeWhile_sublist _).eq_of_length (by rw [h, List.length_range])
      intro i hi
      exact beq_iff_eq.mp (List.takeWhile_eq_self_iff.mp he i hi)
    · intro h
      rw [List.takeWhile_eq_self_iff.mpr fun i hi => beq_iff_eq.mpr (h i hi), List.length_range]
  rw [hall]
  have hdigit : ∀ i, i < 8 → ([0, 1, 2, 3, 4, 5, 6, 7] : List UInt8)[i]? = some (UInt8.ofNat i) := by decide
  have hget : ∀ i, i < 8 → (r.bytes.take 8)[i]? = some (r.at i) := fun i hi => by
    rw [List.getElem?_take_of_lt hi, Recv.at, List.getD_eq_getElem?_getD, List.getElem?_eq_getElem (by omega)]
    rfl
  constructor
  · intro h
    apply List.ext_getElem?
    intro i
    rcases Nat.lt_or_ge i 8 with hi | hi
    · rw [hget i hi, h i (List.mem_range.mpr hi), hdigit i hi]
    · rw [List.getElem?_eq_none (by rw [List.length_take]; omega), List.getElem?_eq_none hi]
  · intro h i hi
    have hi := List.mem_range.mp hi
    exact (Option.some.inj (by rw [← hdigit i hi, ← h, hget i hi])).symm

theorem settles_iff {t : SoftAp} (ht : t.Received) :
    Settles r t ↔ Within t.touched ∧ (r.Provides → Takes t.sys r) :=
  ⟨fun h => ⟨h.inside, h.takes⟩, fun h => ⟨h.1, ht, h.2⟩⟩

theorem not_provides (hr : r.Refused) : ¬r.Provides := by
  intro h
  have := h.ssidLen
  rcases hr with hr | hr
  · rw [h.linked] at hr
    cases hr
  · omega

theorem settles_refused (hr : r.Refused) (h0 : s.touched = []) (hs : s.Received) :
    Settles r (f.finish s) ↔ f.Clean s.mem r := by
  have hclean : f.Clean s.mem r ↔ f.Ended s.mem .ssid ∧ f.Ended s.mem .password := by
    exact ⟨fun h => h.1 hr, fun h => ⟨fun _ => h, fun hn => absurd hr hn⟩⟩
  rw [settles_iff (finish_received hs), finish_within, h0, hclean]
  constructor
  · intro h
    exact h.1.2
  · intro h
    exact ⟨⟨within_nil, h⟩, fun hp => absurd hp (not_provides hr)⟩

theorem settles_long {t : SoftAp} (hr : ¬r.Refused) (hp : r.passwordLen > 64) (h0 : s.touched = [])
    (ht : t.touched = (f.fill s r .ssid 9 r.ssid).touched) (hm : t.mem = (f.fill s r .ssid 9 r.ssid).mem) (hs : t.Received) :
    Settles r (f.finish t) ↔ f.Clean s.mem r := by
  have hclean : f.Clean s.mem r ↔ r.ssidLen ≤ 31 ∧ f.Ended s.mem .password := by
    exact ⟨fun h => ⟨(h.2 hr).1, (h.2 hr).2.1 hp⟩,
      fun h => ⟨fun hn => absurd hn hr, fun _ => ⟨h.1, fun _ => h.2, fun hn => absurd hp (Nat.not_lt.mpr hn)⟩⟩⟩
  have hfill : Within t.touched ↔ r.ssidLen ≤ 31 := by
    rw [ht, Frame.fill, h0, List.nil_append, within_fill, ssid_length, Local.size]
    omega
  rw [settles_iff (finish_received hs), finish_within, hfill, hclean, hm]
  constructor
  · rintro ⟨⟨h1, _, h2⟩, _⟩
    exact ⟨h1, (ended_same (fill_same (by decide) (by rw [ssid_length, Local.size]; omega))).mp h2⟩
  · rintro ⟨h1, h2⟩
    have hlt : r.ssid.length + 1 < Local.ssid.size := by rw [ssid_length, Local.size]; omega
    refine ⟨⟨h1, fill_ended hlt, (ended_same (fill_same (by decide) hlt)).mpr h2⟩, fun hp' => ?_⟩
    have := hp'.passwordLen
    omega

structure Filled (f : Frame) (m m' : Nat → UInt8) (a : Local) (data : List UInt8) : Prop where
  chars : read m' (f.base a) data.length = data
  gap : m' (f.base a + data.length) = m (f.base a + data.length)
  zero : m' (f.base a + (data.length + 1)) = 0

theorem Filled.ended {m m' : Nat → UInt8} {a : Local} {data : List UInt8} (h : Filled f m m' a data)
    (hn : data.length + 1 < a.size) : f.Ended m' a := mem_read.mpr ⟨_, hn, h.zero⟩

theorem filled_fill {a : Local} {i : Nat} {data : List UInt8} : Filled f s.mem (f.fill s r a i data).mem a data :=
  ⟨fill_data, fill_gap, fill_zero⟩

theorem Filled.after {m m' m'' : Nat → UInt8} {a : Local} {data : List UInt8} (h : Filled f m m' a data)
    (hs : f.Same a m'' m') (hn : data.length + 1 < a.size) : Filled f m m'' a data := by
  refine ⟨?_, ?_, ?_⟩
  · rw [read_congr fun i hi => hs i (by omega)]
    exact h.chars
  · rw [hs _ (by omega)]
    exact h.gap
  · rw [hs _ hn]
    exact h.zero

theorem Filled.before {m m' m'' : Nat → UInt8} {a : Local} {data : List UInt8} (h : Filled f m m' a data)
    (hs : f.Same a m m'') (hn : data.length + 1 < a.size) : Filled f m'' m' a data :=
  ⟨h.chars, h.gap.trans (hs _ (by omega)), h.zero⟩

/-- The string is the data exactly when the gap held a zero. -/
theorem Filled.string_iff {m m' : Nat → UInt8} {a : Local} {data : List UInt8} (h : Filled f m m' a data)
    (hn : data.length + 1 < a.size) (h0 : 0 ∉ data) :
    (f.string m' a).length ≤ data.length + 1 ∧
      ((f.string m' a).length = data.length ↔ m (f.base a + data.length) = 0) ∧
      (m (f.base a + data.length) = 0 → f.string m' a = data) := by
  have hs := string_fill h0 hn h.chars h.zero
  rw [h.gap] at hs
  by_cases hg : m (f.base a + data.length) = 0
  · rw [hs.1 hg]
    exact ⟨Nat.le_succ _, ⟨fun _ => hg, fun _ => rfl⟩, fun _ => rfl⟩
  · rw [hs.2 hg]
    exact ⟨Nat.le_refl _, ⟨fun h => by omega, fun h => absurd h hg⟩, fun h => absurd h hg⟩

/-- The setters take what the packet carries exactly when both gaps held a zero. -/
theorem takes_iff {m m' : Nat → UInt8} {sys : CfgParam} (hssid : Filled f m m' .ssid r.ssid)
    (hpass : Filled f m m' .password r.password) (h1 : 1 ≤ r.ssidLen ∧ r.ssidLen ≤ 31) (h2 : r.passwordLen ≤ 62)
    (hs0 : 0 ∉ r.ssid) (hp0 : 0 ∉ r.password) :
    Takes (f.station sys m') r ↔ m (f.base .ssid + r.ssidLen) = 0 ∧ m (f.base .password + r.passwordLen) = 0 := by
  have hs := hssid.string_iff (by rw [ssid_length, Local.size]; omega) hs0
  have hp := hpass.string_iff (by rw [password_length, Local.size]; omega) hp0
  rw [ssid_length] at hs
  rw [password_length] at hp
  have hkey := @station_key f sys m' (by omega)
  constructor
  · rintro ⟨ht, hk, _⟩
    refine ⟨?_, hp.2.1.mp (hkey.1.symm.trans hk)⟩
    by_contra hg
    have hlen : (f.string m' .ssid).length = r.ssidLen + 1 := by
      have h := string_fill hs0 (by rw [ssid_length, Local.size]; omega) hssid.chars hssid.zero
      rw [hssid.gap, ssid_length] at h
      exact h.2 hg
    rw [station_ssid (by omega) (by omega)] at ht
    rw [ht, ssid_length] at hlen
    omega
  · rintro ⟨hg1, hg2⟩
    rw [hp.2.2 hg2, password_length] at hkey
    refine ⟨?_, hkey⟩
    rw [station_ssid (by rw [hs.2.2 hg1, ssid_length]; omega) (by rw [hs.2.2 hg1, ssid_length]; omega), hs.2.2 hg1]

theorem settles_accepted {t : SoftAp} (hd : r.decides = true) (hr : ¬r.Refused) (hp : ¬r.passwordLen > 64)
    (h0 : s.touched = [])
    (ht : t.touched =
      (f.connect (f.fill (f.fill s r .ssid 9 r.ssid) r .password (9 + r.ssidLen + 1) r.password)).touched)
    (hm : t.mem = (f.fill (f.fill s r .ssid 9 r.ssid) r .password (9 + r.ssidLen + 1) r.password).mem)
    (hsys : t.sys = f.station s.sys t.mem) (hs : t.Received) :
    Settles r (f.finish t) ↔ f.Clean s.mem r := by
  obtain ⟨hl, hb, hh, hmin, hmax⟩ := decides_linked hd hr
  have hclean : f.Clean s.mem r ↔ r.ssidLen ≤ 31 ∧ r.passwordLen ≤ 62 ∧ (0 ∉ r.ssid → 0 ∉ r.password →
      s.mem (f.base .ssid + r.ssidLen) = 0 ∧ s.mem (f.base .password + r.passwordLen) = 0) := by
    have hp' := Nat.le_of_not_lt hp
    exact ⟨fun h => ⟨(h.2 hr).1, (h.2 hr).2.2 hp'⟩,
      fun h => ⟨fun hn => absurd hn hr, fun _ => ⟨h.1, fun hn => absurd hn hp, fun _ => h.2⟩⟩⟩
  have hprov : r.Provides ↔ 0 ∉ r.ssid ∧ 0 ∉ r.password :=
    ⟨fun h => ⟨h.ssidChars, h.passwordChars⟩,
      fun h => ⟨hl, hb, (header_eq hb).mp hh, ⟨hmin, hmax⟩, Nat.le_of_not_lt hp, h.1, h.2⟩⟩
  have hfill : Within t.touched ↔ (r.ssidLen ≤ 31 ∧ r.passwordLen ≤ 62) ∧ f.Ended t.mem .ssid ∧ f.Ended t.mem .password := by
    rw [ht, hm]
    simp only [Frame.connect, within_append, within_strlenReads]
    refine and_congr_left fun _ => ?_
    simp only [Frame.fill, h0, List.nil_append, within_append, within_fill, ssid_length, password_length, Local.size]
    omega
  rw [settles_iff (finish_received hs), finish_within, hfill, hclean, finish_sys, hsys, hprov]
  have hssid : r.ssidLen ≤ 31 → r.passwordLen ≤ 62 → Filled f s.mem t.mem .ssid r.ssid := by
    intro h1 h2
    rw [hm]
    have hlt : r.password.length + 1 < Local.password.size := by rw [password_length, Local.size]; omega
    exact Filled.after filled_fill (fill_same (by decide) hlt) (by rw [ssid_length, Local.size]; omega)
  have hpass : r.ssidLen ≤ 31 → r.passwordLen ≤ 62 → Filled f s.mem t.mem .password r.password := by
    intro h1 h2
    rw [hm]
    have hlt : r.ssid.length + 1 < Local.ssid.size := by rw [ssid_length, Local.size]; omega
    exact Filled.before filled_fill (fill_same (by decide) hlt) (by rw [password_length, Local.size]; omega)
  constructor
  · rintro ⟨⟨⟨⟨h1, h2⟩, _⟩, _⟩, htakes⟩
    refine ⟨h1, h2, fun hs0 hp0 => ?_⟩
    exact (takes_iff (hssid h1 h2) (hpass h1 h2) ⟨hmin, h1⟩ h2 hs0 hp0).mp (htakes ⟨hs0, hp0⟩)
  · rintro ⟨h1, h2, hgaps⟩
    have he : f.Ended t.mem .ssid ∧ f.Ended t.mem .password :=
      ⟨(hssid h1 h2).ended (by rw [ssid_length, Local.size]; omega),
        (hpass h1 h2).ended (by rw [password_length, Local.size]; omega)⟩
    refine ⟨⟨⟨⟨h1, h2⟩, he⟩, he⟩, fun h0 => ?_⟩
    exact (takes_iff (hssid h1 h2) (hpass h1 h2) ⟨hmin, h1⟩ h2 h0.1 h0.2).mpr (hgaps h0.1 h0.2)

end

section
variable (f : Frame) (permanentAddress : Vector UInt8 6) (sys : CfgParam) (m : Nat → UInt8) (recvs : List Recv)

/-- The thread ends on the first packet that decides, inside its arrays and with what the packet
carries, exactly when the packet leaves room for the misplaced terminators and the stack held
zeros where they are missing. -/
theorem softAp_provision (r : Recv) (h : recvs.find? Recv.decides = some r) :
    (∃ s, softApConfThread f permanentAddress sys m recvs = some s ∧ Settles r s) ↔ f.Clean m r := by
  obtain ⟨l, hl, hloop⟩ := loop_decides recvs ⟨m, softApParam permanentAddress sys, [], []⟩ (fun _ h => by cases h) h
  have hd : r.decides = true := List.find?_some h
  rw [softApConfThread, hloop]
  simp only [Option.some.injEq, exists_eq_left']
  have hrec := turn_received (f := f) (r := r) (s := ⟨m, softApParam permanentAddress sys, [], l⟩) hl
  by_cases hr : r.Refused
  · rw [turn_refused hd hr] at hrec ⊢
    exact settles_refused hr rfl hrec
  · by_cases hp : r.passwordLen > 64
    · rw [turn_long hd hr hp] at hrec ⊢
      exact @settles_long f ⟨m, softApParam permanentAddress sys, [], l⟩ r _ hr hp rfl rfl rfl hrec
    · rw [turn_accepted hd hr hp] at hrec ⊢
      exact @settles_accepted f ⟨m, softApParam permanentAddress sys, [], l⟩ r _ hd hr hp rfl rfl rfl rfl hrec

end

/-- A stack with the password right above the SSID. -/
def smallFrame : Frame where
  base
    | .ssid => 0
    | .password => 33
  ramEnd := 97
  apart := .inl (by decide)
  inRam a := by cases a <;> decide

def homePacket : Recv :=
  ⟨true, [0, 1, 2, 3, 4, 5, 6, 7, 4] ++ bytes "home" ++ [8] ++ bytes "12345678" ++ List.replicate 178 0⟩

theorem homePacket_length : homePacket.bytes.length = 200 := by
  simp only [homePacket, List.length_append, List.length_replicate]
  rfl

theorem homePacket_decides : homePacket.decides = true := by
  simp only [Recv.decides, homePacket_length]
  rfl

theorem homePacket_provides : homePacket.Provides :=
  ⟨rfl, homePacket_length, by decide, by decide, by decide, by decide, by decide⟩

theorem softAp_provision_home :
    ∃ s, softApConfThread smallFrame zeros .zero (fun _ => 0) [homePacket] = some s ∧ Settles homePacket s :=
  (softAp_provision smallFrame zeros .zero (fun _ => 0) [homePacket] homePacket (List.find?_cons_of_pos homePacket_decides)).mpr
    ⟨fun h => absurd h (by unfold Recv.Refused; decide), fun _ =>
      ⟨by decide, fun h => absurd h (by decide), fun _ => ⟨by decide, fun _ _ => ⟨rfl, rfl⟩⟩⟩⟩

set_option maxRecDepth 20000 in
/-- On a stack of ones the SSID gets a fifth character. -/
theorem softAp_keeps_gap : homePacket.Provides ∧
    (softApConfThread smallFrame zeros .zero (fun _ => 1) [homePacket]).map (fun s => text s.sys.wifiCfg.ssid) =
      some (bytes "home" ++ [1]) ∧
    ¬∃ s, softApConfThread smallFrame zeros .zero (fun _ => 1) [homePacket] = some s ∧ Settles homePacket s := by
  have hrun : (softApConfThread smallFrame zeros .zero (fun _ => 1) [homePacket]).map
      (fun s => text s.sys.wifiCfg.ssid) = some (bytes "home" ++ [1]) := by rfl
  refine ⟨homePacket_provides, hrun, fun ⟨s, hs, hset⟩ => ?_⟩
  rw [hs, Option.map_some, (hset.takes homePacket_provides).1] at hrun
  exact absurd hrun (by decide)

section
variable (f : Frame) (permanentAddress : Vector UInt8 6) (sys : CfgParam) (m : Nat → UInt8) (recvs : List Recv)

/-- Until then it waits. -/
theorem softAp_waits (h : recvs.find? Recv.decides = none) :
    softApConfThread f permanentAddress sys m recvs = none := loop_waits recvs _ h

end

end SerialNet.Param
