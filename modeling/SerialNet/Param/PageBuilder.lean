import SerialNet.Param.PageFields
import SerialNet.Param.Subst
import Mathlib.Data.List.TakeWhile

/-!
# The page builders

The builders of `http_builder.c` for the status, Wi-Fi and serial pages, each
a chain of substitutions with hand-counted lengths.
-/

namespace SerialNet.Param

open Patch Weave

/-! ## Printed numbers -/

/-- `%d` of a number that is not negative. -/
def digits (n : Nat) : List UInt8 := (Nat.toDigits 10 n).map fun c => UInt8.ofNat c.toNat

def digitsInt : Int → List UInt8
  | .ofNat n => digits n
  | .negSucc n => 45 :: digits (n + 1)

def xdigit (b : UInt8) : UInt8 := if b < 10 then 48 + b else 87 + b

def hex (b : UInt8) : List UInt8 := if b < 16 then [xdigit b] else [xdigit (b / 16), xdigit (b % 16)]

def hex02 (b : UInt8) : List UInt8 := [xdigit (b / 16), xdigit (b % 16)]

def utoa (val : Nat) : List UInt8 :=
  if val < 10 then [UInt8.ofNat (48 + val)] else utoa (val / 10) ++ utoa (val % 10)
termination_by val

theorem utoa_eq (n : Nat) : utoa n = digits n := by
  induction n using Nat.strongRecOn with
  | ind n ih =>
    have hdigit : ∀ k, k < 10 → UInt8.ofNat (48 + k) = UInt8.ofNat k.digitChar.toNat := by decide
    rw [utoa, digits, Nat.toDigits_eq_if (by decide)]
    by_cases h : n < 10
    · rw [if_pos h, if_pos h, hdigit n h]
      rfl
    · rw [if_neg h, if_neg h, ih _ (by omega), ih _ (by omega), List.map_append]
      congr 1
      rw [digits, Nat.toDigits_of_lt_base (by omega)]

/-! ## html_rebuild_sysstatus -/

def fwVerNum : Vector UInt8 3 := #v[0x01, 0x13, 0x00]

def atVerNum : Vector UInt8 3 := #v[0x01, 0x04, 0x00]

def version (v : Vector UInt8 3) : List UInt8 := hex v[0] ++ 46 :: hex02 v[1] ++ 46 :: hex02 v[2]

def macText (mac : Vector UInt8 6) : List UInt8 :=
  [58].intercalate (mac.toList.map hex02)

theorem macText_eq (mac : Vector UInt8 6) : ∃ a b c d e f, macText mac =
    hex02 a ++ 58 :: hex02 b ++ 58 :: hex02 c ++ 58 :: hex02 d ++ 58 :: hex02 e ++ 58 :: hex02 f := by
  obtain ⟨⟨l⟩, hl⟩ := mac
  match l, hl with
  | [a, b, c, d, e, f], _ => exact ⟨a, b, c, d, e, f, by simp [macText, List.intercalate]⟩

/-- A text behind its title: `datalen` loses the title only. -/
def status (title : String) (move : Nat) (value : List UInt8) : Step := fun _ =>
  { marker := bytes title
    form := some (bytes title ++ 32 :: value)
    move := move
    count := (bytes title).length
    scratch := none }

def sysstatusSteps (ip : Vector UInt8 4) (mac : Vector UInt8 6) : List Step :=
  [status "SDK Version:" 20 (version fwVerNum), status "SerialNet Version:" 26 (version atVerNum),
   status "IP ADDR:" (9 + (inetNtoa ip).length) (inetNtoa ip), status "MAC ADDR:" 27 (macText mac)]

def htmlRebuildSysstatus (ip : Vector UInt8 4) (mac : Vector UInt8 6) :
    (Nat → UInt8) → List UInt8 → UInt32 → Option (Writer × UInt32) := rebuild (sysstatusSteps ip mac) []

/-! ## html_rebuild_wifibase -/

/-- `"%s %s"` of the text found and the default mark. -/
def markDefault (mark : String) (valuestr : List UInt8) : Subst where
  marker := valuestr
  form := some (valuestr ++ 32 :: bytes mark)
  move := valuestr.length + (bytes mark).length + 1
  count := valuestr.length + (bytes mark).length + 1
  scratch := none

def select (n : UInt8) : Step := fun _ => markDefault " selected=\"true\"" (selectOption n)

/-- A value behind `name="..." value="`, whose length is `count`. -/
def input (name : String) (count : Nat) (value : Option (List UInt8)) : Step := fun _ =>
  { marker := inputValue name
    form := value.map (inputValue name ++ ·)
    move := count + (value.getD []).length
    count := count + (value.getD []).length
    scratch := none }

def wifibaseSteps (u : UserCfgParam) : List Step :=
  let w := u.cfg.wifiCfg
  let ip := u.cfg.ipCfg
  let web := u.webIpCfg
  [select w.protocol, select w.encry, select w.authMode,
   input "apssid" 21 (byMode w.protocol (arrayStr u.webSsid) (arrayStr w.ssid)),
   input "apkey" 20 (byMode w.protocol (arrayStr u.webKey) (pskStr w)),
   input "apipaddr" 23 (byMode w.protocol (some (inetNtoa web.ip)) (some (inetNtoa ip.ip))),
   input "apnetmask" 24 (byMode w.protocol (some (inetNtoa web.netmask)) (some (inetNtoa ip.netmask))),
   select w.channel,
   input "stassid" 22 (byMode w.protocol (arrayStr w.ssid) (arrayStr u.webSsid)),
   input "stakey" 21 (byMode w.protocol (pskStr w) (arrayStr u.webKey)),
   select ip.bDhcp,
   input "staipaddr" 24 (byMode w.protocol (some (inetNtoa ip.ip)) (some (inetNtoa web.ip))),
   input "stanetmask" 25 (byMode w.protocol (some (inetNtoa ip.netmask)) (some (inetNtoa web.netmask))),
   input "gateway" 22 (some (inetNtoa web.gateWay)), input "dnsserv" 22 (some (inetNtoa web.dns))]

/-- `html_rebuild_wifibase`, in memory. -/
def rebuildWifibase (u : UserCfgParam) : (Nat → UInt8) → List UInt8 → UInt32 → Option (Writer × UInt32) :=
  rebuild (wifibaseSteps u) []

/-! ## html_rebuild_wifinet -/

def addrBytes (a : UInt32) : Vector UInt8 4 := ip4Addr a

/-- The option of the baud rate, printed as an `int`. -/
def baudOption (baudrate : UInt32) : List UInt8 :=
  bytes "option value=\"" ++ digitsInt baudrate.toBitVec.toInt ++ bytes "\""

/-- A number behind `name="..." value="`; its length is that of `itoa`, which leaves the number in `digital`. -/
def numberInput (name : String) (count n : Nat) : Step := fun _ =>
  { marker := inputValue name
    form := some (inputValue name ++ digits n)
    move := count + (utoa n).length
    count := count + (utoa n).length
    scratch := some (utoa n) }

/-- What `valuestr` points to: it is left as it was for any other value. -/
def valuestr (value : Int) (value0 value1 : String) (before : List UInt8 → List UInt8) : List UInt8 → List UInt8 :=
  if value = 0 then fun _ => bytes value0 else if value = 1 then fun _ => bytes value1 else before

def radio (text : List UInt8 → List UInt8) : Step := fun digital => markDefault " checked=\"checked\" " (text digital)

def wifinetSteps (u : UserCfgParam) (wlWorkmode : Int) : List Step :=
  let workmode := valuestr wlWorkmode "name=\"workmode\" value=\"0\"" "name=\"workmode\" value=\"1\"" id
  let socktype := valuestr u.socketProtocol.toNat "name=\"socktype\" value=\"0\"" "name=\"socktype\" value=\"1\"" workmode
  let conntype := valuestr u.socketType.toNat "name=\"conntype\" value=\"0\"" "name=\"conntype\" value=\"1\"" socktype
  [fun digital => markDefault " selected=\"true\"" digital,
   numberInput "framelen" 23 u.frameLength.toNat, numberInput "frametime" 24 u.frameGap.toNat,
   radio workmode, radio socktype, radio conntype,
   input "remoteip" 23 (some (inetNtoa (addrBytes u.remoteCommIp))), numberInput "port" 19 u.socketPort.toNat]

def htmlRebuildWifinet (u : UserCfgParam) (wlWorkmode : Int) :
    (Nat → UInt8) → List UInt8 → UInt32 → Option (Writer × UInt32) :=
  rebuild (wifinetSteps u wlWorkmode) (baudOption u.baudrate)

/-! ## The counts -/

theorem markDefault_exact (mark : String) (text : List UInt8) : (markDefault mark text).Exact where
  move := fun form hf => by
    cases hf
    simp only [markDefault, List.length_append, List.length_cons]
    omega
  count := rfl
  marker := by
    simp only [markDefault]
    omega

theorem input_exact {name : String} {count : Nat} (h : (inputValue name).length = count) (value : Option (List UInt8))
    (x : List UInt8) : (input name count value x).Exact where
  move := fun form hf => by
    obtain ⟨v, rfl, rfl⟩ := Option.map_eq_some_iff.mp hf
    simp only [input, Option.getD_some, List.length_append, h]
  count := rfl
  marker := by
    simp only [input, h]
    omega

theorem numberInput_exact {name : String} {count : Nat} (h : (inputValue name).length = count) (n : Nat) (x : List UInt8) :
    (numberInput name count n x).Exact where
  move := fun form hf => by
    cases hf
    simp only [numberInput, List.length_append, h, utoa_eq]
  count := rfl
  marker := by
    simp only [numberInput, h]
    omega

theorem wifibase_exact (u : UserCfgParam) : ∀ step ∈ wifibaseSteps u, ∀ x, (step x).Exact := by
  simp only [wifibaseSteps, List.forall_mem_cons]
  exact ⟨fun _ => markDefault_exact .., fun _ => markDefault_exact .., fun _ => markDefault_exact ..,
    input_exact (by decide) _, input_exact (by decide) _, input_exact (by decide) _, input_exact (by decide) _,
    fun _ => markDefault_exact .., input_exact (by decide) _, input_exact (by decide) _,
    fun _ => markDefault_exact .., input_exact (by decide) _, input_exact (by decide) _, input_exact (by decide) _,
    input_exact (by decide) _, nofun⟩

theorem wifinet_exact (u : UserCfgParam) (wlWorkmode : Int) : ∀ step ∈ wifinetSteps u wlWorkmode, ∀ x, (step x).Exact := by
  simp only [wifinetSteps, List.forall_mem_cons]
  exact ⟨fun _ => markDefault_exact .., numberInput_exact (by decide) _, numberInput_exact (by decide) _,
    fun _ => markDefault_exact .., fun _ => markDefault_exact .., fun _ => markDefault_exact .., input_exact (by decide) _,
    numberInput_exact (by decide) _, nofun⟩

/-- `dst` steps behind the text, `datalen` loses the title alone. -/
structure Titled (s : Subst) : Prop where
  form : ∃ form, s.form = some form ∧ s.move = form.length
  count : s.count = s.marker.length
  short : s.count < s.move

theorem Titled.sound {s : Subst} (h : Titled s) : s.Sound where
  move := fun form hf => by
    obtain ⟨form', hform, hmove⟩ := h.form
    rw [hform] at hf
    cases hf
    exact Nat.le_of_eq hmove
  count := Nat.le_of_lt h.short

theorem status_titled {title : String} {move : Nat} {value : List UInt8}
    (h : move = (bytes title).length + (value.length + 1)) (x : List UInt8) : Titled (status title move value x) where
  form := ⟨_, rfl, by
    rw [List.length_append, List.length_cons]
    exact h⟩
  count := rfl
  short := by
    simp only [status]
    omega

theorem sysstatus_titled (ip : Vector UInt8 4) (mac : Vector UInt8 6) :
    ∀ step ∈ sysstatusSteps ip mac, ∀ x, Titled (step x) := by
  simp only [sysstatusSteps, List.forall_mem_cons]
  refine ⟨status_titled (by decide), status_titled (by decide), status_titled ?_, status_titled ?_, nofun⟩
  · rw [show (bytes "IP ADDR:").length = 8 by decide]
    omega
  · obtain ⟨a, b, c, d, e, g, hmac⟩ := macText_eq mac
    rw [show (bytes "MAC ADDR:").length = 9 by decide, hmac]
    rfl

/-! ## The printed texts -/

theorem digits_clean (n : Nat) : 0 ∉ digits n := by
  intro h
  obtain ⟨c, hc, h0⟩ := List.mem_map.mp h
  have hdigit := Nat.isDigit_of_mem_toDigits (by decide) (by decide) hc
  rw [Char.isDigit, Bool.and_eq_true, decide_eq_true_eq, decide_eq_true_eq] at hdigit
  have hlow : 48 ≤ c.toNat := hdigit.1
  have hhigh : c.toNat ≤ 57 := hdigit.2
  have hval := congrArg UInt8.toNat h0
  rw [UInt8.toNat_ofNat', Nat.mod_eq_of_lt (by omega)] at hval
  rw [hval] at hlow
  exact absurd hlow (by decide)

theorem digitsInt_clean (i : Int) : 0 ∉ digitsInt i := by
  cases i with
  | ofNat n => exact digits_clean n
  | negSucc n =>
    intro h
    rcases List.mem_cons.mp h with h | h
    · exact absurd h (by decide)
    · exact digits_clean (n + 1) h

theorem dec_clean (b : UInt8) : 0 ∉ dec b := by
  revert b
  apply forall_byte
  decide +kernel

theorem inetNtoa_clean (ip : Vector UInt8 4) : 0 ∉ inetNtoa ip := by
  obtain ⟨a, b, c, d, hbytes⟩ := toList_four ip
  rw [inetNtoa_toList hbytes]
  simp [dec_clean]

theorem arrayStr_clean {n : Nat} {v : Vector UInt8 n} {t : List UInt8} (h : arrayStr v = some t) : 0 ∉ t := by
  rw [arrayStr] at h
  split at h
  · cases h
    intro h0
    simpa using List.mem_takeWhile_imp h0
  · cases h

theorem pskStr_clean {w : WifiCfg} {t : List UInt8} (h : pskStr w = some t) : 0 ∉ t := by
  rw [pskStr] at h
  split at h
  · cases h
    intro h0
    simpa using List.mem_takeWhile_imp h0
  · split at h
    · cases h
      assumption
    · cases h

theorem byMode_clean {protocol : UInt8} {sta softap : Option (List UInt8)} (hsta : ∀ t, sta = some t → 0 ∉ t)
    (hsoftap : ∀ t, softap = some t → 0 ∉ t) : ∀ t, byMode protocol sta softap = some t → 0 ∉ t := by
  intro t h
  rw [byMode] at h
  split at h
  · exact hsta t h
  · split at h
    · exact hsoftap t h
    · cases h

theorem xdigit_clean (b : UInt8) : xdigit (b / 16) ≠ 0 ∧ xdigit (b % 16) ≠ 0 ∧ (b < 16 → xdigit b ≠ 0) := by
  revert b
  apply forall_byte
  decide +kernel

theorem hex02_clean (b : UInt8) : 0 ∉ hex02 b := by
  simp [hex02, Ne.symm (xdigit_clean b).1, Ne.symm (xdigit_clean b).2.1]

theorem status_clean {title : String} {move : Nat} {value : List UInt8} (hne : bytes title ≠ []) (htitle : 0 ∉ bytes title)
    (hvalue : 0 ∉ value) (x : List UInt8) : (status title move value x).Clean where
  marker := hne
  shown := fun form hf => by
    cases hf
    exact ⟨List.prefix_append _ _, by simp [htitle, hvalue]⟩

theorem sysstatus_clean (ip : Vector UInt8 4) (mac : Vector UInt8 6) :
    ∀ step ∈ sysstatusSteps ip mac, ∀ x, (step x).Clean := by
  have hmac : 0 ∉ macText mac := by
    obtain ⟨a, b, c, d, e, g, hmac⟩ := macText_eq mac
    rw [hmac]
    simp [hex02_clean]
  simp only [sysstatusSteps, List.forall_mem_cons]
  exact ⟨status_clean (by decide) (by decide) (by decide), status_clean (by decide) (by decide) (by decide),
    status_clean (by decide) (by decide) (inetNtoa_clean ip), status_clean (by decide) (by decide) hmac, nofun⟩

theorem markDefault_clean {mark : String} {text : List UInt8} (hmark : 0 ∉ bytes mark) (htext : text ≠ [] ∧ 0 ∉ text) :
    (markDefault mark text).Clean where
  marker := htext.1
  shown := fun form hf => by
    cases hf
    exact ⟨List.prefix_append _ _, by simp [htext.2, hmark]⟩

theorem select_clean (n : UInt8) (x : List UInt8) : (select n x).Clean := by
  have hoption : bytes "option value=\"" ≠ [] ∧ 0 ∉ bytes "option value=\"" := by decide
  refine markDefault_clean (by decide) ⟨?_, ?_⟩
  · simp [selectOption, hoption.1]
  · simp [selectOption, dec_clean, hoption.2, show 0 ∉ bytes "\"" by decide]

theorem input_clean {name : String} {count : Nat} {value : Option (List UInt8)}
    (hname : inputValue name ≠ [] ∧ 0 ∉ inputValue name) (hv : ∀ t, value = some t → 0 ∉ t) (x : List UInt8) :
    (input name count value x).Clean where
  marker := hname.1
  shown := fun form hf => by
    obtain ⟨v, hvalue, rfl⟩ := Option.map_eq_some_iff.mp hf
    exact ⟨List.prefix_append _ _, by simp [hname.2, hv v hvalue]⟩

theorem numberInput_clean {name : String} {count n : Nat} (hname : inputValue name ≠ [] ∧ 0 ∉ inputValue name)
    (x : List UInt8) : (numberInput name count n x).Clean where
  marker := hname.1
  shown := fun form hf => by
    cases hf
    exact ⟨List.prefix_append _ _, by simp [hname.2, digits_clean]⟩

theorem some_clean {t : List UInt8} (h : 0 ∉ t) : ∀ t', some t = some t' → 0 ∉ t' := fun _ he => by
  cases he
  exact h

theorem wifibase_clean (u : UserCfgParam) : ∀ step ∈ wifibaseSteps u, ∀ x, (step x).Clean := by
  have hip : ∀ ip, ∀ t, some (inetNtoa ip) = some t → 0 ∉ t := fun ip => some_clean (inetNtoa_clean ip)
  have harray : ∀ {n : Nat} (v : Vector UInt8 n), ∀ t, arrayStr v = some t → 0 ∉ t := fun _ _ => arrayStr_clean
  have hpsk : ∀ w, ∀ t, pskStr w = some t → 0 ∉ t := fun _ _ => pskStr_clean
  simp only [wifibaseSteps, List.forall_mem_cons]
  exact ⟨select_clean _, select_clean _, select_clean _, input_clean (by decide) (byMode_clean (harray _) (harray _)),
    input_clean (by decide) (byMode_clean (harray _) (hpsk _)), input_clean (by decide) (byMode_clean (hip _) (hip _)),
    input_clean (by decide) (byMode_clean (hip _) (hip _)), select_clean _,
    input_clean (by decide) (byMode_clean (harray _) (harray _)), input_clean (by decide) (byMode_clean (hpsk _) (harray _)),
    select_clean _, input_clean (by decide) (byMode_clean (hip _) (hip _)),
    input_clean (by decide) (byMode_clean (hip _) (hip _)), input_clean (by decide) (hip _),
    input_clean (by decide) (hip _), nofun⟩

def Legible (x : List UInt8) : Prop := x ≠ [] ∧ 0 ∉ x

theorem valuestr_legible {value : Int} {value0 value1 : String} {before : List UInt8 → List UInt8} {x : List UInt8}
    (h0 : bytes value0 ≠ [] ∧ 0 ∉ bytes value0) (h1 : bytes value1 ≠ [] ∧ 0 ∉ bytes value1) (hb : Legible (before x)) :
    Legible (valuestr value value0 value1 before x) := by
  unfold valuestr
  split
  · exact h0
  · split
    · exact h1
    · exact hb

theorem digits_legible (n : Nat) : Legible (digits n) :=
  ⟨fun h => Nat.toDigits_ne_nil (List.map_eq_nil_iff.mp h), digits_clean n⟩

theorem numberInput_legible {name : String} {count n : Nat} (hname : inputValue name ≠ [] ∧ 0 ∉ inputValue name)
    (x : List UInt8) : (numberInput name count n x).Clean ∧ Legible ((numberInput name count n x).scratch.getD x) :=
  ⟨numberInput_clean hname x, by
    show Legible (utoa n)
    rw [utoa_eq]
    exact digits_legible n⟩

theorem wifinet_clean (u : UserCfgParam) (wlWorkmode : Int) : ∀ step ∈ wifinetSteps u wlWorkmode, ∀ x, Legible x →
    (step x).Clean ∧ Legible ((step x).scratch.getD x) := by
  have hselect : 0 ∉ bytes " selected=\"true\"" := by decide
  have hradio : 0 ∉ bytes " checked=\"checked\" " := by decide
  simp only [wifinetSteps, List.forall_mem_cons]
  refine ⟨fun x hx => ⟨markDefault_clean hselect hx, hx⟩, fun x _ => numberInput_legible (by decide) x,
    fun x _ => numberInput_legible (by decide) x, fun x hx => ⟨markDefault_clean hradio ?_, hx⟩,
    fun x hx => ⟨markDefault_clean hradio ?_, hx⟩, fun x hx => ⟨markDefault_clean hradio ?_, hx⟩,
    fun x hx => ⟨input_clean (by decide) (some_clean (inetNtoa_clean _)) x, hx⟩,
    fun x _ => numberInput_legible (by decide) x, nofun⟩
  · exact valuestr_legible (by decide) (by decide) hx
  · exact valuestr_legible (by decide) (by decide) (valuestr_legible (by decide) (by decide) hx)
  · exact valuestr_legible (by decide) (by decide)
      (valuestr_legible (by decide) (by decide) (valuestr_legible (by decide) (by decide) hx))

theorem baudOption_legible (baudrate : UInt32) : Legible (baudOption baudrate) := by
  have hoption : bytes "option value=\"" ≠ [] ∧ 0 ∉ bytes "option value=\"" := by decide
  refine ⟨?_, ?_⟩
  · simp [baudOption, hoption.1]
  · simp [baudOption, digitsInt_clean, hoption.2, show 0 ∉ bytes "\"" by decide]

/-! ## The page of the Wi-Fi settings as a text -/

structure Buffers (w : Writer) (b : Build) : Prop where
  mem : Holds w.mem 0 b.dst
  dst : w.dst = b.dst.length
  mainstr : w.mainstr = b.mainstr
  datalen : w.datalen = b.datalen

def Puts (step : Step) (p : List UInt8 × List UInt8) : Prop :=
  ∀ x, (step x).Exact ∧ (step x).marker = p.1 ∧ (step x).form = some (p.1 ++ p.2)

theorem insert_buffers {w : Writer} {b : Build} {step : Step} {p : List UInt8 × List UInt8} (h : Buffers w b)
    (hp : Puts step p) : ∃ w', w.insert (step w.digital) = some w' ∧ Buffers w' (b.insert p.1 p.2) := by
  obtain ⟨hexact, hmarker, hform⟩ := hp w.digital
  have hmove : (step w.digital).move = p.1.length + p.2.length := by
    rw [hexact.move _ hform, List.length_append]
  rw [Writer.insert, Build.insert, hmarker, h.mainstr]
  cases nustrstr p.1 b.mainstr with
  | none => exact ⟨w, rfl, h⟩
  | some q =>
    obtain ⟨before, after⟩ := q
    rw [hform]
    refine ⟨_, rfl, ?_, ?_, rfl, ?_⟩
    · have hprinted := @holds_extend _ (before ++ (p.1 ++ p.2 ++ [0])) _ h.mem
      have hsplit : b.dst ++ (before ++ (p.1 ++ p.2 ++ [0])) = b.dst ++ (before ++ p.1 ++ p.2) ++ [0] := by
        simp only [List.append_assoc]
      dsimp only
      rw [h.dst, ← patch_append]
      rw [hsplit] at hprinted
      exact (holds_append.mp hprinted).1
    · simp only [h.dst, hmove, List.length_append]
      omega
    · simp only [h.datalen, hexact.count, hmove]

theorem run_buffers {steps : List Step} {values : List (List UInt8 × List UInt8)} (hv : List.Forall₂ Puts steps values) :
    ∀ {w : Writer} {b : Build}, Buffers w b →
      ∃ w', w.run steps = some w' ∧ Buffers w' (values.foldl (fun b p => b.insert p.1 p.2) b) := by
  induction hv with
  | nil => exact fun h => ⟨_, rfl, h⟩
  | cons hp _ ih =>
    intro w b h
    obtain ⟨w₁, hw₁, h₁⟩ := insert_buffers h hp
    rw [Writer.run, hw₁]
    exact ih h₁

/-- The markers of the Wi-Fi page with what is put behind each. -/
def pageValues (w : WifiCfg) (bDhcp : UInt8) (s : Slots) : List (List UInt8 × List UInt8) :=
  let check := fun n => (selectOption n, 32 :: selectCheckDefault)
  [check w.protocol, check w.encry, check w.authMode, (inputValue "apssid", s.apssid), (inputValue "apkey", s.apkey),
   (inputValue "apipaddr", s.apipaddr), (inputValue "apnetmask", s.apnetmask), check w.channel,
   (inputValue "stassid", s.stassid), (inputValue "stakey", s.stakey), check bDhcp, (inputValue "staipaddr", s.staipaddr),
   (inputValue "stanetmask", s.stanetmask), (inputValue "gateway", s.gateway), (inputValue "dnsserv", s.dnsserv)]

theorem pageBuild_values (w : WifiCfg) (bDhcp : UInt8) (s : Slots) (src : List UInt8) (len : UInt32) :
    pageBuild w bDhcp s src len = (pageValues w bDhcp s).foldl (fun b p => b.insert p.1 p.2) ⟨[], src, len⟩ := by
  simp only [pageValues, List.foldl_cons, List.foldl_nil]
  simp only [pageBuild, Build.check, Build.fill]

theorem select_puts (n : UInt8) : Puts (select n) (selectOption n, 32 :: selectCheckDefault) := fun _ =>
  ⟨markDefault_exact .., rfl, rfl⟩

theorem input_puts {name : String} {count : Nat} {value : Option (List UInt8)} {v : List UInt8} (hv : value = some v)
    (hc : (inputValue name).length = count) : Puts (input name count value) (inputValue name, v) := fun x =>
  ⟨input_exact hc _ x, rfl, by rw [hv]; rfl⟩

theorem slots_puts {u : UserCfgParam} {s : Slots} (h : slots u = some s) :
    List.Forall₂ Puts (wifibaseSteps u) (pageValues u.cfg.wifiCfg u.cfg.ipCfg.bDhcp s) := by
  simp only [slots, Option.bind_eq_bind, Option.bind_eq_some_iff, Option.pure_def, Option.some.injEq] at h
  obtain ⟨v₁, h₁, v₂, h₂, v₃, h₃, v₄, h₄, v₅, h₅, v₆, h₆, v₇, h₇, v₈, h₈, rfl⟩ := h
  exact .cons (select_puts _) (.cons (select_puts _) (.cons (select_puts _) (.cons (input_puts h₁ (by decide))
    (.cons (input_puts h₂ (by decide)) (.cons (input_puts h₃ (by decide)) (.cons (input_puts h₄ (by decide))
    (.cons (select_puts _) (.cons (input_puts h₅ (by decide)) (.cons (input_puts h₆ (by decide))
    (.cons (select_puts _) (.cons (input_puts h₇ (by decide)) (.cons (input_puts h₈ (by decide))
    (.cons (input_puts rfl (by decide)) (.cons (input_puts rfl (by decide)) .nil))))))))))))))

/-- What `htmlRebuildWifibase` gives is what is in the buffer. -/
theorem rebuildWifibase_text {u : UserCfgParam} {src page : List UInt8} {len n : UInt32} (m : Nat → UInt8)
    (h : htmlRebuildWifibase u src len = some (page, n)) :
    ∃ w, rebuildWifibase u m src len = some (w, n) ∧ Holds w.mem 0 page ∧ w.dst = page.length := by
  rw [rebuild_slots] at h
  obtain ⟨s, hs, he⟩ := Option.map_eq_some_iff.mp h
  have hstart : Buffers ⟨m, 0, 0, src, len, []⟩ ⟨[], src, len⟩ := ⟨fun _ hi => absurd hi (Nat.not_lt_zero _), rfl, rfl, rfl⟩
  obtain ⟨w, hw, hb⟩ := run_buffers (slots_puts hs) hstart
  rw [← pageBuild_values] at hb
  rw [rebuildWifibase, rebuild, hw, Option.map_some]
  generalize pageBuild u.cfg.wifiCfg u.cfg.ipCfg.bDhcp s src len = b at he hb
  obtain ⟨rfl, rfl⟩ := Prod.mk.inj he
  refine ⟨_, congrArg some (Prod.ext rfl ?_), ?_, ?_⟩
  · rw [Writer.finish, hb.datalen, hb.mainstr]
  · rw [Writer.finish, hb.datalen, hb.mainstr, hb.dst]
    exact holds_extend hb.mem
  · rw [Writer.finish, hb.datalen, hb.mainstr, hb.dst, List.length_append]

/-! ## The builders -/

/-- The mode is one the Wi-Fi page knows, and the strings end: a key of 64
characters does if `WscEn` behind it is 0. -/
structure Readable (u : UserCfgParam) : Prop where
  mode : u.cfg.wifiCfg.protocol = 0 ∨ u.cfg.wifiCfg.protocol = 2
  webSsid : 0 ∈ u.webSsid
  ssid : 0 ∈ u.cfg.wifiCfg.ssid
  webKey : 0 ∈ u.webKey
  psk : 0 ∈ u.cfg.wifiCfg.psk ∨ u.cfg.wifiCfg.wscEn = 0

theorem arrayStr_ne_none {n : Nat} {v : Vector UInt8 n} : arrayStr v ≠ none ↔ 0 ∈ v := by
  rw [arrayStr]
  split
  · simpa using ‹0 ∈ v.toList›
  · simpa using ‹0 ∉ v.toList›

theorem pskStr_ne_none {w : WifiCfg} : pskStr w ≠ none ↔ 0 ∈ w.psk ∨ w.wscEn = 0 := by
  rw [pskStr]
  by_cases h : 0 ∈ w.psk
  · simp [h]
  · simp [h]

theorem byMode_ne_none {α : Type} {protocol : UInt8} {sta softap : Option α} : byMode protocol sta softap ≠ none ↔
    (protocol = 0 ∧ sta ≠ none) ∨ (protocol = 2 ∧ softap ≠ none) := by
  rw [byMode]
  by_cases h0 : protocol = 0
  · simp [h0]
  · by_cases h2 : protocol = 2
    · simp [h2]
    · simp [h0, h2]

theorem input_ne_none {name : String} {count : Nat} {value : Option (List UInt8)} {x : List UInt8} :
    (input name count value x).form ≠ none ↔ value ≠ none := by
  simp [input]

theorem wifibase_forms (u : UserCfgParam) : (∀ s ∈ found (wifibaseSteps u) [], s.form ≠ none) ↔ Readable u := by
  have hmark : ∀ mark text, ((markDefault mark text).form ≠ none) = True := fun _ _ => eq_true nofun
  have hsome : ∀ t : List UInt8, (some t ≠ none) = True := fun _ => eq_true nofun
  simp only [wifibaseSteps, found, List.forall_mem_cons, select, hmark, input_ne_none, byMode_ne_none, hsome,
    arrayStr_ne_none, pskStr_ne_none, true_and, and_true]
  constructor
  · rintro ⟨hssid, hkey, hmode, -, hsta, hpsk, -⟩
    rcases hmode with h | h
    · simp [h] at hssid hkey hsta hpsk
      exact ⟨.inl h, hssid, hsta, hkey, hpsk⟩
    · simp [h] at hssid hkey hsta hpsk
      exact ⟨.inr h, hsta, hssid, hpsk, hkey⟩
  · rintro ⟨h | h, hwebSsid, hssid, hwebKey, hpsk⟩
    · simp [h, hwebSsid, hssid, hwebKey, hpsk]
    · simp [h, hwebSsid, hssid, hwebKey, hpsk]

/-- **The page builders.** The status page's length is never returned. The two others are built as meant
exactly when the texts read for them end and the template does not end in its last marker. What is
written stays within `len` exactly when the page fits. -/
theorem page_builders (u : UserCfgParam) (wlWorkmode : Int) (ip : Vector UInt8 4) (mac : Vector UInt8 6)
    (m : Nat → UInt8) (src : List UInt8) (len : UInt32) :
    (∀ seg segs, Marked (found (sysstatusSteps ip mac) []) seg segs src →
      (filled (found (sysstatusSteps ip mac) []) seg segs).length ≤ len.toNat →
      ¬Built (filled (found (sysstatusSteps ip mac) []) seg segs) (htmlRebuildSysstatus ip mac m src len)) ∧
    (∀ seg segs, Marked (found (wifibaseSteps u) []) seg segs src →
      (filled (found (wifibaseSteps u) []) seg segs).length ≤ len.toNat →
      (Built (filled (found (wifibaseSteps u) []) seg segs) (rebuildWifibase u m src len) ↔
        Readable u ∧ segs.getLastD seg ≠ [])) ∧
    (∀ seg segs, Marked (found (wifinetSteps u wlWorkmode) (baudOption u.baudrate)) seg segs src →
      (filled (found (wifinetSteps u wlWorkmode) (baudOption u.baudrate)) seg segs).length ≤ len.toNat →
      (Built (filled (found (wifinetSteps u wlWorkmode) (baudOption u.baudrate)) seg segs)
        (htmlRebuildWifinet u wlWorkmode m src len) ↔ segs.getLastD seg ≠ [])) ∧
    (StaysWithin len (htmlRebuildSysstatus ip mac m src len) ↔ Fits (sysstatusSteps ip mac) [] src len) ∧
    (StaysWithin len (rebuildWifibase u m src len) ↔ Fits (wifibaseSteps u) [] src len) ∧
    (StaysWithin len (htmlRebuildWifinet u wlWorkmode m src len) ↔
      Fits (wifinetSteps u wlWorkmode) (baudOption u.baudrate) src len) := by
  have hstatus : ∀ step ∈ sysstatusSteps ip mac, ∀ x, (step x).Sound := fun step hm x =>
    (sysstatus_titled ip mac step hm x).sound
  have hbase : ∀ step ∈ wifibaseSteps u, ∀ x, (step x).Sound := fun step hm x => (wifibase_exact u step hm x).sound
  have hnet : ∀ step ∈ wifinetSteps u wlWorkmode, ∀ x, (step x).Sound := fun step hm x =>
    (wifinet_exact u wlWorkmode step hm x).sound
  refine ⟨fun seg segs h hfit => ?_, fun seg segs h hfit => ?_, fun seg segs h hfit => ?_, rebuild_bounded hstatus,
    rebuild_bounded hbase, rebuild_bounded hnet⟩
  · refine rebuild_slack hstatus h (fun s hm => ?_) ⟨_, List.mem_cons_self, ?_⟩ hfit
    · obtain ⟨step, hstep, x, rfl⟩ := found_mem hm
      exact (sysstatus_titled ip mac step hstep x).form
    · exact (sysstatus_titled ip mac _ List.mem_cons_self []).short
  · rw [← wifibase_forms]
    exact rebuild_exact (wifibase_exact u) (List.cons_ne_nil _ _) h hfit
  · have hforms : ∀ s ∈ found (wifinetSteps u wlWorkmode) (baudOption u.baudrate), s.form ≠ none := by
      simp only [wifinetSteps, found, List.forall_mem_cons]
      have hsome := @Option.some_ne_none (List UInt8)
      exact ⟨hsome _, hsome _, hsome _, hsome _, hsome _, hsome _, hsome _, hsome _,
        fun _ hm => absurd hm List.not_mem_nil⟩
    exact (rebuild_exact (wifinet_exact u wlWorkmode) (List.cons_ne_nil _ _) h hfit).trans (and_iff_right hforms)

theorem page_builders_serial :
    let u := initFactoryParam (.replicate 6 0)
    let subs := found (wifinetSteps u 0) (baudOption u.baudrate)
    let segs := List.replicate 8 [10]
    Built (filled subs [60] segs)
      (htmlRebuildWifinet u 0 (fun _ => 0) (weave [60] ((subs.map Subst.marker).zip segs)) 1000) := by
  intro u subs segs
  have honce : ∀ s ∈ subs, s.marker ≠ [] ∧ places s.marker (weave [60] ((subs.map Subst.marker).zip segs)) ≤ 1 := by
    decide +kernel
  have hmarked : Marked subs [60] segs (weave [60] ((subs.map Subst.marker).zip segs)) :=
    ⟨rfl, rfl, fun s hm => atMostOnce_of_places (honce s hm).1 (honce s hm).2⟩
  exact ((page_builders u 0 (.replicate 4 0) (.replicate 6 0) (fun _ => 0) _ 1000).2.2.1 [60] segs hmarked
    (by decide +kernel)).mpr (by decide)

/-- A status page of 98 bytes, for which 52 is returned; and a page of three
bytes that is to fit in one, of which two are written. -/
theorem sysstatus_short :
    let subs := found (sysstatusSteps #v[192, 168, 0, 1] (.replicate 6 0)) []
    let segs := List.replicate 4 [10]
    let src := weave [60] ((subs.map Subst.marker).zip segs)
    (Marked subs [60] segs src ∧ (filled subs [60] segs).length = 98 ∧
      ¬Built (filled subs [60] segs) (htmlRebuildSysstatus #v[192, 168, 0, 1] (.replicate 6 0) (fun _ => 0) src 1000)) ∧
    ¬StaysWithin 1 (htmlRebuildSysstatus #v[192, 168, 0, 1] (.replicate 6 0) (fun _ => 0) [97, 98, 99] 1) := by
  intro subs segs src
  have honce : ∀ s ∈ subs, s.marker ≠ [] ∧ places s.marker src ≤ 1 := by decide +kernel
  have hlen : (filled subs [60] segs).length = 98 := by decide +kernel
  have hret : (htmlRebuildSysstatus #v[192, 168, 0, 1] (.replicate 6 0) (fun _ => 0) src 1000).map
      (fun r => r.2.toNat) = some 52 := by decide +kernel
  refine ⟨⟨⟨rfl, rfl, fun s hm => atMostOnce_of_places (honce s hm).1 (honce s hm).2⟩, hlen, fun h => ?_⟩, ?_⟩
  · have heq := h.returned
    rw [hret, hlen] at heq
    cases heq
  · decide +kernel

end SerialNet.Param
