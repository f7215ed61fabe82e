import Mathlib.Data.List.TakeWhile
import SerialNet.Lib.Html
import SerialNet.Param.Form

/-!
# The body is scanned field by field

What `http_setup_wifibase` scans from a body of plain values.
-/

namespace SerialNet.Param

open Html

/-! ## Keys -/

def clash (s k : List UInt8) : Bool := (s.zip k).any fun x => toLower x.1 != x.2

theorem clash_take : ∀ {s k : List UInt8} (x : List UInt8), clash s k = true → ((s ++ x).take k.length).map toLower ≠ k
  | [], _, _, h => by simp [clash] at h
  | _ :: _, [], _, h => by simp [clash] at h
  | a :: s, b :: k, x, h => by
    simp only [clash, List.zip_cons_cons, List.any_cons, Bool.or_eq_true, bne_iff_ne] at h
    intro he
    simp only [List.cons_append, List.length_cons, List.take_succ_cons, List.map_cons, List.cons.injEq] at he
    rcases h with h | h
    · exact h he.1
    · exact clash_take x h he.2

theorem startsWith_clash {s : List UInt8} {key : String} (h : clash s (bytes key) = true) (x : List UInt8) :
    startsWith (s ++ x) key = false :=
  beq_eq_false_iff_ne.mpr (clash_take x h)

theorem startsWith_self {key : String} (h : (bytes key).map toLower = bytes key) (x : List UInt8) :
    startsWith (bytes key ++ x) key = true := by
  rw [startsWith, List.take_left, h, beq_self_eq_true]

/-- A key stands for itself alone in the list. -/
theorem find_key {keys : List String} {key : String} (hmem : key ∈ keys) (hself : (bytes key).map toLower = bytes key)
    (hother : ∀ k ∈ keys, k ≠ key → clash (bytes key) (bytes k) = true) (x : List UInt8) :
    keys.find? (startsWith (bytes key ++ x)) = some key := by
  have honly : ∀ k ∈ keys, startsWith (bytes key ++ x) k = true → k = key := by
    intro k hk hs
    by_contra hne
    rw [startsWith_clash (hother k hk hne) x] at hs
    cases hs
  cases hf : keys.find? (startsWith (bytes key ++ x)) with
  | none => exact absurd (startsWith_self hself x) (List.find?_eq_none.mp hf key hmem)
  | some k => rw [honly k (List.mem_of_find?_eq_some hf) (List.find?_some hf)]

theorem find_none {keys : List String} {s : List UInt8} (h : ∀ k ∈ keys, clash s (bytes k) = true) (x : List UInt8) :
    keys.find? (startsWith (s ++ x)) = none := by
  rw [List.find?_eq_none]
  intro k hk
  rw [startsWith_clash (h k hk) x]
  decide

/-! ## Values -/

theorem plain_kept {c : UInt8} : isPlain c = true → isFieldEnd c = false ∧ (c == 37) = false ∧ (c == 43) = false ∧
    (c != 0) = true ∧ isSpace c = false := by
  revert c
  apply forall_byte
  decide +kernel

theorem urlDecodeFrom_keep {len i : Nat} {c : UInt8} (hc : isPlain c = true) (hi : i < len) (src : List UInt8) :
    urlDecodeFrom len i (c :: src) = (c :: (urlDecodeFrom len (i + 1) src).1, (urlDecodeFrom len (i + 1) src).2) := by
  obtain ⟨hend, h37, h43, -, -⟩ := plain_kept hc
  rcases src with _ | ⟨a, _ | ⟨b, src⟩⟩
  all_goals
    simp only [urlDecodeFrom, if_neg (Nat.not_le.mpr hi), hend, h37, h43, Bool.false_eq_true, if_false]

/-- A plain value decodes to itself, with the `&` behind it. -/
theorem urlDecodeFrom_plain {len : Nat} {rest : List UInt8} : ∀ {v : List UInt8} {i : Nat}, v.all isPlain = true →
    i + v.length < len → urlDecodeFrom len i (v ++ 38 :: rest) = (v, i + v.length + 1)
  | [], i, _, hi => by
    have hlt : ¬len ≤ i := Nat.not_le.mpr hi
    rw [List.nil_append]
    rcases rest with _ | ⟨a, _ | ⟨b, rest⟩⟩
    all_goals
      simp only [urlDecodeFrom, if_neg hlt]
      rfl
  | c :: v, i, hv, hi => by
    simp only [List.all_cons, Bool.and_eq_true] at hv
    rw [List.length_cons] at hi
    rw [List.cons_append, urlDecodeFrom_keep hv.1 (by omega), urlDecodeFrom_plain hv.2 (by omega), List.length_cons]
    exact congrArg (Prod.mk (c :: v)) (by omega)

theorem urlDecode_plain {v rest : List UInt8} {len : Nat} (hv : v.all isPlain = true) (hlen : v.length < len) :
    urlDecode (v ++ 38 :: rest) len = (v, v.length + 1) := by
  have hkept : ∀ c ∈ v, (c != 0) = true ∧ isSpace c = false := by
    intro c hc
    obtain ⟨-, -, -, h⟩ := plain_kept (List.all_eq_true.mp hv c hc)
    exact h
  have hhead : v.dropWhile isSpace = v := by
    cases v with
    | nil => rfl
    | cons c v => rw [List.dropWhile_cons, (hkept c List.mem_cons_self).2]; rfl
  have hrm : strrmvspace v = v := (strrmvspace_eq_iff hhead).mpr fun c hc =>
    (hkept c (List.mem_of_mem_take (List.mem_of_mem_getLast? hc))).2
  have htake : v.takeWhile (· != 0) = v := by
    rw [List.takeWhile_eq_self_iff]
    exact fun c hc => (hkept c hc).1
  rw [urlDecode, urlDecodeFrom_plain hv (by rwa [Nat.zero_add])]
  dsimp only
  rw [htake, hrm, Nat.zero_add]

/-! ## Fields -/

theorem scanFrom_skip {keys : List String} {n : Nat} : ∀ (j : Nat) (x : List UInt8),
    scanFrom keys (j + n) j x = scanFrom keys n 0 (x.drop j)
  | 0, x => by rw [Nat.zero_add, List.drop_zero]
  | j + 1, x => by
    rw [Nat.add_right_comm, scanFrom, scanFrom_skip j, List.drop_tail]

def valueKeys : List String := wifiKeys.erase "save="

theorem valueKeys_found {key : String} (h : key ∈ valueKeys) (x : List UInt8) :
    wifiKeys.find? (startsWith (bytes key ++ x)) = some key := by
  have hall : ∀ key ∈ valueKeys, key ∈ wifiKeys ∧ (bytes key).map toLower = bytes key ∧
      ∀ k ∈ wifiKeys, k ≠ key → clash (bytes key) (bytes k) = true := by decide
  obtain ⟨hmem, hself, hother⟩ := hall key h
  exact find_key hmem hself hother x

theorem scan_field {key : String} {v rest : List UInt8} (hkey : key ∈ valueKeys) (hv : v.all isPlain = true) (m : Nat) :
    scanFrom wifiKeys ((bytes key).length + v.length + 1 + m) 0 (bytes key ++ (v ++ 38 :: rest)) =
      (scanFrom wifiKeys m 0 rest).map ((key, v) :: ·) := by
  have hall : ∀ key ∈ valueKeys, key ≠ "save=" ∧ 0 < (bytes key).length := by decide
  obtain ⟨hsave, hpos⟩ := hall key hkey
  obtain ⟨n, hn⟩ : ∃ n, (bytes key).length + v.length + 1 + m = n + 1 := ⟨_, Nat.add_right_comm _ 1 m⟩
  have hskip : scanFrom wifiKeys n ((bytes key).length + (v.length + 1) - 1) (bytes key ++ (v ++ 38 :: rest)).tail =
      scanFrom wifiKeys m 0 rest := by
    have hj : n = ((bytes key).length + (v.length + 1) - 1) + m := by omega
    have hx : bytes key ++ (v ++ 38 :: rest) = (bytes key ++ (v ++ [38])) ++ rest := by simp
    rw [hj, scanFrom_skip, ← List.drop_one, List.drop_drop, hx, List.drop_left']
    simp only [List.length_append, List.length_singleton]
    omega
  rw [hn, scanFrom, valueKeys_found hkey]
  dsimp only
  rw [if_neg hsave, List.drop_left, ← hn,
    urlDecode_plain hv (by omega : v.length < (bytes key).length + v.length + 1 + m - (bytes key).length)]
  dsimp only
  rw [hskip]

theorem scan_passes {keys : List String} {rest : List UInt8} : ∀ {s : List UInt8},
    (∀ t ∈ s.tails, t ≠ [] → ∀ k ∈ keys, clash t (bytes k) = true) → scanFrom keys s.length 0 (s ++ rest) = some []
  | [], _ => rfl
  | c :: s, h => by
    rw [show (c :: s).tails = (c :: s) :: s.tails from rfl, List.forall_mem_cons] at h
    rw [List.length_cons, scanFrom, find_none (h.1 (List.cons_ne_nil c s)) rest]
    exact scan_passes h.2

theorem scan_save (rest : List UInt8) : scanFrom wifiKeys 11 0 (bytes "save=" ++ (bytes "submit" ++ rest)) = some [] := by
  have hself : (bytes "save=").map toLower = bytes "save=" := by decide
  have hother : ∀ k ∈ wifiKeys, k ≠ "save=" → clash (bytes "save=") (bytes k) = true := by decide
  have hpass : ∀ t ∈ (bytes "submit").tails, t ≠ [] → ∀ k ∈ wifiKeys, clash t (bytes k) = true := by decide
  have hlen : (bytes "save=").length = 5 := by decide
  rw [scanFrom, find_key (by decide) hself hother]
  dsimp only
  rw [if_pos rfl, hlen, ← List.drop_one]
  have hdrop : ((bytes "save=" ++ (bytes "submit" ++ rest)).drop 1).drop 4 = bytes "submit" ++ rest := by
    rw [List.drop_drop]
    exact List.drop_left' hlen
  have hskip := @scanFrom_skip wifiKeys 6 4 ((bytes "save=" ++ (bytes "submit" ++ rest)).drop 1)
  rw [hdrop] at hskip
  exact hskip.trans (scan_passes hpass)

def entryText (e : String × List UInt8) : List UInt8 := bytes e.1 ++ (e.2 ++ [38])

def bodyText (fs : List (String × List UInt8)) : List UInt8 := fs.flatMap entryText ++ (bytes "save=" ++ bytes "submit")

theorem scan_body (rest : List UInt8) : ∀ {fs : List (String × List UInt8)},
    (∀ e ∈ fs, e.1 ∈ valueKeys ∧ e.2.all isPlain = true) →
      scan wifiKeys (bodyText fs ++ rest) (bodyText fs).length = some fs
  | [], _ => by
    have hlen : (bodyText []).length = 11 := by decide
    rw [scan, hlen, bodyText, List.flatMap_nil, List.nil_append, List.append_assoc]
    exact scan_save rest
  | (key, v) :: fs, h => by
    rw [List.forall_mem_cons] at h
    have hbody : bodyText ((key, v) :: fs) = bytes key ++ (v ++ 38 :: bodyText fs) := by
      simp [bodyText, entryText]
    have hlen : (bodyText ((key, v) :: fs)).length = (bytes key).length + v.length + 1 + (bodyText fs).length := by
      rw [hbody]
      simp only [List.length_append, List.length_cons]
      omega
    rw [scan, hlen, hbody]
    simp only [List.append_assoc, List.cons_append]
    rw [scan_field h.1.1 h.1.2, show scanFrom wifiKeys _ 0 _ = some fs from scan_body rest h.2]
    rfl

def pageNames : List String :=
  ["wifimode", "encry", "authmode", "apssid", "apkey", "apipaddr", "apnetmask", "channel", "stassid", "stakey", "dhcp",
    "staipaddr", "stanetmask", "gateway", "dnsserv"]

theorem pageNames_plain : ∀ n ∈ pageNames, n ++ "=" ∈ valueKeys ∧ (bytes n).all isPlain = true := by decide

theorem formBody_submit : formBody [(bytes "save", bytes "submit")] = bytes "save=" ++ bytes "submit" := by decide

end SerialNet.Param
