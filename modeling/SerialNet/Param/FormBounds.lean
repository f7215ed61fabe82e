import Mathlib.Logic.Function.Iterate
import SerialNet.Lib.Html
import SerialNet.Param.FormMemory

/-!
# The bounds of a form

When `url_decode` and the scan keep to the bytes they were given, and what
`url_decode` makes of an encoded value.
-/

namespace SerialNet.Param

open Patch

/-! ## One value -/

def cstring (d : List UInt8) : List UInt8 := d.takeWhile (· != 0)

theorem cstring_zero (d : List UInt8) : (d ++ [0]).takeWhile (· != 0) = cstring d := by
  rw [List.takeWhile_append, cstring]
  split
  · rename_i h
    rw [List.takeWhile_cons_of_neg (by decide), List.append_nil]
    exact ((List.takeWhile_sublist _).eq_of_length h).symm
  · rfl

theorem cstring_length (d : List UInt8) : (cstring d).length ≤ d.length := (List.takeWhile_sublist _).length_le

/-- What `url_decode` makes of a value that is closed behind `c` characters. -/
structure ValueSpec (m : Nat → UInt8) (p : Nat) (d : List UInt8) (c : Nat) (r : Decoded) : Prop where
  i : r.i = c
  holds : CStr.Holds r.mem p (strrmvspace (cstring d))
  frame : ∀ x, x < p ∨ p + c ≤ x → r.mem x = m x
  touched : ∀ a ∈ r.touched, a < p + c ∧ (p ≤ a ∨ blank (cstring d) = true ∧ a + 1 = p)

section
variable {m : Nat → UInt8} {p len c : Nat} {d : List UInt8}

theorem loopSpec (m : Nat → UInt8) (p len : Nat) :
    LoopSpec len false ⟨m, p, p, 0, []⟩ (decodeLoop len len ⟨m, p, p, 0, []⟩) :=
  decodeLoop_spec (Nat.sub_le len 0) (Nat.le_refl p) ⟨nofun, fun h => absurd h (Nat.lt_irrefl p)⟩

theorem urlDecodeAt_eq (h : closedValue false (read m p len) = some (d, c)) :
    ∃ ts, (∀ a ∈ ts, p ≤ a ∧ a < p + c) ∧ d.length < c ∧ c ≤ len ∧
      urlDecodeAt m p len =
        ⟨(strrmvspaceAt (patch m p (d ++ [0])) p (d.length + 1)).1, c,
          (strrmvspaceAt (patch m p (d ++ [0])) p (d.length + 1)).2 ++ ts⟩ := by
  have hs := (loopSpec m p len).closed d c h
  have hshort : p + d.length < p + c := hs.short
  have hused : p + c ≤ p + (len - 0) := hs.used
  refine ⟨(p + d.length) :: (decodeLoop len len ⟨m, p, p, 0, []⟩).touched, fun a ha => ?_, by omega, by omega, ?_⟩
  · rcases List.mem_cons.mp ha with rfl | ha
    · exact ⟨by omega, hshort⟩
    · rcases hs.touched a ha with ha | ha
      · cases ha
      · exact ha
  · unfold urlDecodeAt
    simp only [hs.mem, hs.dst, hs.i]
    rw [← patch_append, Nat.add_sub_cancel_left, Nat.zero_add]

theorem read_decoded (m : Nat → UInt8) (p : Nat) (d : List UInt8) :
    (read (patch m p (d ++ [0])) p (d.length + 1)).takeWhile (· != 0) = cstring d := by
  have hread := read_patch (m := m) (a := p) (l := d ++ [0])
  rw [List.length_append, List.length_singleton] at hread
  rw [hread, cstring_zero]

theorem urlDecodeAt_closed (h : closedValue false (read m p len) = some (d, c))
    (hb : blank (cstring d) = true → ∃ q, p = q + 1 ∧ isSpace (m q) = false) :
    ValueSpec m p d c (urlDecodeAt m p len) ∧ c ≤ len := by
  obtain ⟨ts, hts, hshort, hlen, heq⟩ := urlDecodeAt_eq h
  have hb' : blank (cstring d) = true → ∃ q, p = q + 1 ∧ isSpace (patch m p (d ++ [0]) q) = false := by
    intro hbl
    obtain ⟨q, rfl, hq⟩ := hb hbl
    exact ⟨q, rfl, by rwa [patch_below (Nat.lt_succ_self q)]⟩
  have hstrip := strrmvspaceAt_spec (read_decoded m p d) hb'
  have hcut := cstring_length d
  rw [heq]
  refine ⟨⟨rfl, hstrip.holds, fun x hx => ?_, fun a ha => ?_⟩, hlen⟩
  · show (strrmvspaceAt (patch m p (d ++ [0])) p (d.length + 1)).1 x = m x
    rw [hstrip.frame x (by omega), patch_outside (by simp only [List.length_append, List.length_singleton]; omega)]
  · rcases List.mem_append.mp ha with ha | ha
    · obtain ⟨hle, ha⟩ := hstrip.touched a ha
      exact ⟨by omega, ha⟩
    · exact ⟨(hts a ha).2, .inl (hts a ha).1⟩

theorem urlDecodeAt_open (h : closedValue false (read m p len) = none) : ∃ a ∈ (urlDecodeAt m p len).touched, p + len ≤ a := by
  unfold urlDecodeAt
  rcases (loopSpec m p len).open_ h with hd | ⟨a, ha, hle⟩
  · exact ⟨_, List.mem_append_right _ List.mem_cons_self, Nat.le_of_eq hd.symm⟩
  · exact ⟨a, List.mem_append_right _ (List.mem_cons_of_mem _ ha), hle⟩

end

def DecodesInside (m : Nat → UInt8) (p len : Nat) : Prop :=
  (urlDecodeAt m p len).i ≤ len ∧ ∀ a ∈ (urlDecodeAt m p len).touched, p ≤ a ∧ a < p + len

/-- The value is closed in the text, and is not white space alone. -/
def valueInside (v : List UInt8) : Bool := (closedValue false v).any fun r => !blank (cstring r.1)

theorem decodesInside_iff {m : Nat → UInt8} {p : Nat} (len : Nat) (hp : 0 < p) :
    DecodesInside m p len ↔ valueInside (read m p len) = true := by
  unfold valueInside
  cases h : closedValue false (read m p len) with
  | none =>
    obtain ⟨a, ha, hle⟩ := urlDecodeAt_open h
    exact ⟨fun hin => absurd (hin.2 a ha).2 (Nat.not_lt.mpr hle), nofun⟩
  | some r =>
    obtain ⟨d, c⟩ := r
    rw [Option.any_some, Bool.not_eq_true']
    constructor
    · intro hin
      by_contra hbl
      have hbl := Bool.not_eq_false _ ▸ hbl
      obtain ⟨q, rfl⟩ : ∃ q, p = q + 1 := ⟨p - 1, by omega⟩
      obtain ⟨ts, -, -, -, heq⟩ := urlDecodeAt_eq h
      have hq := strrmvspaceAt_blank (read_decoded m (q + 1) d) hbl
      have := hin.2 q (by rw [heq]; exact List.mem_append_left ts hq)
      omega
    · intro hbl
      obtain ⟨hv, hlen⟩ := urlDecodeAt_closed h fun hb => by rw [hbl] at hb; cases hb
      refine ⟨by rw [hv.i]; exact hlen, fun a ha => ?_⟩
      obtain ⟨hlt, ha | ⟨hb, -⟩⟩ := hv.touched a ha
      · exact ⟨ha, by omega⟩
      · rw [hbl] at hb
        cases hb

/-! ## The keys -/

/-- The comparison of a text with a key, if it ends in the text. -/
def compares : List UInt8 → List UInt8 → Option Bool
  | _, [] => some true
  | [], _ :: _ => none
  | c :: v, k :: key => if toLower c = k then compares v key else some false

/-- The key found at the front of the text, if the comparisons end there. -/
def findKey (v : List UInt8) : List String → Option (Option String)
  | [] => some none
  | key :: keys =>
    match compares v (bytes key) with
    | none => none
    | some true => some (some key)
    | some false => findKey v keys

section
variable {m : Nat → UInt8} {a w : Nat}

theorem strncmpi_spec : ∀ {key : List UInt8} {a w : Nat},
    match compares (read m a w) key with
    | none => ∃ x ∈ (strncmpi m a key).2, a + w ≤ x
    | some r => (strncmpi m a key).1 = r ∧ (∀ x ∈ (strncmpi m a key).2, a ≤ x ∧ x < a + w) ∧ (r = true → key.length ≤ w)
  | [], a, w => by
    rw [show compares (read m a w) [] = some true by cases w <;> rfl]
    exact ⟨rfl, nofun, fun _ => Nat.zero_le w⟩
  | k :: key, a, 0 => by
    rw [show compares (read m a 0) (k :: key) = none from rfl]
    refine ⟨a, ?_, Nat.le_refl a⟩
    rw [strncmpi]
    split
    · exact List.mem_cons_self
    · exact List.mem_cons_self
  | k :: key, a, w + 1 => by
    rw [read_succ, compares, strncmpi]
    by_cases hk : toLower (m a) = k
    · rw [if_pos hk, if_pos hk]
      have ih := @strncmpi_spec key (a + 1) w
      cases hc : compares (read m (a + 1) w) key with
      | none =>
        rw [hc] at ih
        obtain ⟨x, hx, hle⟩ := ih
        exact ⟨x, List.mem_cons_of_mem _ hx, by omega⟩
      | some r =>
        rw [hc] at ih
        obtain ⟨hr, hx, hlen⟩ := ih
        refine ⟨hr, fun x hm => ?_, fun h => Nat.succ_le_succ (hlen h)⟩
        rcases List.mem_cons.mp hm with rfl | hm
        · omega
        · have := hx x hm
          omega
    · rw [if_neg hk, if_neg hk]
      refine ⟨rfl, fun x hm => ?_, nofun⟩
      rw [List.mem_singleton.mp hm]
      omega

theorem matchKey_cons (key : String) (keys : List String) : matchKey m a (key :: keys) =
    if (strncmpi m a (bytes key)).1 then (some key, (strncmpi m a (bytes key)).2)
    else ((matchKey m a keys).1, (strncmpi m a (bytes key)).2 ++ (matchKey m a keys).2) := rfl

theorem matchKey_spec : ∀ {keys : List String},
    match findKey (read m a w) keys with
    | none => ∃ x ∈ (matchKey m a keys).2, a + w ≤ x
    | some found => (matchKey m a keys).1 = found ∧ (∀ x ∈ (matchKey m a keys).2, a ≤ x ∧ x < a + w) ∧
        ∀ key, found = some key → key ∈ keys ∧ (bytes key).length ≤ w
  | [] => ⟨rfl, nofun, nofun⟩
  | key :: keys => by
    have hcmp := @strncmpi_spec m (bytes key) a w
    rw [findKey]
    cases hc : compares (read m a w) (bytes key) with
    | none =>
      rw [hc] at hcmp
      obtain ⟨x, hx, hle⟩ := hcmp
      refine ⟨x, ?_, hle⟩
      rw [matchKey_cons]
      split
      · exact hx
      · exact List.mem_append_left _ hx
    | some r =>
      rw [hc] at hcmp
      obtain ⟨hr, hx, hlen⟩ := hcmp
      cases r with
      | true =>
        dsimp only
        rw [matchKey_cons, if_pos hr]
        refine ⟨rfl, hx, fun k hk => ?_⟩
        cases hk
        exact ⟨List.mem_cons_self, hlen rfl⟩
      | false =>
        dsimp only
        rw [matchKey_cons, if_neg (by rw [hr]; exact Bool.false_ne_true)]
        have ih := @matchKey_spec keys
        cases hf : findKey (read m a w) keys with
        | none =>
          rw [hf] at ih
          obtain ⟨x, hx', hle⟩ := ih
          exact ⟨x, List.mem_append_right _ hx', hle⟩
        | some found =>
          rw [hf] at ih
          obtain ⟨hfound, hx', hkey⟩ := ih
          refine ⟨hfound, fun x hm => ?_, fun k hk => ⟨List.mem_cons_of_mem _ (hkey k hk).1, (hkey k hk).2⟩⟩
          rcases List.mem_append.mp hm with hm | hm
          · exact hx x hm
          · exact hx' x hm

end

/-! ## The scan -/

/-- Every comparison and every value on the way ends in the text; the first
`skip` characters belong to the field before. -/
def scanCloses (keys : List String) : Nat → List UInt8 → Bool
  | 0, [] => true
  | _ + 1, [] => false
  | skip + 1, _ :: v => scanCloses keys skip v
  | 0, c :: v =>
    match findKey (c :: v) keys with
    | none => false
    | some none => scanCloses keys 0 v
    | some (some key) =>
      let n := (bytes key).length
      if key = "save=" then scanCloses keys (n - 1) v
      else
        match closedValue false ((c :: v).drop n) with
        | none => false
        | some (_, i) => scanCloses keys (n + i - 1) v

theorem scanCloses_skip {keys : List String} : ∀ {j : Nat} {v : List UInt8}, j ≤ v.length →
    scanCloses keys j v = scanCloses keys 0 (v.drop j)
  | 0, _, _ => rfl
  | _ + 1, [], h => absurd h (Nat.not_succ_le_zero _)
  | j + 1, c :: v, h => by
    rw [scanCloses, List.drop_succ_cons]
    exact scanCloses_skip (Nat.le_of_succ_le_succ h)

section
variable {keys : List String} {v : List UInt8}

theorem scanCloses_cut (hv : v ≠ []) (h : findKey v keys = none) : scanCloses keys 0 v = false := by
  obtain ⟨c, v, rfl⟩ := List.exists_cons_of_ne_nil hv
  rw [scanCloses, h]

theorem scanCloses_pass (hv : v ≠ []) (h : findKey v keys = some none) :
    scanCloses keys 0 v = scanCloses keys 0 (v.drop 1) := by
  obtain ⟨c, v, rfl⟩ := List.exists_cons_of_ne_nil hv
  rw [scanCloses, h, List.drop_one, List.tail_cons]

theorem scanCloses_drop {c : UInt8} {n : Nat} (h0 : 0 < n) (hn : n ≤ (c :: v).length) :
    scanCloses keys (n - 1) v = scanCloses keys 0 ((c :: v).drop n) := by
  obtain ⟨k, rfl⟩ : ∃ k, n = k + 1 := ⟨n - 1, by omega⟩
  rw [Nat.add_sub_cancel, List.drop_succ_cons]
  exact scanCloses_skip (Nat.le_of_succ_le_succ hn)

theorem scanCloses_save (hv : v ≠ []) (h : findKey v keys = some (some "save=")) (h0 : 0 < (bytes "save=").length)
    (hn : (bytes "save=").length ≤ v.length) :
    scanCloses keys 0 v = scanCloses keys 0 (v.drop (bytes "save=").length) := by
  obtain ⟨c, v, rfl⟩ := List.exists_cons_of_ne_nil hv
  rw [scanCloses, h]
  dsimp only
  rw [if_pos rfl]
  exact scanCloses_drop h0 hn

theorem scanCloses_open {key : String} (hv : v ≠ []) (h : findKey v keys = some (some key)) (hs : key ≠ "save=")
    (hc : closedValue false (v.drop (bytes key).length) = none) : scanCloses keys 0 v = false := by
  obtain ⟨c, v, rfl⟩ := List.exists_cons_of_ne_nil hv
  rw [scanCloses, h]
  dsimp only
  rw [if_neg hs, hc]

theorem scanCloses_value {key : String} {d : List UInt8} {i : Nat} (hv : v ≠ []) (h : findKey v keys = some (some key))
    (hs : key ≠ "save=") (hc : closedValue false (v.drop (bytes key).length) = some (d, i)) (h0 : 0 < (bytes key).length)
    (hn : (bytes key).length + i ≤ v.length) :
    scanCloses keys 0 v = scanCloses keys 0 (v.drop ((bytes key).length + i)) := by
  obtain ⟨c, v, rfl⟩ := List.exists_cons_of_ne_nil hv
  rw [scanCloses, h]
  dsimp only
  rw [if_neg hs, hc]
  exact scanCloses_drop (by omega) hn

end

def KeyOk (key : String) : Prop := (bytes key).getLast? = some 61

instance (key : String) : Decidable (KeyOk key) := inferInstanceAs (Decidable (_ = _))

theorem equals_no_space {c : UInt8} : toLower c = 61 → isSpace c = false := by
  revert c
  apply forall_byte
  decide +kernel

theorem strncmpi_last {m : Nat → UInt8} : ∀ {key : List UInt8} {a : Nat} {x : UInt8}, (strncmpi m a key).1 = true →
    key.getLast? = some x → ∃ q, a + key.length = q + 1 ∧ a ≤ q ∧ toLower (m q) = x
  | [], _, _, _, h => by cases h
  | [k], a, x, h, hx => by
    cases hx
    rw [strncmpi] at h
    split at h
    · exact ⟨a, rfl, Nat.le_refl a, ‹_›⟩
    · cases h
  | k :: l :: key, a, x, h, hx => by
    rw [strncmpi] at h
    split at h
    · obtain ⟨q, hq, hle, hl⟩ := strncmpi_last h (by rwa [List.getLast?_cons_cons] at hx)
      exact ⟨q, by simp only [List.length_cons] at hq ⊢; omega, by omega, hl⟩
    · cases h

theorem matchKey_strncmpi {m : Nat → UInt8} {a : Nat} {key : String} : ∀ {keys : List String},
    (matchKey m a keys).1 = some key → (strncmpi m a (bytes key)).1 = true
  | k :: keys, h => by
    rw [matchKey_cons] at h
    split at h
    · cases h
      assumption
    · exact matchKey_strncmpi h

theorem toNat_sub_ofNat {x : UInt32} {n : Nat} (h : n ≤ x.toNat) : (x - UInt32.ofNat n).toNat = x.toNat - n := by
  have hlt := x.toNat_lt
  have hn : (UInt32.ofNat n).toNat = n := UInt32.toNat_ofNat_of_lt' (Nat.lt_of_le_of_lt h hlt)
  rw [UInt32.toNat_sub_of_le x _ (by rw [UInt32.le_iff_toNat_le, hn]; exact h), hn]

/-- The scan has neither wrapped nor left the text from `p` to `e`. -/
structure OnTrack (p e : Nat) (s : Scanner) : Prop where
  rest : s.rx + s.rxLen.toNat = e
  low : p ≤ s.rx
  touched : ∀ a ∈ s.touched, p ≤ a ∧ a < e

def Scanner.text (s : Scanner) : List UInt8 := read s.mem s.rx s.rxLen.toNat

/-- A turn touches a byte behind the text, or goes on with the rest of it. -/
inductive TurnSpec (keys : List String) (p e : Nat) (s t : Scanner) : Prop
  | outside : scanCloses keys 0 s.text = false → (∃ a ∈ t.touched, e ≤ a) → TurnSpec keys p e s t
  | inside : scanCloses keys 0 s.text = scanCloses keys 0 t.text → OnTrack p e t → t.rxLen.toNat < s.rxLen.toNat →
      TurnSpec keys p e s t

section
variable {keys : List String} {p e : Nat} {s : Scanner}

theorem matched_touched (h0 : s.rxLen ≠ 0) {x : Nat} (hx : x ∈ (matchKey s.mem s.rx keys).2) : x ∈ (scanTurn keys s).touched := by
  rw [scanTurn, if_neg h0]
  split
  · rename_i ts hm
    rw [hm] at hx
    exact List.mem_append_left _ hx
  · rename_i key ts hm
    rw [hm] at hx
    dsimp only
    split
    · exact List.mem_append_left _ hx
    · exact List.mem_append_right _ (List.mem_append_left _ hx)

theorem TurnSpec.advance {t : Scanner} {c : Nat} (h : OnTrack p e s) (hc : 0 < c) (hle : c ≤ s.rxLen.toNat)
    (hrx : t.rx = s.rx + c) (hlen : t.rxLen.toNat = s.rxLen.toNat - c) (hmem : ∀ x, t.rx ≤ x → t.mem x = s.mem x)
    (hts : ∀ a ∈ t.touched, p ≤ a ∧ a < e) (hcl : scanCloses keys 0 s.text = scanCloses keys 0 (s.text.drop c)) :
    TurnSpec keys p e s t := by
  have hrest := h.rest
  have hlow := h.low
  refine .inside ?_ ⟨by omega, by omega, hts⟩ (by omega)
  rw [hcl, Scanner.text, Scanner.text, drop_read, hrx, hlen]
  exact congrArg _ (read_congr fun i _ => (hmem _ (by omega)).symm)

theorem turn_spec (hk : ∀ key ∈ keys, KeyOk key) (h : OnTrack p e s) (h0 : s.rxLen ≠ 0) :
    TurnSpec keys p e s (scanTurn keys s) := by
  have hpos : 0 < s.rxLen.toNat :=
    Nat.pos_of_ne_zero fun e => h0 (UInt32.toNat_inj.mp (e.trans UInt32.toNat_zero.symm))
  have hlen : s.text.length = s.rxLen.toNat := length_read
  have hne : s.text ≠ [] := fun he => by rw [he] at hlen; exact absurd hlen.symm (Nat.pos_iff_ne_zero.mp hpos)
  have hrest := h.rest
  have hlow := h.low
  have hkey := @matchKey_spec s.mem s.rx s.rxLen.toNat keys
  rw [← Scanner.text] at hkey
  cases hf : findKey s.text keys with
  | none =>
    rw [hf] at hkey
    obtain ⟨x, hx, hle⟩ := hkey
    exact .outside (scanCloses_cut hne hf) ⟨x, matched_touched h0 hx, by omega⟩
  | some found =>
    rw [hf] at hkey
    obtain ⟨hm, hts, hfound⟩ := hkey
    obtain ⟨ts, hmk⟩ : ∃ ts, matchKey s.mem s.rx keys = (found, ts) := ⟨_, Prod.ext hm rfl⟩
    rw [hmk] at hts
    have hts' : ∀ x ∈ ts ++ s.touched, p ≤ x ∧ x < e := by
      intro x hx
      rcases List.mem_append.mp hx with hx | hx
      · have := hts x hx
        omega
      · exact h.touched x hx
    rw [scanTurn, if_neg h0, hmk]
    cases found with
    | none =>
      refine .advance h Nat.one_pos hpos rfl ?_ (fun _ _ => rfl) hts' (scanCloses_pass hne hf)
      exact toNat_sub_ofNat hpos
    | some key =>
      obtain ⟨hmem, hle⟩ := hfound key rfl
      obtain ⟨q, hq, hqlow, heq⟩ := strncmpi_last (matchKey_strncmpi (congrArg Prod.fst hmk)) (hk key hmem)
      have hkpos : 0 < (bytes key).length := by omega
      have hsub := toNat_sub_ofNat hle
      dsimp only
      by_cases hsave : key = "save="
      · rw [if_pos hsave]
        subst hsave
        exact .advance h hkpos hle rfl hsub (fun _ _ => rfl) hts' (scanCloses_save hne hf hkpos (by omega))
      · rw [if_neg hsave, hsub]
        have hdrop : s.text.drop (bytes key).length = read s.mem (s.rx + (bytes key).length) (s.rxLen.toNat - (bytes key).length) :=
          drop_read
        cases hv : closedValue false (s.text.drop (bytes key).length) with
        | none =>
          obtain ⟨a, ha, hle'⟩ := urlDecodeAt_open (hdrop ▸ hv)
          exact .outside (scanCloses_open hne hf hsave hv) ⟨a, List.mem_append_left _ ha, by omega⟩
        | some r =>
          obtain ⟨d, i⟩ := r
          obtain ⟨hval, hi⟩ := urlDecodeAt_closed (hdrop ▸ hv) fun _ => ⟨q, hq, equals_no_space heq⟩
          have hcl := scanCloses_value hne hf hsave hv hkpos (by omega)
          rw [hval.i]
          refine .advance h (by omega) (by omega) (Nat.add_assoc ..) ?_ (fun x hx => hval.frame x (.inr hx)) (fun a ha => ?_) hcl
          · rw [toNat_sub_ofNat (by rw [hsub]; exact hi), hsub, Nat.sub_sub]
          · rcases List.mem_append.mp ha with ha | ha
            · have := hval.touched a ha
              omega
            · exact hts' a ha

end

/-- The scan of `n` bytes at `p` comes to their end and touches no other byte. -/
def ScanEnds (keys : List String) (m : Nat → UInt8) (p : Nat) (n : UInt32) : Prop :=
  ∃ k, let s := (scanTurn keys)^[k] (.start m p n)
    s.rxLen = 0 ∧ s.rx = p + n.toNat ∧ ∀ a ∈ s.touched, p ≤ a ∧ a < p + n.toNat

theorem turn_touched {keys : List String} {s : Scanner} {a : Nat} (h : a ∈ s.touched) : a ∈ (scanTurn keys s).touched := by
  rw [scanTurn]
  split
  · exact h
  · split
    · exact List.mem_append_right _ h
    · dsimp only
      split
      · exact List.mem_append_right _ h
      · exact List.mem_append_right _ (List.mem_append_right _ h)

theorem turns_touched {keys : List String} {a : Nat} : ∀ (k : Nat) {s : Scanner}, a ∈ s.touched →
    a ∈ ((scanTurn keys)^[k] s).touched
  | 0, _, h => h
  | k + 1, _, h => turns_touched k (turn_touched h)

theorem scan_closed {keys : List String} {p e : Nat} (hk : ∀ key ∈ keys, KeyOk key) : ∀ (n : Nat) {s : Scanner},
    s.rxLen.toNat ≤ n → OnTrack p e s → scanCloses keys 0 s.text = true →
      ∃ k, OnTrack p e ((scanTurn keys)^[k] s) ∧ ((scanTurn keys)^[k] s).rxLen = 0
  | n, s, hn, h, hc => by
    by_cases h0 : s.rxLen = 0
    · exact ⟨0, h, h0⟩
    · rcases turn_spec hk h h0 with ⟨hf, -⟩ | ⟨heq, ht, hlt⟩
      · rw [hc] at hf
        cases hf
      · cases n with
        | zero => omega
        | succ n =>
          obtain ⟨k, hk', h0'⟩ := scan_closed hk n (by omega) ht (by rw [← heq, hc])
          exact ⟨k + 1, hk', h0'⟩

theorem scan_open {keys : List String} {p e : Nat} (hk : ∀ key ∈ keys, KeyOk key) : ∀ (k : Nat) {s : Scanner},
    OnTrack p e s → scanCloses keys 0 s.text = false → ((scanTurn keys)^[k] s).rxLen = 0 →
      ∃ a ∈ ((scanTurn keys)^[k] s).touched, e ≤ a
  | k, s, h, hc, hend => by
    have h0 : s.rxLen ≠ 0 := by
      intro h0
      rw [Scanner.text, h0] at hc
      cases hc
    cases k with
    | zero => exact absurd hend h0
    | succ k =>
      rcases turn_spec hk h h0 with ⟨-, a, ha, hle⟩ | ⟨heq, ht, -⟩
      · exact ⟨a, turns_touched k ha, hle⟩
      · exact scan_open hk k ht (by rw [← heq, hc]) hend

theorem scanEnds_iff {keys : List String} (hk : ∀ key ∈ keys, KeyOk key) (m : Nat → UInt8) (p : Nat) (n : UInt32) :
    ScanEnds keys m p n ↔ scanCloses keys 0 (read m p n.toNat) = true := by
  have hstart : OnTrack p (p + n.toNat) (.start m p n) := ⟨rfl, Nat.le_refl p, nofun⟩
  constructor
  · rintro ⟨k, hend, -, hin⟩
    by_contra hc
    obtain ⟨a, ha, hle⟩ := scan_open hk k hstart (Bool.eq_false_iff.mpr hc) hend
    exact absurd (hin a ha).2 (Nat.not_lt.mpr hle)
  · intro hc
    obtain ⟨k, hk', h0⟩ := scan_closed hk n.toNat (Nat.le_refl _) hstart hc
    refine ⟨k, h0, ?_, hk'.touched⟩
    have := hk'.rest
    rw [h0] at this
    exact this

end SerialNet.Param
