import SerialNet.Lib.CStr
import SerialNet.Param.Form

/-!
# Decoding a form in place

`url_decode`, `strrmvspace` and the scan of the form handlers on the bytes of
the receive buffer, with the addresses they read and write.
-/

namespace SerialNet.Param

open Patch

/-! ## url_decode -/

/-- The variables of the loop of `url_decode`; `i` stays far from 2^32, as the
receive buffer has 3120 bytes. -/
structure Decoder where
  mem : Nat → UInt8
  dst : Nat
  src : Nat
  i : Nat
  touched : List Nat

def Decoder.put (s : Decoder) (used : Nat) (c : UInt8) : Decoder where
  mem := patch s.mem s.dst [c]
  dst := s.dst + 1
  src := s.src + used
  i := s.i + used
  touched := s.dst :: (List.range' s.src used ++ s.touched)

/-- The loop of `url_decode`, which reads at least one character a turn. The two
characters after a `%` are read whatever `len` is. -/
def decodeLoop (len : Nat) : Nat → Decoder → Decoder
  | 0, s => s
  | fuel + 1, s =>
    if len ≤ s.i then s
    else
      let c := s.mem s.src
      if isFieldEnd c then { s with src := s.src + 1, i := s.i + 1, touched := s.src :: s.touched }
      else if c == 37 then decodeLoop len fuel (s.put 3 (atouHex (s.mem (s.src + 1)) (s.mem (s.src + 2))))
      else if c == 43 then decodeLoop len fuel (s.put 1 32)
      else decodeLoop len fuel (s.put 1 c)

/-- The last loop of `strrmvspace`, from the address before `a` down. -/
def spacesBack : Nat → (Nat → UInt8) → (Nat → UInt8) × List Nat
  | 0, m => (m, [])
  | a + 1, m =>
    if isSpace (m a) then let (m', back) := spacesBack a (patch m a [0]); (m', a :: back) else (m, [a])

/-- `strrmvspace(p, p)`; a zero is among the `n` bytes at `p`. A string of
spaces has `strlen(dst) - 1` wrapped, and the last loop starts before `p`. -/
def strrmvspaceAt (m : Nat → UInt8) (p n : Nat) : (Nat → UInt8) × List Nat :=
  let s := (read m p n).takeWhile (· != 0)
  if s = [] then (patch m p [0], [p])
  else
    let t := s.dropWhile isSpace
    let (m, back) := spacesBack (p + (counted t).length) (patch m p (t ++ [0]))
    (m, back ++ List.range' p (s.length + 1))

structure Decoded where
  mem : Nat → UInt8
  i : Nat
  touched : List Nat

def urlDecodeAt (m : Nat → UInt8) (p len : Nat) : Decoded :=
  let s := decodeLoop len len ⟨m, p, p, 0, []⟩
  let (m, ts) := strrmvspaceAt (patch s.mem s.dst [0]) p (s.dst - p + 1)
  ⟨m, s.i, ts ++ s.dst :: s.touched⟩

/-! ## The scan -/

/-- `strncmpi(rx, key, strlen(key)) == 0` with the addresses read from `rx` on. -/
def strncmpi (m : Nat → UInt8) : Nat → List UInt8 → Bool × List Nat
  | _, [] => (true, [])
  | a, k :: key => if toLower (m a) = k then let (r, ts) := strncmpi m (a + 1) key; (r, a :: ts) else (false, [a])

def matchKey (m : Nat → UInt8) (rx : Nat) : List String → Option String × List Nat
  | [] => (none, [])
  | key :: keys =>
    let (r, ts) := strncmpi m rx (bytes key)
    if r then (some key, ts) else let (found, ts') := matchKey m rx keys; (found, ts ++ ts')

/-- The variables of the scan; `fields` are the pointers it has set. -/
structure Scanner where
  mem : Nat → UInt8
  rx : Nat
  rxLen : UInt32
  fields : List (String × Nat)
  touched : List Nat

/-- One turn of `for (; rx_len != 0;)`. The `atoi` of the network mode reads
only what `url_decode` has just left. -/
def scanTurn (keys : List String) (s : Scanner) : Scanner :=
  if s.rxLen = 0 then s
  else
    match matchKey s.mem s.rx keys with
    | (none, ts) => { s with rx := s.rx + 1, rxLen := s.rxLen - 1, touched := ts ++ s.touched }
    | (some key, ts) =>
      let rx := s.rx + (bytes key).length
      let rxLen := s.rxLen - UInt32.ofNat (bytes key).length
      if key = "save=" then { s with rx := rx, rxLen := rxLen, touched := ts ++ s.touched }
      else
        let r := urlDecodeAt s.mem rx rxLen.toNat
        { mem := r.mem, rx := rx + r.i, rxLen := rxLen - UInt32.ofNat r.i, fields := s.fields ++ [(key, rx)]
          touched := r.touched ++ (ts ++ s.touched) }

def Scanner.start (m : Nat → UInt8) (p : Nat) (n : UInt32) : Scanner := ⟨m, p, n, [], []⟩

/-! ## http_engine -/

/-- The memory after `recv` put the request `r` at `p`, and a zero behind it if
the buffer of 3120 bytes has room. -/
def received (old : Nat → UInt8) (p : Nat) (r : List UInt8) : Nat → UInt8 :=
  patch old p (if r.length < 3120 then r ++ [0] else r)

/-- `rx_len` behind the method of the request line. -/
def skipMethod (m : Nat → UInt8) (p : Nat) (rxLen : UInt32) : UInt32 :=
  if (strncmpi m p (bytes "get")).1 then rxLen - 4
  else if (strncmpi m p (bytes "post")).1 then rxLen - 5
  else rxLen

/-! ## Values that end in the text -/

/-- The decoded value and the characters used, if these lie in the text and so
does the zero behind the value; `esc` when an escape has shortened it. -/
def closedValue (esc : Bool) : List UInt8 → Option (List UInt8 × Nat)
  | [] => if esc then some ([], 0) else none
  | c :: v =>
    if isFieldEnd c then some ([], 1)
    else if c == 37 then
      match v with
      | a :: b :: v => (closedValue true v).map fun r => (atouHex a b :: r.1, r.2 + 3)
      | _ => none
    else (closedValue esc v).map fun r => ((if c == 43 then 32 else c) :: r.1, r.2 + 1)

section
variable {esc : Bool} {c : UInt8} {v : List UInt8}

theorem closedValue_end (h : isFieldEnd c = true) : closedValue esc (c :: v) = some ([], 1) := by
  rw [closedValue.eq_def]
  simp [h]

theorem closedValue_char (h : isFieldEnd c = false) (hp : (c == 37) = false) :
    closedValue esc (c :: v) = (closedValue esc v).map fun r => ((if c == 43 then 32 else c) :: r.1, r.2 + 1) := by
  rw [closedValue.eq_def]
  simp only [h, hp, Bool.false_eq_true, if_false]

theorem closedValue_escape (a b : UInt8) : closedValue esc (37 :: a :: b :: v) =
    (closedValue true v).map fun r => (atouHex a b :: r.1, r.2 + 3) := by
  rw [closedValue.eq_def]
  rfl

theorem closedValue_cut (h : v.length < 2) : closedValue esc (37 :: v) = none := by
  rw [closedValue.eq_def]
  rcases v with _ | ⟨a, _ | ⟨b, v⟩⟩
  · rfl
  · rfl
  · simp only [List.length_cons] at h
    omega

end

/-- What the loop makes of a text of `w` bytes, up to the address `e`. -/
structure DecodeSpec (s out : Decoder) (e : Nat) (d : List UInt8) (c : Nat) : Prop where
  mem : out.mem = patch s.mem s.dst d
  dst : out.dst = s.dst + d.length
  i : out.i = s.i + c
  short : s.dst + d.length < s.src + c
  used : s.src + c ≤ e
  touched : ∀ a ∈ out.touched, a ∈ s.touched ∨ (s.dst ≤ a ∧ a < s.src + c)

section
variable {s out : Decoder} {e u c len fuel : Nat} {x : UInt8} {d : List UInt8}

theorem put_read (h : s.dst < s.src + u) (k : Nat) : read (s.put u x).mem (s.put u x).src k = read s.mem (s.src + u) k :=
  read_congr fun i _ => patch_above (by simp only [Decoder.put, List.length_singleton]; omega)

theorem mem_put {a : Nat} : a ∈ (s.put u x).touched ↔ a = s.dst ∨ (s.src ≤ a ∧ a < s.src + u) ∨ a ∈ s.touched := by
  simp [Decoder.put, List.mem_range'_1]

theorem DecodeSpec.put (h : DecodeSpec (s.put u x) out e d c) (hds : s.dst ≤ s.src) (hu : 0 < u) :
    DecodeSpec s out e (x :: d) (u + c) where
  mem := h.mem
  dst := by rw [h.dst, List.length_cons]; simp only [Decoder.put]; omega
  i := by rw [h.i]; simp only [Decoder.put]; omega
  short := by have := h.short; simp only [Decoder.put, List.length_cons] at this ⊢; omega
  used := by have := h.used; simp only [Decoder.put] at this; omega
  touched a ha := by
    have hshort := h.short
    rcases h.touched a ha with hm | ⟨h₁, h₂⟩
    · rcases mem_put.mp hm with rfl | ⟨h₁, h₂⟩ | hm
      · exact .inr ⟨Nat.le_refl _, by omega⟩
      · exact .inr ⟨by omega, by omega⟩
      · exact .inl hm
    · simp only [Decoder.put] at h₁ h₂
      exact .inr ⟨by omega, by omega⟩

theorem decodeLoop_touched : ∀ {fuel : Nat} {s : Decoder} {a : Nat}, a ∈ s.touched → a ∈ (decodeLoop len fuel s).touched
  | 0, _, _, h => h
  | fuel + 1, s, a, h => by
    unfold decodeLoop
    split
    · exact h
    · dsimp only
      split
      · exact List.mem_cons_of_mem _ h
      · split
        · exact decodeLoop_touched (mem_put.mpr (.inr (.inr h)))
        · split
          · exact decodeLoop_touched (mem_put.mpr (.inr (.inr h)))
          · exact decodeLoop_touched (mem_put.mpr (.inr (.inr h)))

/-- The loop leaves the value in the text if it is closed there; otherwise the
zero falls behind the text, or an escape was read across its end. -/
structure LoopSpec (len : Nat) (esc : Bool) (s out : Decoder) : Prop where
  text : ∀ d c, closedValue true (read s.mem s.src (len - s.i)) = some (d, c) →
    out.mem = patch s.mem s.dst d ∧ out.dst = s.dst + d.length ∧ out.i = s.i + c
  closed : ∀ d c, closedValue esc (read s.mem s.src (len - s.i)) = some (d, c) →
    DecodeSpec s out (s.src + (len - s.i)) d c
  open_ : closedValue esc (read s.mem s.src (len - s.i)) = none →
    out.dst = s.src + (len - s.i) ∨ ∃ a ∈ out.touched, s.src + (len - s.i) ≤ a

theorem LoopSpec.put {esc : Bool} {next : Bool → Bool} (h : LoopSpec len (next esc) (s.put u x) out) (hds : s.dst ≤ s.src)
    (hu : 0 < u) (hw : u ≤ len - s.i) (htrue : next true = true)
    (hv : ∀ b, closedValue b (read s.mem s.src (len - s.i)) =
      (closedValue (next b) (read s.mem (s.src + u) (len - s.i - u))).map fun r => (x :: r.1, r.2 + u)) :
    LoopSpec len esc s out := by
  have hrest : read (s.put u x).mem (s.put u x).src (len - (s.put u x).i) = read s.mem (s.src + u) (len - s.i - u) := by
    rw [put_read (by omega), show len - (s.put u x).i = len - s.i - u by simp only [Decoder.put]; omega]
  have hend : (s.put u x).src + (len - (s.put u x).i) = s.src + (len - s.i) := by
    simp only [Decoder.put]
    omega
  constructor
  · intro d c hc
    rw [hv, htrue, Option.map_eq_some_iff] at hc
    obtain ⟨⟨d', c'⟩, hr, he⟩ := hc
    cases he
    obtain ⟨hmem, hdst, hi⟩ := h.text d' c' (by rw [hrest, hr])
    refine ⟨hmem, ?_, ?_⟩
    · rw [hdst, List.length_cons]
      simp only [Decoder.put]
      omega
    · rw [hi]
      simp only [Decoder.put]
      omega
  · intro d c hc
    rw [hv, Option.map_eq_some_iff] at hc
    obtain ⟨⟨d', c'⟩, hr, he⟩ := hc
    cases he
    have := h.closed d' c' (by rw [hrest, hr])
    rw [hend] at this
    have := this.put hds hu
    rwa [Nat.add_comm u] at this
  · intro hn
    rw [hv, Option.map_eq_none_iff] at hn
    have := h.open_ (by rw [hrest, hn])
    rwa [hend] at this

theorem loop_end {esc : Bool} (hi : len - s.i = 0) (hds : s.dst ≤ s.src) (hesc : esc = true ↔ s.dst < s.src) :
    LoopSpec len esc s s := by
  have hv : ∀ b, closedValue b (read s.mem s.src (len - s.i)) = if b then some ([], 0) else none := fun b => by
    rw [hi, read_zero, closedValue]
  constructor
  · intro d c hc
    rw [hv] at hc
    cases hc
    exact ⟨rfl, rfl, rfl⟩
  · intro d c hc
    rw [hv] at hc
    cases esc with
    | false => cases hc
    | true =>
      cases hc
      exact
        { mem := rfl
          dst := rfl
          i := rfl
          short := hesc.mp rfl
          used := Nat.le_add_right _ _
          touched := fun a ha => .inl ha }
  · intro hn
    rw [hv] at hn
    cases esc with
    | false =>
      have : ¬s.dst < s.src := fun h => Bool.false_ne_true (hesc.mpr h)
      exact .inl (by omega)
    | true => cases hn

theorem loop_fieldEnd {esc : Bool} (hi : s.i < len) (hds : s.dst ≤ s.src) (hend : isFieldEnd (s.mem s.src) = true) :
    LoopSpec len esc s { s with src := s.src + 1, i := s.i + 1, touched := s.src :: s.touched } := by
  obtain ⟨w, hw⟩ : ∃ w, len - s.i = w + 1 := ⟨len - s.i - 1, by omega⟩
  have hv : ∀ b, closedValue b (read s.mem s.src (len - s.i)) = some ([], 1) := fun b => by
    rw [hw, read_succ, closedValue_end hend]
  constructor
  · intro d c hc
    rw [hv] at hc
    cases hc
    exact ⟨rfl, rfl, rfl⟩
  · intro d c hc
    rw [hv] at hc
    cases hc
    exact
      { mem := rfl
        dst := rfl
        i := rfl
        short := Nat.lt_succ_of_le hds
        used := by omega
        touched := fun a ha => by
          rcases List.mem_cons.mp ha with rfl | ha
          · exact .inr ⟨hds, Nat.lt_succ_self _⟩
          · exact .inl ha }
  · intro hn
    rw [hv] at hn
    cases hn

/-- An escape that the end cuts is read across it. -/
theorem loop_cut {esc : Bool} (hi : s.i < len) (hpct : s.mem s.src = 37) (hw : len - s.i < 3) (x : UInt8) :
    LoopSpec len esc s (decodeLoop len fuel (s.put 3 x)) := by
  obtain ⟨w, hlen⟩ : ∃ w, len - s.i = w + 1 := ⟨len - s.i - 1, by omega⟩
  have hv : ∀ b, closedValue b (read s.mem s.src (len - s.i)) = none := fun b => by
    rw [hlen, read_succ, hpct]
    exact closedValue_cut (by rw [length_read]; omega)
  constructor
  · intro d c hc
    rw [hv] at hc
    cases hc
  · intro d c hc
    rw [hv] at hc
    cases hc
  · intro _
    exact .inr ⟨s.src + 2, decodeLoop_touched (mem_put.mpr (.inr (.inl ⟨by omega, by omega⟩))), by omega⟩

theorem decodeLoop_spec : ∀ {fuel : Nat} {s : Decoder} {esc : Bool}, len - s.i ≤ fuel → s.dst ≤ s.src →
    (esc = true ↔ s.dst < s.src) → LoopSpec len esc s (decodeLoop len fuel s)
  | 0, s, esc, hf, hds, hesc => loop_end (Nat.le_zero.mp hf) hds hesc
  | fuel + 1, s, esc, hf, hds, hesc => by
    unfold decodeLoop
    by_cases hi : len ≤ s.i
    · rw [if_pos hi]
      exact loop_end (Nat.sub_eq_zero_of_le hi) hds hesc
    rw [if_neg hi]
    dsimp only
    by_cases hend : isFieldEnd (s.mem s.src) = true
    · rw [if_pos hend]
      exact loop_fieldEnd (by omega) hds hend
    rw [if_neg hend]
    have hend := Bool.eq_false_iff.mpr hend
    by_cases hpct : (s.mem s.src == 37) = true
    · rw [if_pos hpct]
      have h37 : s.mem s.src = 37 := eq_of_beq hpct
      by_cases hw : len - s.i < 3
      · exact loop_cut (by omega) h37 hw _
      · obtain ⟨w, hw⟩ : ∃ w, len - s.i = w + 3 := ⟨len - s.i - 3, by omega⟩
        have hnext : ∀ x, LoopSpec len true (s.put 3 x) (decodeLoop len fuel (s.put 3 x)) := fun x =>
          decodeLoop_spec (by simp only [Decoder.put]; omega) (by simp only [Decoder.put]; omega)
            ⟨fun _ => by simp only [Decoder.put]; omega, fun _ => rfl⟩
        refine @LoopSpec.put s _ 3 len _ esc (fun _ => true) (hnext _) hds (by decide) (by omega) rfl fun b => ?_
        rw [hw, read_succ, read_succ, read_succ, h37, closedValue_escape]
        rfl
    · rw [if_neg hpct]
      have hpct := Bool.eq_false_iff.mpr hpct
      obtain ⟨w, hw⟩ : ∃ w, len - s.i = w + 1 := ⟨len - s.i - 1, by omega⟩
      have hnext : ∀ x, LoopSpec len esc (s.put 1 x) (decodeLoop len fuel (s.put 1 x)) := fun x =>
        decodeLoop_spec (by simp only [Decoder.put]; omega) (by simp only [Decoder.put]; omega)
          (hesc.trans (by simp only [Decoder.put]; omega))
      have hv : ∀ b, closedValue b (read s.mem s.src (len - s.i)) =
          (closedValue b (read s.mem (s.src + 1) (len - s.i - 1))).map
            fun r => ((if s.mem s.src == 43 then 32 else s.mem s.src) :: r.1, r.2 + 1) := fun b => by
        rw [hw, read_succ, closedValue_char hend hpct]
        rfl
      by_cases hplus : (s.mem s.src == 43) = true
      · rw [if_pos hplus] at hv ⊢
        exact @LoopSpec.put s _ 1 len _ esc id (hnext 32) hds (by decide) (by omega) rfl hv
      · rw [if_neg hplus] at hv ⊢
        exact @LoopSpec.put s _ 1 len _ esc id (hnext _) hds (by decide) (by omega) rfl hv

end

/-! ## White space around a value -/

def blank (s : List UInt8) : Bool := s != [] && s.all isSpace

theorem blank_iff {s : List UInt8} : blank s = true ↔ s ≠ [] ∧ s.dropWhile isSpace = [] := by
  simp [blank, List.dropWhile_eq_nil_iff]

theorem spacesBack_spec {b : Nat} : ∀ {k : Nat} {m : Nat → UInt8}, (∀ i < k, isSpace (m (b + 1 + i)) = true) →
    isSpace (m b) = false →
    (∀ x, (spacesBack (b + 1 + k) m).1 x = if b + 1 ≤ x ∧ x < b + 1 + k then 0 else m x) ∧
      ∀ a ∈ (spacesBack (b + 1 + k) m).2, b ≤ a ∧ a < b + 1 + k
  | 0, m, _, hb => by
    rw [Nat.add_zero, spacesBack, if_neg (by rw [hb]; exact Bool.false_ne_true)]
    refine ⟨fun x => by rw [if_neg (by omega)], fun a ha => ?_⟩
    rw [List.mem_singleton.mp ha]
    omega
  | k + 1, m, hk, hb => by
    have hother : ∀ x, x ≠ b + 1 + k → patch m (b + 1 + k) [0] x = m x := fun x hx =>
      patch_outside (by simp only [List.length_singleton]; omega)
    have hself : patch m (b + 1 + k) [0] (b + 1 + k) = 0 := Function.update_self ..
    obtain ⟨hmem, hts⟩ := @spacesBack_spec b k (patch m (b + 1 + k) [0])
      (fun i hi => by rw [hother _ (by omega)]; exact hk i (by omega)) (by rw [hother _ (by omega)]; exact hb)
    rw [← Nat.add_assoc, spacesBack, if_pos (hk k (Nat.lt_succ_self k))]
    constructor
    · intro x
      show (spacesBack (b + 1 + k) (patch m (b + 1 + k) [0])).1 x = _
      rw [hmem]
      by_cases hx : x = b + 1 + k
      · subst hx
        rw [if_neg (by omega), if_pos (by omega), hself]
      · rw [hother x hx]
        by_cases hin : b + 1 ≤ x ∧ x < b + 1 + k
        · rw [if_pos hin, if_pos (by omega)]
        · rw [if_neg hin, if_neg (by omega)]
    · intro a ha
      rcases List.mem_cons.mp ha with rfl | ha
      · omega
      · have := hts a ha
        omega

/-- A text that starts with no space ends in a character that is none, and spaces. -/
theorem trailing_spaces {t : List UInt8} (hne : t ≠ []) (hhead : t.dropWhile isSpace = t) :
    ∃ u c sp, t = u ++ c :: sp ∧ isSpace c = false ∧ (∀ x ∈ sp, isSpace x = true) ∧ t.rdropWhile isSpace = u ++ [c] := by
  have hdrop : t.rdropWhile isSpace ≠ [] := by
    intro h
    have hall := List.rdropWhile_eq_nil_iff.mp h
    exact hne (hhead ▸ List.dropWhile_eq_nil_iff.mpr hall)
  have hlast := List.rdropWhile_last_not isSpace t hdrop
  obtain ⟨u, c, hu⟩ := (List.eq_nil_or_concat' (t.rdropWhile isSpace)).resolve_left hdrop
  simp only [hu, List.getLast_concat] at hlast
  refine ⟨u, c, t.rtakeWhile isSpace, ?_, Bool.eq_false_iff.mpr hlast, fun x => List.mem_rtakeWhile_imp, hu⟩
  have hsplit := @List.rdropWhile_append_rtakeWhile _ isSpace t
  rw [hu, List.append_assoc] at hsplit
  exact hsplit.symm

/-- What `strrmvspace` does to the string `s` at `p`. -/
structure StripSpec (m : Nat → UInt8) (p : Nat) (s : List UInt8) (out : (Nat → UInt8) × List Nat) : Prop where
  holds : CStr.Holds out.1 p (strrmvspace s)
  frame : ∀ x, x < p ∨ p + s.length < x → out.1 x = m x
  touched : ∀ a ∈ out.2, a ≤ p + s.length ∧ (p ≤ a ∨ blank s = true ∧ a + 1 = p)

section
variable {m : Nat → UInt8} {p n : Nat} {s : List UInt8}

theorem patch_zero : patch m p [0] p = 0 := Function.update_self ..

theorem strip_empty : StripSpec m p [] (patch m p [0], [p]) where
  holds := ⟨rfl, List.not_mem_nil, patch_zero⟩
  frame x hx := patch_outside (by simp only [List.length_nil, List.length_singleton] at *; omega)
  touched a ha := by
    rw [List.mem_singleton.mp ha]
    exact ⟨Nat.le_refl p, .inl (Nat.le_refl p)⟩

/-- The counted characters end in no space, or in some that are cleared. -/
theorem strrmvspace_split (hne : s.dropWhile isSpace ≠ []) : ∃ u c sp rest,
    counted (s.dropWhile isSpace) = u ++ c :: sp ∧ s.dropWhile isSpace = u ++ c :: sp ++ rest ∧ isSpace c = false ∧
      (∀ x ∈ sp, isSpace x = true) ∧ strrmvspace s = if sp = [] then u ++ c :: rest else u ++ [c] := by
  have hcut : counted (s.dropWhile isSpace) ++ (s.dropWhile isSpace).drop Util.strlenMax = s.dropWhile isSpace :=
    List.take_append_drop _ _
  have hcounted : counted (s.dropWhile isSpace) ≠ [] := fun h =>
    hne ((List.take_eq_nil_iff.mp h).resolve_left (by decide))
  obtain ⟨u, c, sp, ht, hc, hsp, hu⟩ := trailing_spaces hcounted (counted_head (List.dropWhile_idempotent isSpace s))
  refine ⟨u, c, sp, (s.dropWhile isSpace).drop Util.strlenMax, ht, by rw [← ht, hcut], hc, hsp, ?_⟩
  rw [strrmvspace, hu, ht]
  by_cases hnil : sp = []
  · subst hnil
    rw [if_pos rfl, if_pos rfl]
    rw [ht, List.append_assoc] at hcut
    exact hcut.symm
  · rw [if_neg hnil, if_neg]
    intro h
    have hlen := congrArg List.length h
    rw [List.length_append, List.length_append, List.length_singleton, List.length_cons] at hlen
    exact hnil (List.eq_nil_of_length_eq_zero (by omega))

/-- The string is moved to the front, and the spaces behind its counted characters are cleared. -/
theorem strip_text (h0 : 0 ∉ s) (hne : s.dropWhile isSpace ≠ []) :
    let r := spacesBack (p + (counted (s.dropWhile isSpace)).length) (patch m p (s.dropWhile isSpace ++ [0]))
    StripSpec m p s (r.1, r.2 ++ List.range' p (s.length + 1)) := by
  have hsuf : s.dropWhile isSpace <:+ s := List.dropWhile_suffix isSpace
  have hlen := hsuf.length_le
  have hzero : 0 ∉ strrmvspace s := fun h => h0 (strrmvspace_sublist.mem h)
  obtain ⟨u, c, sp, rest, hcounted, ht, hc, hsp, hstrip⟩ := strrmvspace_split hne
  rw [hcounted]
  rw [ht] at hlen ⊢
  simp only [List.length_append, List.length_cons] at hlen ⊢
  rw [show p + (u.length + (sp.length + 1)) = p + u.length + 1 + sp.length by omega]
  have hall : Holds (patch m p (u ++ c :: sp ++ rest ++ [0])) p (u ++ (c :: (sp ++ (rest ++ [0])))) := by
    rw [show u ++ c :: (sp ++ (rest ++ [0])) = u ++ c :: sp ++ rest ++ [0] by simp]
    exact fun i hi => patch_inside hi
  obtain ⟨hu', hrest⟩ := holds_append.mp hall
  obtain ⟨hcat, hrest⟩ := holds_cons.mp hrest
  obtain ⟨hspat, hlast⟩ := holds_append.mp hrest
  obtain ⟨hmem, hts⟩ := @spacesBack_spec (p + u.length) sp.length (patch m p (u ++ c :: sp ++ rest ++ [0]))
    (fun i hi => by rw [hspat i hi]; exact hsp _ (List.getElem_mem hi)) (by rw [hcat]; exact hc)
  constructor
  · by_cases hnil : sp = []
    · subst hnil
      rw [hstrip, if_pos rfl] at hzero ⊢
      have hwritten : CStr.Holds (patch m p (u ++ c :: rest ++ [0])) p (u ++ c :: rest) := CStr.holds_patch hzero
      refine CStr.Holds.congr hwritten fun i _ => ?_
      rw [hmem, if_neg (by simp only [List.length_nil]; omega), List.append_assoc u [c] rest]
      rfl
    · have hpos := List.length_pos_iff.mpr hnil
      rw [hstrip, if_neg hnil] at hzero ⊢
      refine ⟨List.ext_getElem (by simp) fun i hi hi' => ?_, hzero, ?_⟩
      · rw [getElem_read, hmem, if_neg (by simp at hi'; omega)]
        rcases Nat.lt_or_ge i u.length with h | h
        · rw [hu' i h, List.getElem_append_left h]
        · obtain rfl : i = u.length := by simp at hi'; omega
          rw [hcat, List.getElem_concat_length rfl]
      · rw [hmem, List.length_append, List.length_singleton, if_pos (by omega)]
  · intro x hx
    rw [hmem, if_neg (by omega), patch_outside]
    simp only [List.length_append, List.length_cons, List.length_nil]
    omega
  · intro a ha
    rcases List.mem_append.mp ha with ha | ha
    · have := hts a ha
      exact ⟨by omega, .inl (by omega)⟩
    · rw [List.mem_range'_1] at ha
      exact ⟨by omega, .inl ha.1⟩

theorem strip_blank (hs : blank s = true) (hb : isSpace (m p) = false) :
    StripSpec m (p + 1) s (let r := spacesBack (p + 1) (patch m (p + 1) [0]); (r.1, r.2 ++ List.range' (p + 1) (s.length + 1))) := by
  have hdrop := (blank_iff.mp hs).2
  have hback : spacesBack (p + 1) (patch m (p + 1) [0]) = (patch m (p + 1) [0], [p]) := by
    rw [spacesBack, patch_below (Nat.lt_succ_self p), if_neg (by rw [hb]; exact Bool.false_ne_true)]
  rw [hback]
  constructor
  · rw [strrmvspace, hdrop]
    exact ⟨rfl, List.not_mem_nil, patch_zero⟩
  · exact fun x hx => patch_outside (by simp only [List.length_singleton]; omega)
  · intro a ha
    rcases List.mem_append.mp ha with ha | ha
    · rw [List.mem_singleton.mp ha]
      exact ⟨by omega, .inr ⟨hs, rfl⟩⟩
    · rw [List.mem_range'_1] at ha
      exact ⟨by omega, .inl ha.1⟩

theorem strrmvspaceAt_spec (hs : (read m p n).takeWhile (· != 0) = s)
    (hb : blank s = true → ∃ q, p = q + 1 ∧ isSpace (m q) = false) : StripSpec m p s (strrmvspaceAt m p n) := by
  have h0 : 0 ∉ s := by
    intro h
    rw [← hs] at h
    exact absurd (List.mem_takeWhile_imp h) (by decide)
  rw [strrmvspaceAt, hs]
  dsimp only
  by_cases he : s = []
  · rw [if_pos he]
    subst he
    exact strip_empty
  · rw [if_neg he]
    by_cases hd : s.dropWhile isSpace = []
    · have hbl := blank_iff.mpr ⟨he, hd⟩
      obtain ⟨q, rfl, hq⟩ := hb hbl
      rw [hd]
      exact strip_blank hbl hq
    · exact strip_text h0 hd

/-- A string of spaces has the byte before it read. -/
theorem strrmvspaceAt_blank (hs : (read m (p + 1) n).takeWhile (· != 0) = s) (hb : blank s = true) :
    p ∈ (strrmvspaceAt m (p + 1) n).2 := by
  obtain ⟨hne, hd⟩ := blank_iff.mp hb
  rw [strrmvspaceAt, hs]
  dsimp only
  rw [if_neg hne, hd]
  apply List.mem_append_left
  simp only [counted_nil, List.length_nil, Nat.add_zero, List.nil_append, spacesBack]
  split
  · exact List.mem_cons_self
  · exact List.mem_cons_self

end

end SerialNet.Param
