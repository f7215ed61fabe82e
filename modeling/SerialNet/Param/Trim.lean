import SerialNet.Param.FormMemory

/-!
# strrmvspace on two buffers

The loops of `strrmvspace` with every access to `src[i]` and `dst[i]`. Indices
and addresses are words. The last loop starts where `strlen` ends, which need
not be the end of the string.
-/

namespace SerialNet.Param

open Patch

namespace Trim

inductive Base where
  | src
  | dst
  deriving DecidableEq, Repr

abbrev Access := Base × Nat

def word (n : Nat) : Nat := n % 2 ^ 32

/-- `for (i = 0; isspace(src[i]); i++);` -/
def skipSpaces (m : Nat → UInt8) (src : Nat) : Nat → Nat → Option (Nat × List Access)
  | 0, _ => none
  | fuel + 1, i =>
    if isSpace (m (word (src + i))) then (skipSpaces m src fuel (word (i + 1))).map fun r => (r.1, (.src, i) :: r.2)
    else some (i, [(.src, i)])

/-- `strcpy(dst, &src[i])` after `k` characters. -/
def copyString (dst src i : Nat) : Nat → (Nat → UInt8) → Nat → Option ((Nat → UInt8) × List Access)
  | 0, _, _ => none
  | fuel + 1, m, k =>
    let c := m (word (src + (i + k)))
    let m := patch m (word (dst + k)) [c]
    if c = 0 then some (m, [(.src, i + k), (.dst, k)])
    else (copyString dst src i fuel m (k + 1)).map fun r => (r.1, (.src, i + k) :: (.dst, k) :: r.2)

/-- `for (; isspace(dst[i]); i--) dst[i] = 0;` -/
def clearSpaces (dst : Nat) : Nat → (Nat → UInt8) → Nat → Option ((Nat → UInt8) × List Access)
  | 0, _, _ => none
  | fuel + 1, m, i =>
    if isSpace (m (word (dst + i))) then
      (clearSpaces dst fuel (patch m (word (dst + i)) [0]) (word (i + (2 ^ 32 - 1)))).map fun r => (r.1, (.dst, i) :: r.2)
    else some (m, [(.dst, i)])

def strlen (m : Nat → UInt8) (a : Nat) : Nat := Util.strlen (fun x => m (word x)) a

def strlenReads (n : Nat) : List Access := (List.range (n + 1)).map (.dst, ·)

/-- `strrmvspace(dst, src)`; nothing when a loop runs for more than `fuel` turns. -/
def strrmvspaceMem (fuel : Nat) (m : Nat → UInt8) (dst src : Nat) : Option ((Nat → UInt8) × List Access) :=
  if m src = 0 then some (patch m dst [0], [(.src, 0), (.dst, 0)])
  else
    (skipSpaces m src fuel 0).bind fun (i, skipped) =>
      (copyString dst src i fuel m 0).bind fun (m, copied) =>
        let n := strlen m dst
        (clearSpaces dst fuel m (word (n + (2 ^ 32 - 1)))).map fun (m, cleared) =>
          (m, (.src, 0) :: skipped ++ copied ++ strlenReads n ++ strlenReads n ++ cleared)

def trimmed (s : List UInt8) : List UInt8 := (s.dropWhile isSpace).rdropWhile isSpace

/-- The trimmed string is at `dst`, nothing else is written, and no index is beyond the string. -/
structure Trimmed (m m' : Nat → UInt8) (dst : Nat) (s : List UInt8) (log : List Access) : Prop where
  text : CStr.Holds m' dst (trimmed s)
  frame : ∀ x, x < dst ∨ dst + s.length < x → m' x = m x
  inside : ∀ a ∈ log, a.2 ≤ s.length

/-- The loops end, and leave that. -/
def Trims (m : Nat → UInt8) (dst src : Nat) (s : List UInt8) : Prop :=
  ∃ turns m' log, (∀ fuel, turns ≤ fuel → strrmvspaceMem fuel m dst src = some (m', log)) ∧ Trimmed m m' dst s log

/-- All is counted by `strlen`; or neither the whole nor what is counted ends in
white space; or what is counted does, and the rest is nothing else. -/
def Reached (t : List UInt8) : Prop :=
  t.length ≤ Util.strlenMax ∨ (EndsBare (counted t) ∧ EndsBare t) ∨
    (¬EndsBare (counted t) ∧ ∀ c ∈ t.drop Util.strlenMax, isSpace c = true)

def Placed (dst src n : Nat) : Prop := dst = src ∨ dst + n < src ∨ src + n < dst

/-! ## The loops -/

section
variable {m : Nat → UInt8} {dst src i n : Nat} {s t : List UInt8}

theorem word_of_lt (h : n < 2 ^ 32) : word n = n := Nat.mod_eq_of_lt h

theorem le_of_strlenReads {a : Access} (h : a ∈ strlenReads n) : a.2 ≤ n := by
  obtain ⟨i, hi, rfl⟩ := List.mem_map.mp h
  exact Nat.le_of_lt_succ (List.mem_range.mp hi)

theorem strlen_held (h : CStr.Holds m src s) (hfit : src + s.length < 2 ^ 32) : strlen m src = (counted s).length := by
  have hword : CStr.Holds (fun x => m (word x)) src s := by
    refine CStr.Holds.congr h fun i hi => ?_
    rw [word_of_lt (by omega)]
  rw [strlen, Util.strlen_holds hword, counted, List.length_take, Nat.min_comm]

theorem skipSpaces_spec : ∀ {k i : Nat}, (∀ j, j < k → isSpace (m (src + (i + j))) = true) →
    isSpace (m (src + (i + k))) = false → src + (i + k) < 2 ^ 32 →
    ∃ log, (∀ x ∈ log, x.2 ≤ i + k) ∧ ∀ fuel, k < fuel → skipSpaces m src fuel i = some (i + k, log)
  | 0, i, _, hend, hfit => by
    rw [Nat.add_zero] at hend hfit
    refine ⟨[(.src, i)], fun x hx => by rw [List.mem_singleton.mp hx, Nat.add_zero], fun fuel hf => ?_⟩
    obtain ⟨fuel, rfl⟩ := Nat.exists_eq_succ_of_ne_zero (Nat.ne_of_gt hf)
    rw [skipSpaces, word_of_lt hfit, if_neg (by rw [hend]; exact Bool.false_ne_true), Nat.add_zero]
  | k + 1, i, hall, hend, hfit => by
    obtain ⟨log, hlog, hrun⟩ := @skipSpaces_spec k (i + 1) (fun j hj => by
        have := hall (j + 1) (by omega)
        rwa [show i + (j + 1) = i + 1 + j by omega] at this)
      (by rwa [show i + 1 + k = i + (k + 1) by omega]) (by omega)
    have hfirst := hall 0 (Nat.succ_pos k)
    rw [Nat.add_zero] at hfirst
    refine ⟨(.src, i) :: log, fun x hx => ?_, fun fuel hf => ?_⟩
    · rcases List.mem_cons.mp hx with rfl | hx
      · exact Nat.le_add_right _ _
      · have := hlog x hx
        omega
    · obtain ⟨fuel, rfl⟩ := Nat.exists_eq_succ_of_ne_zero (Nat.ne_of_gt (Nat.zero_lt_of_lt hf))
      rw [skipSpaces, word_of_lt (by omega), if_pos hfirst, word_of_lt (by omega), hrun fuel (by omega), Option.map_some,
        show i + 1 + k = i + (k + 1) by omega]

/-- Copying towards lower addresses, or elsewhere, reads nothing it has written. -/
theorem copyString_spec : ∀ {t : List UInt8} {k : Nat} {m : Nat → UInt8}, CStr.Holds m (src + (i + k)) t →
    (∀ j j', j < j' → j' ≤ k + t.length → dst + j ≠ src + (i + j')) → dst + (k + t.length) < 2 ^ 32 →
    src + (i + (k + t.length)) < 2 ^ 32 →
    ∃ log, (∀ a ∈ log, a.2 ≤ i + (k + t.length)) ∧ ∀ fuel, t.length < fuel →
      copyString dst src i fuel m k = some (patch m (dst + k) (t ++ [0]), log)
  | [], k, m, hs, _, hd, hsrc => by
    rw [List.length_nil] at hd hsrc
    have hend : m (src + (i + k)) = 0 := hs.ended
    refine ⟨[(.src, i + k), (.dst, k)], fun a ha => ?_, fun fuel hf => ?_⟩
    · simp only [List.mem_cons, List.not_mem_nil, or_false] at ha
      rcases ha with rfl | rfl <;> simp only [List.length_nil] <;> omega
    · obtain ⟨fuel, rfl⟩ := Nat.exists_eq_succ_of_ne_zero (Nat.ne_of_gt hf)
      rw [copyString, word_of_lt (by omega), hend, if_pos rfl, word_of_lt (by omega)]
      rfl
  | c :: t, k, m, hs, hsep, hd, hsrc => by
    rw [List.length_cons] at hd hsrc hsep
    have hc : m (src + (i + k)) = c := hs.char (Nat.succ_pos _)
    have hc0 : c ≠ 0 := fun h0 => hs.nonzero (h0 ▸ List.mem_cons_self)
    have hkeep : ∀ j, j ≤ t.length → patch m (dst + k) [c] (src + (i + (k + 1)) + j) = m (src + (i + (k + 1)) + j) :=
      fun j hj => by
        have := hsep k (k + 1 + j) (by omega) (by omega)
        exact patch_outside (by simp only [List.length_singleton]; omega)
    have htail : CStr.Holds (patch m (dst + k) [c]) (src + (i + (k + 1))) t := by
      have hrest := @CStr.Holds.drop m _ [c] t hs
      exact CStr.Holds.congr hrest hkeep
    obtain ⟨log, hlog, hrun⟩ := @copyString_spec t (k + 1) _ htail (fun j j' hj hj' => hsep j j' hj (by omega)) (by omega)
      (by omega)
    refine ⟨(.src, i + k) :: (.dst, k) :: log, fun a ha => ?_, fun fuel hf => ?_⟩
    · rw [List.length_cons]
      simp only [List.mem_cons] at ha
      rcases ha with rfl | rfl | ha
      · dsimp only
        omega
      · dsimp only
        omega
      · have := hlog a ha
        omega
    · rw [List.length_cons] at hf
      obtain ⟨fuel, rfl⟩ := Nat.exists_eq_succ_of_ne_zero (Nat.ne_of_gt (Nat.zero_lt_of_lt hf))
      rw [copyString, word_of_lt (by omega), hc, if_neg hc0, word_of_lt (by omega), hrun fuel (by omega), Option.map_some]
      rfl

theorem clearSpaces_spec {c : Nat} : ∀ {k : Nat} {m : Nat → UInt8},
    (∀ j, j < k → isSpace (m (dst + (c + 1 + j))) = true) → isSpace (m (dst + c)) = false → dst + (c + k) < 2 ^ 32 →
    ∃ log, (∀ a ∈ log, a.2 ≤ c + k) ∧ ∀ fuel, k < fuel →
      clearSpaces dst fuel m (c + k) = some ((spacesBack (dst + c + 1 + k) m).1, log)
  | 0, m, _, hend, hfit => by
    rw [Nat.add_zero] at hfit
    refine ⟨[(.dst, c)], fun a ha => by rw [List.mem_singleton.mp ha, Nat.add_zero], fun fuel hf => ?_⟩
    obtain ⟨fuel, rfl⟩ := Nat.exists_eq_succ_of_ne_zero (Nat.ne_of_gt hf)
    rw [clearSpaces, Nat.add_zero, word_of_lt hfit, if_neg (by rw [hend]; exact Bool.false_ne_true), Nat.add_zero,
      spacesBack, if_neg (by rw [hend]; exact Bool.false_ne_true)]
  | k + 1, m, hall, hend, hfit => by
    have hother : ∀ x, x ≠ dst + (c + (k + 1)) → patch m (dst + (c + (k + 1))) [0] x = m x := fun x hx =>
      patch_outside (by simp only [List.length_singleton]; omega)
    obtain ⟨log, hlog, hrun⟩ := @clearSpaces_spec c k (patch m (dst + (c + (k + 1))) [0])
      (fun j hj => by rw [hother _ (by omega)]; exact hall j (by omega)) (by rw [hother _ (by omega)]; exact hend)
      (by omega)
    have hlast := hall k (Nat.lt_succ_self k)
    rw [show c + 1 + k = c + (k + 1) by omega] at hlast
    refine ⟨(.dst, c + (k + 1)) :: log, fun a ha => ?_, fun fuel hf => ?_⟩
    · rcases List.mem_cons.mp ha with rfl | ha
      · exact Nat.le_refl _
      · have := hlog a ha
        omega
    · obtain ⟨fuel, rfl⟩ := Nat.exists_eq_succ_of_ne_zero (Nat.ne_of_gt (Nat.zero_lt_of_lt hf))
      rw [clearSpaces, word_of_lt hfit, if_pos hlast, show word (c + (k + 1) + (2 ^ 32 - 1)) = c + k by
        unfold word
        omega, hrun fuel (by omega), Option.map_some, show dst + c + 1 + (k + 1) = dst + (c + (k + 1)) + 1 by omega,
        spacesBack, if_pos hlast, show dst + (c + (k + 1)) = dst + c + 1 + k by omega]

theorem clearSpaces_first {fuel : Nat} {m' : Nat → UInt8} {log : List Access} (h : clearSpaces dst fuel m i = some (m', log)) :
    (.dst, i) ∈ log := by
  cases fuel with
  | zero => cases h
  | succ fuel =>
    rw [clearSpaces] at h
    split at h
    · obtain ⟨r, -, hr⟩ := Option.map_eq_some_iff.mp h
      cases hr
      exact List.mem_cons_self
    · cases h
      exact List.mem_cons_self

/-! ## White space that `strlen` reaches -/

theorem rdropWhile_append_space (h : ∀ c ∈ s, isSpace c = true) :
    (t ++ s).rdropWhile isSpace = t.rdropWhile isSpace := by
  rw [List.rdropWhile, List.reverse_append, List.dropWhile_append_of_pos fun c hc => h c (List.mem_reverse.mp hc),
    List.rdropWhile]

/-- What is cut off is the end of the text. -/
theorem rtakeWhile_eq_drop : t.rtakeWhile isSpace = t.drop (t.rdropWhile isSpace).length := by
  have h := congrArg (List.drop (t.rdropWhile isSpace).length) (@List.rdropWhile_append_rtakeWhile _ isSpace t)
  rwa [List.drop_left] at h

/-- Cutting a front is cutting the whole when the rest is white space. -/
theorem rdropWhile_take : t.rdropWhile isSpace = (t.take n).rdropWhile isSpace ↔ ∀ c ∈ t.drop n, isSpace c = true := by
  constructor
  · intro he c hc
    have hle : (t.rdropWhile isSpace).length ≤ n := by
      rw [he]
      exact (List.rdropWhile_prefix _ _).length_le.trans (List.length_take_le _ _)
    refine List.mem_rtakeWhile_imp (p := isSpace) (l := t) ?_
    rw [rtakeWhile_eq_drop]
    exact List.drop_subset_drop_left t hle hc
  · intro hall
    have h := @rdropWhile_append_space (t.drop n) (t.take n) hall
    rwa [List.take_append_drop] at h

/-- What the code leaves is the trimmed string where `strlen` reaches the white space at its end. -/
theorem strrmvspace_eq_trimmed : strrmvspace s = trimmed s ↔ Reached (s.dropWhile isSpace) := by
  unfold strrmvspace trimmed Reached
  generalize s.dropWhile isSpace = t
  dsimp only
  by_cases hle : t.length ≤ Util.strlenMax
  · have hall : counted t = t := counted_short hle
    rw [hall]
    refine iff_of_true ?_ (.inl hle)
    split
    · rename_i h
      exact h.symm
    · rfl
  · by_cases hbare : EndsBare (counted t)
    · rw [if_pos (rdropWhile_iff.mpr hbare), eq_comm, rdropWhile_iff]
      exact ⟨fun h => .inr (.inl ⟨hbare, h⟩), fun h => ((h.resolve_left hle).resolve_right fun h => h.1 hbare).2⟩
    · rw [if_neg (mt rdropWhile_iff.mp hbare), eq_comm]
      refine rdropWhile_take.trans ⟨fun h => .inr (.inr ⟨hbare, h⟩), fun h => ?_⟩
      exact ((h.resolve_left hle).resolve_left fun h => hbare h.1).2

/-! ## The whole function -/

theorem length_spaces (s : List UInt8) : (s.takeWhile isSpace).length + (s.dropWhile isSpace).length = s.length := by
  rw [← List.length_append, List.takeWhile_append_dropWhile]

theorem holds_dropWhile (hs : CStr.Holds m src s) :
    CStr.Holds m (src + (s.takeWhile isSpace).length) (s.dropWhile isSpace) := by
  rw [← @List.takeWhile_append_dropWhile _ isSpace s] at hs
  exact hs.drop

/-- The first loop stops at the first character that is no white space, or at the zero. -/
theorem skipSpaces_text (hs : CStr.Holds m src s) (hsrc : src + s.length < 2 ^ 32) :
    ∃ log, (∀ a ∈ log, a.2 ≤ (s.takeWhile isSpace).length) ∧ ∀ fuel, (s.takeWhile isSpace).length < fuel →
      skipSpaces m src fuel 0 = some ((s.takeWhile isSpace).length, log) := by
  have hlen := length_spaces s
  have hrest := holds_dropWhile hs
  have hstop : isSpace (m (src + (0 + (s.takeWhile isSpace).length))) = false := by
    rw [Nat.zero_add]
    by_cases hnil : s.dropWhile isSpace = []
    · have hend := hrest.ended
      rw [hnil, List.length_nil, Nat.add_zero] at hend
      rw [hend]
      decide
    · have hc := hrest.char (List.length_pos_iff.mpr hnil)
      rw [Nat.add_zero] at hc
      rw [hc, List.getElem_zero]
      exact List.head_dropWhile_not isSpace hnil
  have hskip := @skipSpaces_spec m src (s.takeWhile isSpace).length 0
    (fun j hj => by
      rw [Nat.zero_add, hs.char (by omega), ← (List.takeWhile_prefix isSpace).getElem hj]
      exact List.mem_takeWhile_imp (List.getElem_mem hj)) hstop (by omega)
  rwa [Nat.zero_add] at hskip

/-- Up to the last loop: the string without its leading spaces is at `dst`. -/
theorem front_run (hs : CStr.Holds m src s) (hne : s ≠ []) (hplace : Placed dst src s.length)
    (hd : dst + s.length < 2 ^ 32) (hsrc : src + s.length < 2 ^ 32) : ∃ log, (∀ a ∈ log, a.2 ≤ s.length) ∧
      ∀ fuel, s.length < fuel → strrmvspaceMem fuel m dst src =
        (clearSpaces dst fuel (patch m dst (s.dropWhile isSpace ++ [0]))
          (word ((counted (s.dropWhile isSpace)).length + (2 ^ 32 - 1)))).map fun r => (r.1, log ++ r.2) := by
  have hlen := length_spaces s
  have hrest := holds_dropWhile hs
  have hfirst : m src ≠ 0 := fun h0 => by
    have hchar := hs.char (List.length_pos_iff.mpr hne)
    rw [Nat.add_zero, h0] at hchar
    exact hs.nonzero (hchar ▸ List.getElem_mem _)
  obtain ⟨skipped, hskipped, hskip⟩ := skipSpaces_text hs hsrc
  obtain ⟨copied, hcopied, hcopy⟩ := @copyString_spec dst src (s.takeWhile isSpace).length (s.dropWhile isSpace) 0 m
    hrest (fun j j' hj hj' => by rcases hplace with h | h | h <;> omega) (by omega) (by omega)
  have hholds : CStr.Holds (patch m dst (s.dropWhile isSpace ++ [0])) dst (s.dropWhile isSpace) :=
    CStr.holds_patch hrest.nonzero
  have hcount := strlen_held hholds (by omega)
  have hcounted := length_counted_le (s.dropWhile isSpace)
  refine ⟨(.src, 0) :: skipped ++ copied ++ strlenReads (counted (s.dropWhile isSpace)).length ++
    strlenReads (counted (s.dropWhile isSpace)).length, fun a ha => ?_, fun fuel hf => ?_⟩
  · simp only [List.mem_append, List.mem_cons] at ha
    rcases ha with (((rfl | ha) | ha) | ha) | ha
    · exact Nat.zero_le _
    · have := hskipped a ha
      omega
    · have := hcopied a ha
      omega
    · have := le_of_strlenReads ha
      omega
    · have := le_of_strlenReads ha
      omega
  · rw [strrmvspaceMem, if_neg hfirst, hskip fuel (by omega), Option.bind_some]
    dsimp only
    rw [hcopy fuel (by omega), Option.bind_some]
    dsimp only
    rw [Nat.add_zero, hcount]

theorem strrmvspaceMem_text (hs : CStr.Holds m src s) (hplace : Placed dst src s.length) (hd : dst + s.length < 2 ^ 32)
    (hsrc : src + s.length < 2 ^ 32) (hb : blank s = false) : ∃ turns m' log,
      (∀ fuel, turns ≤ fuel → strrmvspaceMem fuel m dst src = some (m', log)) ∧ CStr.Holds m' dst (strrmvspace s) ∧
      (∀ x, x < dst ∨ dst + s.length < x → m' x = m x) ∧ ∀ a ∈ log, a.2 ≤ s.length := by
  by_cases hne : s = []
  · subst hne
    refine ⟨0, patch m dst [0], [(.src, 0), (.dst, 0)], fun fuel _ => if_pos hs.ended, ?_, ?_, ?_⟩
    · exact ⟨rfl, List.not_mem_nil, patch_zero⟩
    · exact fun x hx => patch_outside (by simp only [List.length_nil, List.length_singleton] at *; omega)
    · intro a ha
      simp only [List.mem_cons, List.not_mem_nil, or_false] at ha
      rcases ha with rfl | rfl <;> exact Nat.le_refl 0
  · obtain ⟨log, hlog, hrun⟩ := front_run hs hne hplace hd hsrc
    have hdrop : s.dropWhile isSpace ≠ [] := fun h => by
      rw [blank_iff.mpr ⟨hne, h⟩] at hb
      cases hb
    have hstrip := @strip_text m dst s hs.nonzero hdrop
    obtain ⟨u, c, sp, rest, hcounted, ht, hc, hsp, -⟩ := strrmvspace_split hdrop
    have hlen : (s.dropWhile isSpace).length ≤ s.length := (List.dropWhile_suffix isSpace).length_le
    have hclen : (counted (s.dropWhile isSpace)).length = u.length + (sp.length + 1) := by
      rw [hcounted, List.length_append, List.length_cons]
    have hcle := length_counted_le (s.dropWhile isSpace)
    have hheld : Holds (patch m dst (s.dropWhile isSpace ++ [0])) dst (u ++ c :: (sp ++ (rest ++ [0]))) := by
      rw [show u ++ c :: (sp ++ (rest ++ [0])) = s.dropWhile isSpace ++ [0] by rw [ht]; simp]
      exact fun j hj => patch_inside hj
    obtain ⟨hlast, hrest⟩ := holds_cons.mp (holds_append.mp hheld).2
    have hspaces := (holds_append.mp hrest).1
    obtain ⟨cleared, hcleared, hclear⟩ := @clearSpaces_spec dst u.length sp.length
      (patch m dst (s.dropWhile isSpace ++ [0]))
      (fun j hj => by
        rw [show dst + (u.length + 1 + j) = dst + u.length + 1 + j by omega, hspaces j hj]
        exact hsp _ (List.getElem_mem hj))
      (by rw [hlast]; exact hc) (by omega)
    have hstart : word ((counted (s.dropWhile isSpace)).length + (2 ^ 32 - 1)) = u.length + sp.length := by
      rw [hclen]
      unfold word
      omega
    rw [hclen, show dst + (u.length + (sp.length + 1)) = dst + u.length + 1 + sp.length by omega] at hstrip
    refine ⟨s.length + 1, (spacesBack (dst + u.length + 1 + sp.length) (patch m dst (s.dropWhile isSpace ++ [0]))).1,
      log ++ cleared, fun fuel hf => ?_, hstrip.holds, hstrip.frame, fun a ha => ?_⟩
    · rw [hrun fuel (by omega), hstart, hclear fuel (by omega)]
      rfl
    · rcases List.mem_append.mp ha with ha | ha
      · exact hlog a ha
      · have := hcleared a ha
        omega

theorem trims_text (hs : CStr.Holds m src s) (hplace : Placed dst src s.length) (hd : dst + s.length < 2 ^ 32)
    (hsrc : src + s.length < 2 ^ 32) (hb : blank s = false) : Trims m dst src s ↔ Reached (s.dropWhile isSpace) := by
  obtain ⟨turns, m', log, hrun, hheld, hframe, hinside⟩ := strrmvspaceMem_text hs hplace hd hsrc hb
  rw [← strrmvspace_eq_trimmed]
  constructor
  · rintro ⟨turns', m'', log', hrun', htrimmed⟩
    have hsame := (hrun _ (Nat.le_max_left turns turns')).symm.trans (hrun' _ (Nat.le_max_right _ _))
    cases hsame
    exact hheld.unique htrimmed.text
  · intro he
    exact ⟨turns, m', log, hrun, he ▸ hheld, hframe, hinside⟩

theorem trims_blank (hs : CStr.Holds m src s) (hplace : Placed dst src s.length) (h0 : 0 < dst) (hd : dst + s.length < 2 ^ 32)
    (hsrc : src + s.length < 2 ^ 32) (hb : blank s = true) : ¬Trims m dst src s := by
  rintro ⟨turns, m', log, hrun, htrimmed⟩
  obtain ⟨hne, hdrop⟩ := blank_iff.mp hb
  obtain ⟨front, -, hfront⟩ := front_run hs hne hplace hd hsrc
  have hresult := hrun (max turns (s.length + 1)) (Nat.le_max_left _ _)
  rw [hfront _ (Nat.lt_of_lt_of_le (Nat.lt_succ_self _) (Nat.le_max_right _ _)), hdrop] at hresult
  obtain ⟨r, hclear, hr⟩ := Option.map_eq_some_iff.mp hresult
  cases hr
  have hfirst := htrimmed.inside _ (List.mem_append_right front (clearSpaces_first hclear))
  have hword : word ((counted []).length + (2 ^ 32 - 1)) = 2 ^ 32 - 1 := by
    rw [counted_nil]
    rfl
  rw [hword] at hfirst
  dsimp only at hfirst
  omega

/-- **`strrmvspace` trims a string exactly when it is empty or not all white
space, and `strlen` reaches the white space at its end.** -/
theorem strrmvspace_trims (hs : CStr.Holds m src s) (hplace : Placed dst src s.length) (h0 : 0 < dst)
    (hd : dst + s.length < 2 ^ 32) (hsrc : src + s.length < 2 ^ 32) :
    Trims m dst src s ↔ blank s = false ∧ Reached (s.dropWhile isSpace) := by
  constructor
  · intro h
    have hb : blank s = false := by
      rw [← Bool.not_eq_true]
      exact fun hb => trims_blank hs hplace h0 hd hsrc hb h
    exact ⟨hb, (trims_text hs hplace hd hsrc hb).mp h⟩
  · rintro ⟨hb, hreached⟩
    exact (trims_text hs hplace hd hsrc hb).mpr hreached

end

/-- `"  a b "`, trimmed where it is. -/
theorem strrmvspace_trims_inner : Trims (patch (fun _ => 0) 16 [32, 32, 97, 32, 98, 32]) 16 16 [32, 32, 97, 32, 98, 32] := by
  have hs : CStr.Holds (patch (fun _ => 0) 16 [32, 32, 97, 32, 98, 32]) 16 [32, 32, 97, 32, 98, 32] :=
    ⟨by decide, by decide, by decide⟩
  exact (strrmvspace_trims hs (.inl rfl) (by decide) (by decide) (by decide)).mpr ⟨by decide, .inl (by decide)⟩

/-- One space is not. -/
theorem strrmvspace_space : ¬Trims (patch (fun _ => 0) 16 [32]) 16 16 [32] := by
  have hs : CStr.Holds (patch (fun _ => 0) 16 [32]) 16 [32] := ⟨by decide, by decide, by decide⟩
  exact trims_blank hs (.inl rfl) (by decide) (by decide) (by decide) (by decide)

end Trim

end SerialNet.Param
