import Mathlib.Algebra.Order.Ring.Nat
import SerialNet.Lib.Patch
import SerialNet.Lib.Weave
import SerialNet.Param.Page

/-!
# Substitutions into a buffer

The page builders copy the template up to a marker, print the filled-in form
there and step behind it, by counts of their own. `Writer` is the code, and
`Draft` the page that comes of it where there is room.
-/

namespace SerialNet.Param

open Patch Weave

/-- A substitution: the text looked for, what is printed in its place (nothing
when a string is read that has no end), what `dst` and `datalen` are moved by,
and what is left in `digital`. -/
structure Subst where
  marker : List UInt8
  form : Option (List UInt8)
  move : Nat
  count : Nat
  scratch : Option (List UInt8)

/-- The text looked for may be the one in `digital`. -/
abbrev Step := List UInt8 → Subst

/-! ## The code -/

/-- The memory from `dest` on, with `top` behind the highest byte written. -/
structure Writer where
  mem : Nat → UInt8
  dst : Nat
  top : Nat
  mainstr : List UInt8
  datalen : UInt32
  digital : List UInt8

def Writer.insert (w : Writer) (s : Subst) : Option Writer :=
  match nustrstr s.marker w.mainstr with
  | none => some w
  | some (before, after) => s.form.map fun form =>
    { mem := patch (patch w.mem w.dst before) (w.dst + before.length) (form ++ [0])
      dst := w.dst + before.length + s.move
      top := max w.top (w.dst + before.length + (form.length + 1))
      mainstr := after
      datalen := w.datalen - UInt32.ofNat before.length - UInt32.ofNat s.count
      digital := s.scratch.getD w.digital }

def Writer.run : List Step → Writer → Option Writer
  | [], w => some w
  | step :: steps, w => (w.insert (step w.digital)).bind (Writer.run steps)

/-- The rest of the template, and the value returned. -/
def Writer.finish (len : UInt32) (w : Writer) : Writer × UInt32 :=
  let rest := copyRest w.datalen w.mainstr
  ({ w with
      mem := patch w.mem w.dst rest.1
      dst := w.dst + rest.1.length
      top := max w.top (w.dst + rest.1.length)
      datalen := rest.2 }, len - rest.2)

/-- A page builder: `digital` is what it holds when the first text is looked for. -/
def rebuild (steps : List Step) (digital : List UInt8) (m : Nat → UInt8) (src : List UInt8) (len : UInt32) :
    Option (Writer × UInt32) :=
  (Writer.run steps ⟨m, 0, 0, src, len, digital⟩).map (Writer.finish len)

/-! ## The page meant -/

/-- What was written so far, the template behind it, how far the printed forms
and their zeros reach, and by how much `datalen` is too high. -/
structure Draft where
  text : List UInt8
  rest : List UInt8
  reach : Nat
  slack : Nat
  digital : List UInt8

def Draft.insert (d : Draft) (s : Subst) : Option Draft :=
  match nustrstr s.marker d.rest with
  | none => some d
  | some (before, after) => s.form.map fun form =>
    { text := d.text ++ (before ++ form.take s.move)
      rest := after
      reach := max d.reach (d.text.length + before.length + (form.length + 1))
      slack := d.slack + (s.move - s.count)
      digital := s.scratch.getD d.digital }

def Draft.run : List Step → Draft → Option Draft
  | [], d => some d
  | step :: steps, d => (d.insert (step d.digital)).bind (Draft.run steps)

def Draft.page (d : Draft) : List UInt8 := d.text ++ d.rest

def draft (steps : List Step) (digital src : List UInt8) : Option Draft := Draft.run steps ⟨[], src, 0, 0, digital⟩

/-! ## The code follows the draft -/

/-- The counts do not run ahead of what is printed. -/
structure Subst.Sound (s : Subst) : Prop where
  move : ∀ form, s.form = some form → s.move ≤ form.length
  count : s.count ≤ s.move

structure Draft.Sound (d : Draft) : Prop where
  slack : d.slack ≤ d.text.length
  reach : d.text.length ≤ d.reach

structure Follows (len : UInt32) (m : Nat → UInt8) (w : Writer) (d : Draft) : Prop where
  mem : Holds w.mem 0 d.text
  frame : ∀ x, w.top ≤ x → w.mem x = m x
  dst : w.dst = d.text.length
  top : w.top = d.reach
  mainstr : w.mainstr = d.rest
  datalen : w.datalen + UInt32.ofNat d.text.length = len + UInt32.ofNat d.slack
  digital : w.digital = d.digital
  sound : d.Sound

section
variable {len : UInt32} {m : Nat → UInt8} {w : Writer} {d : Draft} {s : Subst} {l r : List UInt8}

theorem holds_keep {m m' : Nat → UInt8} {a : Nat} (h : Holds m a l) (hm : ∀ i, i < l.length → m' (a + i) = m (a + i)) :
    Holds m' a l := fun i hi => (hm i hi).trans (h i hi)

theorem holds_patch {m : Nat → UInt8} {a : Nat} : Holds (patch m a l) a l := fun _ hi => patch_inside hi

theorem holds_extend {m : Nat → UInt8} (h : Holds m 0 l) : Holds (patch m l.length r) 0 (l ++ r) := by
  refine holds_append.mpr ⟨holds_keep h fun i hi => patch_below (by omega), ?_⟩
  rw [Nat.zero_add]
  exact holds_patch

theorem insert_follows (h : Follows len m w d) (hs : s.Sound) :
    (w.insert s = none ∧ d.insert s = none) ∨
      ∃ w' d', w.insert s = some w' ∧ d.insert s = some d' ∧ Follows len m w' d' := by
  unfold Writer.insert Draft.insert
  rw [h.mainstr]
  cases hn : nustrstr s.marker d.rest with
  | none => exact .inr ⟨w, d, rfl, rfl, h⟩
  | some p =>
    obtain ⟨before, after⟩ := p
    cases hf : s.form with
    | none => exact .inl ⟨rfl, rfl⟩
    | some form =>
      have hmove := hs.move form hf
      have hcount := hs.count
      have hslack := h.sound.slack
      have hreach := h.sound.reach
      have htaken : (form.take s.move).length = s.move := by
        rw [List.length_take]
        omega
      refine .inr ⟨_, _, rfl, rfl, ?_, ?_, ?_, ?_, rfl, ?_, ?_, ?_, ?_⟩
      · have hprinted := @holds_extend _ (before ++ (form ++ [0])) _ h.mem
        have hsplit : d.text ++ (before ++ (form ++ [0])) =
            d.text ++ (before ++ form.take s.move) ++ (form.drop s.move ++ [0]) := by
          conv_lhs => rw [← List.take_append_drop s.move form]
          simp only [List.append_assoc]
        dsimp only
        rw [h.dst, ← patch_append]
        rw [hsplit] at hprinted
        exact (holds_append.mp hprinted).1
      · intro x hx
        dsimp only at hx ⊢
        rw [patch_above (by simp only [List.length_append, List.length_singleton]; omega),
          patch_above (by omega), h.frame x (by omega)]
      · simp only [h.dst, List.length_append, htaken]
        omega
      · simp only [h.dst, h.top]
      · have hd := h.datalen
        simp only [List.length_append, htaken, UInt32.ofNat_add, UInt32.ofNat_sub hcount]
        grind
      · simp only [h.digital]
      · simp only [List.length_append, htaken]
        omega
      · simp only [List.length_append, htaken]
        omega

theorem run_follows : ∀ {steps : List Step} {w : Writer} {d : Draft}, (∀ step ∈ steps, ∀ x, (step x).Sound) →
    Follows len m w d → (w.run steps = none ∧ d.run steps = none) ∨
      ∃ w' d', w.run steps = some w' ∧ d.run steps = some d' ∧ Follows len m w' d'
  | [], w, d, _, h => .inr ⟨w, d, rfl, rfl, h⟩
  | step :: steps, w, d, hs, h => by
    rw [Writer.run, Draft.run, h.digital]
    rcases insert_follows h (hs step List.mem_cons_self d.digital) with ⟨hw, hd⟩ | ⟨w', d', hw, hd, h'⟩
    · exact .inl ⟨by rw [hw]; rfl, by rw [hd]; rfl⟩
    · rw [hw, hd]
      exact run_follows (fun step hm => hs step (List.mem_cons_of_mem _ hm)) h'

theorem start_follows (m : Nat → UInt8) (src digital : List UInt8) (len : UInt32) :
    Follows len m ⟨m, 0, 0, src, len, digital⟩ ⟨[], src, 0, 0, digital⟩ where
  mem := fun i hi => absurd hi (Nat.not_lt_zero i)
  frame := fun _ _ => rfl
  dst := rfl
  top := rfl
  mainstr := rfl
  datalen := rfl
  digital := rfl
  sound := ⟨Nat.le_refl _, Nat.le_refl _⟩

/-- A builder fails where the draft does, and ends with the rest of the template otherwise. -/
theorem rebuild_follows {steps : List Step} (hs : ∀ step ∈ steps, ∀ x, (step x).Sound) (digital : List UInt8)
    (m : Nat → UInt8) (src : List UInt8) (len : UInt32) :
    (rebuild steps digital m src len = none ∧ draft steps digital src = none) ∨
      ∃ w d, rebuild steps digital m src len = some (w.finish len) ∧ draft steps digital src = some d ∧ Follows len m w d := by
  rcases run_follows hs (start_follows m src digital len) with ⟨hw, hd⟩ | ⟨w, d, hw, hd, h⟩
  · exact .inl ⟨by rw [rebuild, hw]; rfl, hd⟩
  · exact .inr ⟨w, d, by rw [rebuild, hw]; rfl, hd, h⟩

/-! ## The rest of the template -/

/-- Cut short, the copy runs one byte too far. -/
theorem copyRest_cut : ∀ {k : Nat} {n : UInt32} {t : List UInt8}, n.toNat = k → k < t.length →
    (copyRest n t).1.length = k + 1
  | k, n, [], _, h => absurd h (Nat.not_lt_zero k)
  | 0, n, c :: t, hn, _ => by
    obtain rfl : n = 0 := UInt32.toNat_inj.mp hn
    rfl
  | k + 1, n, c :: t, hn, h => by
    have h0 : n ≠ 0 := by
      rintro rfl
      cases hn
    have hpred : (n - 1).toNat = n.toNat - 1 := UInt32.toNat_sub_of_le _ _ (UInt32.le_iff_toNat_le.mpr (by
      rw [UInt32.toNat_one]
      omega))
    rw [copyRest, if_neg h0]
    exact congrArg (· + 1) (copyRest_cut (by omega) (by simpa using h))

/-- While the text fits, `datalen` is what is left of `len`, and the slack. -/
theorem Follows.left (h : Follows len m w d) (hfit : d.text.length ≤ len.toNat) :
    w.datalen.toNat = len.toNat - d.text.length + d.slack := by
  have hslack := h.sound.slack
  have hlen := len.toNat_lt
  have hleft := w.datalen.toNat_lt
  have heq := congrArg UInt32.toNat h.datalen
  rw [UInt32.toNat_add, UInt32.toNat_add, UInt32.toNat_ofNat', UInt32.toNat_ofNat'] at heq
  omega

/-- The page that fits is written, followed by whatever zero was printed behind
it, and its length is returned less the slack. -/
theorem finish_page (h : Follows len m w d) (hfit : d.page.length ≤ len.toNat) :
    Holds (w.finish len).1.mem 0 d.page ∧ (w.finish len).1.top = max d.reach d.page.length ∧
      (w.finish len).2.toNat = d.page.length - d.slack := by
  have hslack := h.sound.slack
  have hreach := h.sound.reach
  rw [Draft.page, List.length_append] at *
  have hleft := h.left (by omega)
  have hrest : copyRest w.datalen w.mainstr = (d.rest, w.datalen - UInt32.ofNat d.rest.length) := by
    rw [h.mainstr]
    exact copyRest_all (by omega)
  rw [Writer.finish, hrest]
  dsimp only
  refine ⟨?_, ?_, ?_⟩
  · rw [h.dst]
    exact holds_extend h.mem
  · rw [h.dst, h.top]
  · have hlen := len.toNat_lt
    have hd := h.datalen
    have heq : len - (w.datalen - UInt32.ofNat d.rest.length) =
        UInt32.ofNat (d.text.length + d.rest.length - d.slack) := by
      rw [UInt32.ofNat_sub (by omega), UInt32.ofNat_add]
      grind
    rw [heq, UInt32.toNat_ofNat', Nat.mod_eq_of_lt (by omega)]

/-- No byte is written behind the first `len` exactly when the page fits there. -/
theorem finish_top (h : Follows len m w d) :
    (w.finish len).1.top ≤ len.toNat ↔ d.reach ≤ len.toNat ∧ d.page.length ≤ len.toNat := by
  by_cases hfit : d.page.length ≤ len.toNat
  · rw [(finish_page h hfit).2.1]
    omega
  · refine iff_of_false (fun htop => ?_) fun h' => hfit h'.2
    have hreach := h.sound.reach
    have htop' : max w.top (w.dst + (copyRest w.datalen w.mainstr).1.length) ≤ len.toNat := htop
    rw [h.top, h.dst, h.mainstr] at htop'
    rw [Draft.page, List.length_append] at hfit
    have hleft := h.left (by omega)
    by_cases hcut : w.datalen.toNat < d.rest.length
    · rw [copyRest_cut rfl hcut] at htop'
      omega
    · rw [copyRest_all (by omega)] at htop'
      dsimp only at htop'
      omega

end

/-! ## Templates with every marker -/

/-- `dst` and `datalen` are moved by the length of what is printed, which the marker is part of. -/
structure Subst.Exact (s : Subst) : Prop where
  move : ∀ form, s.form = some form → s.move = form.length
  count : s.count = s.move
  marker : s.marker.length ≤ s.move

theorem Subst.Exact.sound {s : Subst} (h : s.Exact) : s.Sound :=
  ⟨fun form hf => Nat.le_of_eq (h.move form hf), Nat.le_of_eq h.count⟩

/-- The substitutions made when every text looked for is found. -/
def found : List Step → List UInt8 → List Subst
  | [], _ => []
  | step :: steps, digital => step digital :: found steps ((step digital).scratch.getD digital)

theorem found_mem {s : Subst} : ∀ {steps : List Step} {digital : List UInt8}, s ∈ found steps digital →
    ∃ step ∈ steps, ∃ x, s = step x
  | step :: steps, digital, h => by
    rcases List.mem_cons.mp h with rfl | h
    · exact ⟨step, List.mem_cons_self, digital, rfl⟩
    · obtain ⟨step', hm, x, rfl⟩ := found_mem h
      exact ⟨step', List.mem_cons_of_mem _ hm, x, rfl⟩

/-- The template has each marker once and in order, `seg` before the first and
`segs` behind each. -/
structure Marked (subs : List Subst) (seg : List UInt8) (segs : List (List UInt8)) (src : List UInt8) : Prop where
  length : segs.length = subs.length
  woven : src = weave seg ((subs.map Subst.marker).zip segs)
  once : ∀ s ∈ subs, AtMostOnce s.marker src

def filled (subs : List Subst) (seg : List UInt8) (segs : List (List UInt8)) : List UInt8 :=
  weave seg ((subs.map fun s => s.form.getD []).zip segs)

def Built (page : List UInt8) : Option (Writer × UInt32) → Prop
  | none => False
  | some (w, n) => Holds w.mem 0 page ∧ w.top = page.length ∧ n.toNat = page.length

def StaysWithin (len : UInt32) : Option (Writer × UInt32) → Prop
  | none => False
  | some (w, _) => w.top ≤ len.toNat

instance {len : UInt32} : ∀ r, Decidable (StaysWithin len r)
  | none => isFalse id
  | some (w, _) => inferInstanceAs (Decidable (w.top ≤ len.toNat))

theorem Built.returned {page : List UInt8} : ∀ {r : Option (Writer × UInt32)}, Built page r →
    r.map (fun p => p.2.toNat) = some page.length
  | some (_, _), h => congrArg some h.2.2

/-- The page the template gives fits in `len` bytes, with the zeros printed behind its forms. -/
def Fits (steps : List Step) (digital src : List UInt8) (len : UInt32) : Prop :=
  ∃ d, draft steps digital src = some d ∧ d.reach ≤ len.toNat ∧ d.page.length ≤ len.toNat

theorem nustrstr_first {mark after : List UInt8} (hm : mark ≠ []) : ∀ {t before : List UInt8},
    FirstAt mark t before after → nustrstr mark t = some (before, after)
  | [], before, h => by
    have hnil := congrArg List.length h.split
    have hpos := List.length_pos_iff.mpr hm
    simp only [List.length_append, List.length_nil] at hnil
    omega
  | c :: t, [], h => by
    have hsplit : c :: t = mark ++ after := h.split
    rw [nustrstr, hsplit, if_pos (List.isPrefixOf_iff_prefix.mpr (List.prefix_append _ _)), List.drop_left]
  | c :: t, b :: before, h => by
    obtain ⟨rfl, -⟩ := List.cons.inj h.split
    have hno : ¬mark.isPrefixOf (c :: t) = true := fun hp =>
      h.first 0 (Nat.succ_pos _) (List.isPrefixOf_iff_prefix.mp hp)
    rw [nustrstr, if_neg hno, nustrstr_first hm h.uncons]
    rfl

section
variable {d : Draft} {s : Subst} {steps : List Step} {seg after : List UInt8} {segs : List (List UInt8)}

theorem insert_found (hrest : d.rest = seg ++ (s.marker ++ after)) (h : AtMostOnce s.marker d.rest) :
    d.insert s = s.form.map fun form =>
      { text := d.text ++ (seg ++ form.take s.move)
        rest := after
        reach := max d.reach (d.text.length + seg.length + (form.length + 1))
        slack := d.slack + (s.move - s.count)
        digital := s.scratch.getD d.digital } := by
  have hne := h.ne_nil
  rw [hrest] at h
  rw [Draft.insert, hrest, nustrstr_first hne h.firstAt]

theorem Marked.tail {subs : List Subst} {src next : List UInt8} (h : Marked (s :: subs) seg (next :: segs) src) :
    ∃ after, src = seg ++ (s.marker ++ after) ∧ Marked subs next segs after := by
  refine ⟨weave next ((subs.map Subst.marker).zip segs), h.woven, Nat.succ.inj h.length, rfl, fun s' hs' => ?_⟩
  have honce := h.once s' (List.mem_cons_of_mem _ hs')
  rw [h.woven, List.map_cons, List.zip_cons_cons, weave] at honce
  exact honce.behind.behind

/-- The substitutions of a template that has every marker. -/
structure Completed (d d' : Draft) (subs : List Subst) (seg : List UInt8) (segs : List (List UInt8)) : Prop where
  page : d'.page = d.text ++ filled subs seg segs
  rest : d'.rest = segs.getLastD seg
  slack : d'.slack = d.slack + (subs.map fun s => s.move - s.count).sum
  reach : d.reach ≤ d.text.length + 1 → subs ≠ [] → d'.reach = d'.text.length + 1

theorem run_found : ∀ {steps : List Step} {d : Draft} {seg : List UInt8} {segs : List (List UInt8)},
    Marked (found steps d.digital) seg segs d.rest →
    (∀ s ∈ found steps d.digital, ∃ form, s.form = some form ∧ s.move = form.length) →
    ∃ d', d.run steps = some d' ∧ Completed d d' (found steps d.digital) seg segs
  | [], d, seg, [], h, _ => by
    have hrest : d.rest = seg := h.woven
    exact ⟨d, rfl, by rw [Draft.page, hrest]; rfl, hrest, rfl, fun _ hne => absurd rfl hne⟩
  | [], _, _, _ :: _, h, _ => nomatch h.length
  | _ :: _, _, _, [], h, _ => nomatch h.length
  | step :: steps, d, seg, next :: segs, h, hforms => by
    obtain ⟨after, hafter, hmarked⟩ := h.tail
    obtain ⟨form, hform, hmove⟩ := hforms _ List.mem_cons_self
    have hins := insert_found hafter (h.once _ List.mem_cons_self)
    rw [hform, Option.map_some, hmove, List.take_length] at hins
    rw [Draft.run, hins]
    obtain ⟨d', hrun, hd'⟩ := @run_found steps ⟨d.text ++ (seg ++ form), after,
      max d.reach (d.text.length + seg.length + (form.length + 1)), d.slack + (form.length - (step d.digital).count),
      (step d.digital).scratch.getD d.digital⟩ next segs hmarked fun s hs => hforms s (List.mem_cons_of_mem _ hs)
    refine ⟨d', hrun, ?_, ?_, ?_, ?_⟩
    · rw [hd'.page, found, filled, filled, List.map_cons, List.zip_cons_cons, weave, hform]
      simp only [Option.getD_some, List.append_assoc]
    · rw [hd'.rest]
      cases segs <;> rfl
    · rw [hd'.slack, found, List.map_cons, List.sum_cons, hmove, Nat.add_assoc]
    · intro hreach _
      have hlen : max d.reach (d.text.length + seg.length + (form.length + 1)) =
          (d.text ++ (seg ++ form)).length + 1 := by
        simp only [List.length_append]
        omega
      by_cases hnil : found steps ((step d.digital).scratch.getD d.digital) = []
      · obtain rfl : steps = [] := by
          cases steps with
          | nil => rfl
          | cons _ _ => cases hnil
        cases hrun
        exact hlen
      · exact hd'.reach (Nat.le_of_eq hlen) hnil

/-- A string without end is read where its marker is found. -/
theorem run_found_none : ∀ {steps : List Step} {d : Draft} {seg : List UInt8} {segs : List (List UInt8)},
    Marked (found steps d.digital) seg segs d.rest → (∃ s ∈ found steps d.digital, s.form = none) → d.run steps = none
  | [], _, _, _, _, h => nomatch h
  | _ :: _, _, _, [], h, _ => nomatch h.length
  | step :: steps, d, seg, next :: segs, h, ⟨s, hs, hnone⟩ => by
    obtain ⟨after, hafter, hmarked⟩ := h.tail
    have hins := insert_found hafter (h.once _ List.mem_cons_self)
    rw [Draft.run, hins]
    cases hform : (step d.digital).form with
    | none => rfl
    | some form =>
      rcases List.mem_cons.mp hs with rfl | hs
      · rw [hform] at hnone
        cases hnone
      · exact @run_found_none steps _ next segs hmarked ⟨s, hs, hnone⟩

variable {digital src : List UInt8} {len : UInt32} {m : Nat → UInt8}

theorem rebuild_frame {w : Writer} {n : UInt32} (hs : ∀ step ∈ steps, ∀ x, (step x).Sound)
    (h : rebuild steps digital m src len = some (w, n)) : ∀ x, w.top ≤ x → w.mem x = m x := by
  rcases rebuild_follows hs digital m src len with ⟨hw, -⟩ | ⟨w', d, hw, -, hfollows⟩
  · rw [hw] at h
    cases h
  · rw [hw] at h
    obtain rfl : (w'.finish len).1 = w := congrArg Prod.fst (Option.some.inj h)
    intro x hx
    have hx' : max w'.top (w'.dst + (copyRest w'.datalen w'.mainstr).1.length) ≤ x := hx
    exact (patch_above (by omega)).trans (hfollows.frame x (by omega))

theorem rebuild_bounded (hs : ∀ step ∈ steps, ∀ x, (step x).Sound) : StaysWithin len (rebuild steps digital m src len) ↔
    Fits steps digital src len := by
  rw [Fits]
  rcases rebuild_follows hs digital m src len with ⟨hw, hd⟩ | ⟨w, d, hw, hd, h⟩
  · rw [hw, hd]
    exact ⟨False.elim, fun ⟨_, h, _⟩ => nomatch h⟩
  · rw [hw, hd]
    exact (finish_top h).trans ⟨fun hb => ⟨d, rfl, hb⟩, fun ⟨_, he, hb⟩ => by
      cases he
      exact hb⟩

theorem rebuild_found (hs : ∀ step ∈ steps, ∀ x, (step x).Sound) (h : Marked (found steps digital) seg segs src)
    (hforms : ∀ s ∈ found steps digital, ∃ form, s.form = some form ∧ s.move = form.length)
    (hfit : (filled (found steps digital) seg segs).length ≤ len.toNat) :
    ∃ w n d, rebuild steps digital m src len = some (w, n) ∧
      Completed ⟨[], src, 0, 0, digital⟩ d (found steps digital) seg segs ∧ d.Sound ∧ Holds w.mem 0 d.page ∧
      w.top = max d.reach d.page.length ∧ n.toNat = d.page.length - d.slack := by
  obtain ⟨d, hrun, hd⟩ := @run_found steps ⟨[], src, 0, 0, digital⟩ seg segs h hforms
  rcases rebuild_follows hs digital m src len with ⟨-, hnone⟩ | ⟨w, d', hw, hd', hfollows⟩
  · rw [draft, hrun] at hnone
    cases hnone
  · rw [draft, hrun] at hd'
    cases hd'
    have hpage : d.page.length ≤ len.toNat := by
      rw [hd.page]
      exact hfit
    exact ⟨_, _, d, hw, hd, hfollows.sound, finish_page hfollows hpage⟩

/-- Where the counts are those of the printed forms, the page is built exactly
when every form has an end and text follows the last marker. -/
theorem rebuild_exact (hexact : ∀ step ∈ steps, ∀ x, (step x).Exact) (hne : found steps digital ≠ []) (h : Marked (found steps digital) seg segs src) (hfit : (filled (found steps digital) seg segs).length ≤ len.toNat) :
    Built (filled (found steps digital) seg segs) (rebuild steps digital m src len) ↔
      (∀ s ∈ found steps digital, s.form ≠ none) ∧ segs.getLastD seg ≠ [] := by
  have hs : ∀ step ∈ steps, ∀ x, (step x).Sound := fun step hm x => (hexact step hm x).sound
  have hfound : ∀ s ∈ found steps digital, s.Exact := fun s hm => by
    obtain ⟨step, hstep, x, rfl⟩ := found_mem hm
    exact hexact step hstep x
  by_cases hforms : ∀ s ∈ found steps digital, s.form ≠ none
  · have hforms' : ∀ s ∈ found steps digital, ∃ form, s.form = some form ∧ s.move = form.length := fun s hm => by
      obtain ⟨form, hform⟩ := Option.ne_none_iff_exists'.mp (hforms s hm)
      exact ⟨form, hform, (hfound s hm).move form hform⟩
    obtain ⟨w, n, d, hw, hd, -, hholds, htop, hret⟩ := @rebuild_found steps seg segs digital src len m hs h hforms' hfit
    have hslack : d.slack = 0 := by
      rw [hd.slack, Nat.zero_add, List.sum_eq_zero_iff_forall_eq_nat]
      intro k hk
      obtain ⟨s, hm, rfl⟩ := List.mem_map.mp hk
      rw [(hfound s hm).count, Nat.sub_self]
    have hreach : d.reach = d.text.length + 1 := hd.reach (Nat.zero_le _) hne
    have hpage : d.page = filled (found steps digital) seg segs := hd.page
    have hlen : d.page.length = d.text.length + (segs.getLastD seg).length := by
      rw [Draft.page, List.length_append, hd.rest]
    rw [hw, ← hpage, and_iff_right hforms, ← List.length_pos_iff]
    constructor
    · rintro ⟨-, htop', -⟩
      omega
    · intro hpos
      exact ⟨hholds, by omega, by omega⟩
  · refine iff_of_false (fun hbuilt => ?_) fun h' => hforms h'.1
    simp only [not_forall, not_not] at hforms
    obtain ⟨s, hm, hnone⟩ := hforms
    have hrun := @run_found_none steps ⟨[], src, 0, 0, digital⟩ seg segs h ⟨s, hm, hnone⟩
    rcases rebuild_follows hs digital m src len with ⟨hw, -⟩ | ⟨w, d', hw, hd', -⟩
    · rw [hw] at hbuilt
      exact hbuilt
    · rw [draft, hrun] at hd'
      cases hd'

/-- Where a count falls short of the printed form, so does the length returned. -/
theorem rebuild_slack (hs : ∀ step ∈ steps, ∀ x, (step x).Sound) (h : Marked (found steps digital) seg segs src)
    (hforms : ∀ s ∈ found steps digital, ∃ form, s.form = some form ∧ s.move = form.length)
    (hslack : ∃ s ∈ found steps digital, s.count < s.move)
    (hfit : (filled (found steps digital) seg segs).length ≤ len.toNat) :
    ¬Built (filled (found steps digital) seg segs) (rebuild steps digital m src len) := by
  obtain ⟨w, n, d, hw, hd, hsound, -, -, hret⟩ := @rebuild_found steps seg segs digital src len m hs h hforms hfit
  have hpage : d.page = filled (found steps digital) seg segs := hd.page
  obtain ⟨s, hm, hlt⟩ := hslack
  have hpos : 0 < d.slack := by
    rw [hd.slack, Nat.zero_add, List.sum_pos_iff_exists_pos_nat]
    exact ⟨_, List.mem_map_of_mem hm, Nat.sub_pos_of_lt hlt⟩
  have hlen : d.page.length = d.text.length + d.rest.length := List.length_append
  have hle := hsound.slack
  rw [hw, ← hpage]
  rintro ⟨-, -, hn⟩
  omega

end

/-! ## What a draft is made of -/

section
variable {steps : List Step} {d d' : Draft} {w w' : Writer} {s : Subst}

theorem draft_keeps (P : Draft → Prop)
    (hP : ∀ step ∈ steps, ∀ d d', P d → d.insert (step d.digital) = some d' → P d') (h : P d) (hrun : d.run steps = some d') :
    P d' := by
  induction steps generalizing d with
  | nil =>
    cases hrun
    exact h
  | cons step steps ih =>
    rw [Draft.run] at hrun
    obtain ⟨d₁, hins, hrun⟩ := Option.bind_eq_some_iff.mp hrun
    exact ih (fun step hm => hP step (List.mem_cons_of_mem _ hm)) (hP step List.mem_cons_self d d₁ h hins) hrun

theorem writer_keeps (P : Writer → Prop)
    (hP : ∀ step ∈ steps, ∀ w w', P w → w.insert (step w.digital) = some w' → P w') (h : P w) (hrun : w.run steps = some w') :
    P w' := by
  induction steps generalizing w with
  | nil =>
    cases hrun
    exact h
  | cons step steps ih =>
    rw [Writer.run] at hrun
    obtain ⟨w₁, hins, hrun⟩ := Option.bind_eq_some_iff.mp hrun
    exact ih (fun step hm => hP step (List.mem_cons_of_mem _ hm)) (hP step List.mem_cons_self w w₁ h hins) hrun

theorem insert_cases (h : d.insert s = some d') : d' = d ∨ ∃ before after form, d.rest = before ++ s.marker ++ after ∧
    s.form = some form ∧ d' =
      { text := d.text ++ (before ++ form.take s.move)
        rest := after
        reach := max d.reach (d.text.length + before.length + (form.length + 1))
        slack := d.slack + (s.move - s.count)
        digital := s.scratch.getD d.digital } := by
  rw [Draft.insert] at h
  cases hn : nustrstr s.marker d.rest with
  | none =>
    rw [hn] at h
    exact .inl (Option.some.inj h).symm
  | some p =>
    rw [hn] at h
    obtain ⟨form, hform, rfl⟩ := Option.map_eq_some_iff.mp h
    exact .inr ⟨p.1, p.2, form, nustrstr_split hn, hform, rfl⟩

/-- The page is as long as the template and the slack, where `datalen` loses the marker alone. -/
theorem draft_length_eq {digital src : List UInt8} (hs : ∀ step ∈ steps, ∀ x, (step x).Sound)
    (hc : ∀ step ∈ steps, ∀ x, (step x).count = (step x).marker.length) (h : draft steps digital src = some d') :
    d'.page.length = src.length + d'.slack := by
  refine draft_keeps (fun d => d.page.length = src.length + d.slack) (fun step hm d d₁ hd hins => ?_) rfl h
  rcases insert_cases hins with rfl | ⟨before, after, form, hrest, hform, rfl⟩
  · exact hd
  · have hmove := (hs step hm d.digital).move form hform
    have hcount := (hs step hm d.digital).count
    have hmarker := hc step hm d.digital
    simp only [Draft.page, hrest, List.length_append, List.length_take] at hd ⊢
    omega

/-- It is no shorter where `datalen` loses the marker at least. -/
theorem draft_length_le {digital src : List UInt8} (hs : ∀ step ∈ steps, ∀ x, (step x).Sound)
    (hc : ∀ step ∈ steps, ∀ x, (step x).marker.length ≤ (step x).count) (h : draft steps digital src = some d') :
    src.length + d'.slack ≤ d'.page.length := by
  refine draft_keeps (fun d => src.length + d.slack ≤ d.page.length) (fun step hm d d₁ hd hins => ?_) (Nat.le_refl _) h
  rcases insert_cases hins with rfl | ⟨before, after, form, hrest, hform, rfl⟩
  · exact hd
  · have hmove := (hs step hm d.digital).move form hform
    have hcount := (hs step hm d.digital).count
    have hmarker := hc step hm d.digital
    simp only [Draft.page, hrest, List.length_append, List.length_take] at hd ⊢
    omega

/-- What is printed has no zero and begins with the marker. -/
structure Subst.Clean (s : Subst) : Prop where
  marker : s.marker ≠ []
  shown : ∀ form, s.form = some form → s.marker <+: form ∧ 0 ∉ form

/-- No zero comes into the page, and its first character stays; `Q` is what is known of `digital`. -/
theorem draft_clean {digital src : List UInt8} (Q : List UInt8 → Prop)
    (hc : ∀ step ∈ steps, ∀ x, Q x → (step x).Clean ∧ Q ((step x).scratch.getD x))
    (hm : ∀ step ∈ steps, ∀ x, (step x).marker.length ≤ (step x).move) (hq : Q digital)
    (h : draft steps digital src = some d') : (0 ∉ src → 0 ∉ d'.page) ∧ d'.page.head? = src.head? := by
  have hkeep : Q d'.digital ∧ (0 ∉ src → 0 ∉ d'.page) ∧ d'.page.head? = src.head? := by
    refine @draft_keeps steps ⟨[], src, 0, 0, digital⟩ d'
      (fun d => Q d.digital ∧ (0 ∉ src → 0 ∉ d.page) ∧ d.page.head? = src.head?)
      (fun step hmem d d₁ hd hins => ?_) ⟨hq, fun h => h, rfl⟩ h
    rcases insert_cases hins with rfl | ⟨before, after, form, hrest, hform, rfl⟩
    · exact hd
    · obtain ⟨hclean, hq'⟩ := hc step hmem d.digital hd.1
      obtain ⟨hpre, hzero⟩ := hclean.shown form hform
      have hpage : d.page = (d.text ++ before ++ (step d.digital).marker) ++ after := by
        rw [Draft.page, hrest]
        simp only [List.append_assoc]
      -- the marker stands in its printed form
      obtain ⟨tail, htail⟩ : (step d.digital).marker <+: form.take (step d.digital).move :=
        List.prefix_take_iff.mpr ⟨hpre, hm step hmem d.digital⟩
      have hpage' : d.text ++ (before ++ form.take (step d.digital).move) ++ after =
          (d.text ++ before ++ (step d.digital).marker) ++ (tail ++ after) := by
        rw [← htail]
        simp only [List.append_assoc]
      have hne : d.text ++ before ++ (step d.digital).marker ≠ [] := fun hnil =>
        hclean.marker (List.append_eq_nil_iff.mp hnil).2
      refine ⟨hq', fun hsrc h0 => ?_, ?_⟩
      · have hold := hd.2.1 hsrc
        rw [hpage] at hold
        simp only [Draft.page, List.mem_append, not_or] at hold h0
        rcases h0 with (h0 | h0 | h0) | h0
        · exact hold.1.1.1 h0
        · exact hold.1.1.2 h0
        · exact hzero (List.mem_of_mem_take h0)
        · exact hold.2 h0
      · rw [← hd.2.2, hpage, Draft.page, hpage', List.head?_append_of_ne_nil _ hne, List.head?_append_of_ne_nil _ hne]
  exact hkeep.2

/-- Behind `dst` lies at most the zero printed last. -/
structure Writer.Ended (w : Writer) : Prop where
  top : w.top ≤ w.dst + 1
  zero : w.dst < w.top → w.mem w.dst = 0

theorem run_ended (hs : ∀ step ∈ steps, ∀ x, (step x).Exact) (h : w.Ended) (hrun : w.run steps = some w') : w'.Ended := by
  refine writer_keeps Writer.Ended (fun step hm w w₁ hw hins => ?_) h hrun
  have hexact := hs step hm w.digital
  rw [Writer.insert] at hins
  cases hn : nustrstr (step w.digital).marker w.mainstr with
  | none =>
    rw [hn] at hins
    cases hins
    exact hw
  | some p =>
    rw [hn] at hins
    obtain ⟨form, hform, rfl⟩ := Option.map_eq_some_iff.mp hins
    have hmove := hexact.move form hform
    have htop := hw.top
    refine ⟨?_, fun _ => ?_⟩
    · dsimp only
      omega
    · have hin : form.length < (form ++ [(0 : UInt8)]).length := by simp
      have hzero := @patch_inside _ (patch w.mem w.dst p.1) (w.dst + p.1.length) (form ++ [0]) form.length hin
      rw [List.getElem_concat_length rfl] at hzero
      dsimp only
      rw [hmove]
      exact hzero

end

end SerialNet.Param
