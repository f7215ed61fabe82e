import Mathlib.Data.List.Basic

/-!
# Marked texts

`weave` is a text with marks between its segments. A mark that stands at one
place only is found where it was woven in.
-/

namespace Weave

section
variable {α : Type*}

/-- `seg`, then each mark with the segment behind it. -/
def weave (seg : List α) : List (List α × List α) → List α
  | [] => seg
  | (mark, next) :: rest => seg ++ (mark ++ weave next rest)

/-- No two places of `t` have `mark`. -/
def AtMostOnce (mark t : List α) : Prop := ∀ i j, mark <+: t.drop i → mark <+: t.drop j → i = j

/-- The first place of `mark`, by what stands before it and what follows. -/
structure FirstAt (mark t before after : List α) : Prop where
  split : t = before ++ (mark ++ after)
  first : ∀ i, i < before.length → ¬mark <+: t.drop i

variable {mark t before after l : List α} {a : α}

theorem AtMostOnce.ne_nil (h : AtMostOnce mark t) : mark ≠ [] := by
  rintro rfl
  exact absurd (h 0 1 List.nil_prefix List.nil_prefix) (by decide)

theorem AtMostOnce.behind (h : AtMostOnce mark (l ++ t)) : AtMostOnce mark t := by
  have hdrop : ∀ i, (l ++ t).drop (l.length + i) = t.drop i := fun i => by
    rw [← List.drop_drop, List.drop_left]
  intro i j hi hj
  have hij := h (l.length + i) (l.length + j) (by rwa [hdrop]) (by rwa [hdrop])
  omega

theorem AtMostOnce.firstAt (h : AtMostOnce mark (before ++ (mark ++ after))) :
    FirstAt mark (before ++ (mark ++ after)) before after := by
  refine ⟨rfl, fun i hi hp => ?_⟩
  have hhere : mark <+: (before ++ (mark ++ after)).drop before.length := by
    rw [List.drop_left]
    exact List.prefix_append _ _
  have := h i before.length hp hhere
  omega

theorem FirstAt.uncons (h : FirstAt mark (a :: t) (a :: before) after) : FirstAt mark t before after :=
  ⟨(List.cons.inj h.split).2, fun i hi => h.first (i + 1) (Nat.succ_lt_succ hi)⟩

section
variable [BEq α] [LawfulBEq α]

def places (mark : List α) : List α → Nat
  | [] => 0
  | a :: t => (if mark.isPrefixOf (a :: t) then 1 else 0) + places mark t

theorem places_pos (hm : mark ≠ []) : ∀ {t : List α} {i : Nat}, mark <+: t.drop i → 0 < places mark t
  | [], i, h => by
    rw [List.drop_nil] at h
    exact absurd (List.prefix_nil.mp h) hm
  | a :: t, 0, h => by
    have hp : mark.isPrefixOf (a :: t) = true := List.isPrefixOf_iff_prefix.mpr h
    rw [places, if_pos hp]
    omega
  | a :: t, i + 1, h => by
    have := places_pos hm (t := t) (i := i) h
    rw [places]
    omega

theorem atMostOnce_of_places (hm : mark ≠ []) : ∀ {t : List α}, places mark t ≤ 1 → AtMostOnce mark t
  | [], _, i, _, hi, _ => by
    rw [List.drop_nil] at hi
    exact absurd (List.prefix_nil.mp hi) hm
  | _ :: _, _, 0, 0, _, _ => rfl
  | a :: t, h, 0, j + 1, hi, hj => by
    have hpos := places_pos hm (t := t) (i := j) hj
    have hp : mark.isPrefixOf (a :: t) = true := List.isPrefixOf_iff_prefix.mpr hi
    rw [places, if_pos hp] at h
    omega
  | a :: t, h, i + 1, 0, hi, hj => by
    have hpos := places_pos hm (t := t) (i := i) hi
    have hp : mark.isPrefixOf (a :: t) = true := List.isPrefixOf_iff_prefix.mpr hj
    rw [places, if_pos hp] at h
    omega
  | a :: t, h, i + 1, j + 1, hi, hj => by
    rw [places] at h
    exact congrArg (· + 1) (atMostOnce_of_places hm (t := t) (by omega) i j hi hj)

end

end

end Weave
