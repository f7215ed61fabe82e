import Mathlib.Data.List.TakeWhile

/-!
# Retrying

`attempts` are up to `n` tries of an action, with the number of the first that
succeeded. `countdown` is the same written as `while (j--)` with a break: its
counter is zero when the last try succeeds and has wrapped when none does.
-/

namespace Retry

section
variable {σ τ : Type*} (act : Nat → σ → σ) (ok : σ → Bool)

/-- At most `n` tries, numbered from `i` on. -/
def attempts : Nat → Nat → σ → σ × Option Nat
  | 0, _, s => (s, none)
  | n + 1, i, s => if ok (act i s) then (act i s, some i) else attempts n (i + 1) (act i s)

/-- The loop on a counter that is `top` once it wrapped. -/
def countdown (top : Nat) : Nat → Nat → σ → σ × Nat
  | 0, _, s => (s, top)
  | j + 1, i, s => if ok (act i s) then (act i s, j) else countdown top j (i + 1) (act i s)

variable {act ok} {n i k top : Nat} {s : σ}

theorem attempts_bound (h : (attempts act ok n i s).2 = some k) : i ≤ k ∧ k < i + n := by
  induction n generalizing i s with
  | zero => cases h
  | succ n ih =>
    rw [attempts] at h
    split at h
    · cases h
      omega
    · have := ih h
      omega

theorem attempts_ok (h : (attempts act ok n i s).2 = some k) : ok (attempts act ok n i s).1 = true := by
  induction n generalizing i s with
  | zero => cases h
  | succ n ih =>
    rw [attempts] at h ⊢
    split at h
    · rename_i hok
      rw [if_pos hok]
      exact hok
    · rename_i hok
      rw [if_neg hok]
      exact ih h

theorem attempts_failed (h : (attempts act ok (n + 1) i s).2 = none) : ok (attempts act ok (n + 1) i s).1 = false := by
  induction n generalizing i s with
  | zero =>
    rw [attempts] at h ⊢
    split at h
    · cases h
    · rename_i hok
      rw [if_neg hok]
      simpa [attempts] using hok
  | succ n ih =>
    rw [attempts] at h ⊢
    split at h
    · cases h
    · rename_i hok
      rw [if_neg hok]
      exact ih h

theorem attempts_sim {act' : Nat → τ → τ} {ok' : τ → Bool} (R : σ → τ → Prop)
    (hact : ∀ i s t, R s t → R (act i s) (act' i t)) (hok : ∀ s t, R s t → ok s = ok' t) {t : τ} (h : R s t) :
    R (attempts act ok n i s).1 (attempts act' ok' n i t).1 ∧
      (attempts act ok n i s).2 = (attempts act' ok' n i t).2 := by
  induction n generalizing i s t with
  | zero => exact ⟨h, rfl⟩
  | succ n ih =>
    have hs := hact i s t h
    rw [attempts, attempts, hok _ _ hs]
    split
    · exact ⟨hs, rfl⟩
    · exact ih hs

theorem attempts_keep (P : σ → Prop) (hact : ∀ i s, P s → P (act i s)) (h : P s) : P (attempts act ok n i s).1 := by
  induction n generalizing i s with
  | zero => exact h
  | succ n ih =>
    rw [attempts]
    split
    · exact hact i s h
    · exact ih (hact i s h)

theorem countdown_fst : (countdown act ok top n i s).1 = (attempts act ok n i s).1 := by
  induction n generalizing i s with
  | zero => rfl
  | succ n ih =>
    rw [countdown, attempts]
    split
    · rfl
    · exact ih

/-- The counter ends at zero exactly when the last try is the one that succeeds. -/
theorem countdown_zero (htop : top ≠ 0) :
    (countdown act ok top (n + 1) i s).2 = 0 ↔ (attempts act ok (n + 1) i s).2 = some (i + n) := by
  induction n generalizing i s with
  | zero =>
    rw [countdown, attempts]
    split
    · simp
    · simp [countdown, attempts, htop]
  | succ n ih =>
    rw [countdown, attempts]
    split
    · simp
    · rw [ih, show i + 1 + n = i + (n + 1) by omega]

end

/-! ## A row of jobs -/

section
variable {last : Nat} {outs : List (Option Nat)} {o : Option Nat}

/-- The job succeeds before its last try. -/
def quick (last : Nat) (o : Option Nat) : Bool := o.any (· < last)

/-- A row that stops behind the first job whose last try succeeds, and reports
failure there, is to report failure exactly when some job never succeeds, and
to go no further than that job. -/
def Faithful (last : Nat) (outs : List (Option Nat)) : Prop :=
  (some last ∉ outs ↔ none ∉ outs) ∧
    ∀ i, outs[i]? = some none → ∀ k, i < k → k < outs.length → some last ∈ outs.take k

theorem quick_cases (h : ∀ k, o = some k → k ≤ last) : quick last o = true ∨ o = some last ∨ o = none := by
  cases o with
  | none => exact .inr (.inr rfl)
  | some k =>
    rcases Nat.lt_or_ge k last with hk | hk
    · exact .inl (by simpa [quick] using hk)
    · exact .inr (.inl (congrArg some (Nat.le_antisymm (h k rfl) hk)))

theorem not_mem_quick (h : ∀ o ∈ outs, quick last o = true) : some last ∉ outs ∧ none ∉ outs := by
  constructor
  · intro hm
    simpa [quick] using h _ hm
  · intro hm
    simpa [quick] using h _ hm

theorem faithful_quick (h : ∀ o ∈ outs, quick last o = true) : Faithful last outs := by
  have hq := not_mem_quick h
  exact ⟨⟨fun _ => hq.2, fun _ => hq.1⟩, fun i hi => absurd (List.mem_of_getElem? hi) hq.2⟩

/-- Stopped at a last try, the row is faithful when a later job never succeeds. -/
theorem faithful_last {pre rest : List (Option Nat)} (hpre : ∀ o ∈ pre, quick last o = true) :
    Faithful last (pre ++ some last :: rest) ↔ none ∈ pre ++ some last :: rest := by
  have hmem : some last ∈ pre ++ some last :: rest := List.mem_append_right _ List.mem_cons_self
  constructor
  · intro hf
    by_contra hn
    exact hf.1.mpr hn hmem
  · intro hn
    refine ⟨⟨fun h => absurd hmem h, fun h => absurd hn h⟩, fun i hi k hk _ => ?_⟩
    -- the job that never succeeds lies behind the one that stopped the row
    have hle : pre.length ≤ i := by
      by_contra hlt
      rw [List.getElem?_append_left (by omega)] at hi
      exact (not_mem_quick hpre).2 (List.mem_of_getElem? hi)
    rw [List.take_append, List.mem_append, show k - pre.length = (k - pre.length - 1) + 1 by omega, List.take_succ_cons]
    exact .inr List.mem_cons_self

/-- A job that never succeeds with no last try before it goes unnoticed. -/
theorem not_faithful_none {pre rest : List (Option Nat)} (hpre : ∀ o ∈ pre, quick last o = true) :
    ¬Faithful last (pre ++ none :: rest) := by
  intro hf
  have hmem : some last ∈ pre ++ none :: rest := by
    by_contra h
    exact hf.1.mp h (List.mem_append_right _ List.mem_cons_self)
  have hrest : some last ∈ rest := by
    rcases List.mem_append.mp hmem with h | h
    · exact absurd h (not_mem_quick hpre).1
    · simpa using h
  obtain ⟨front, back, rfl, hfront⟩ := List.eq_append_cons_of_mem hrest
  have hk := hf.2 pre.length (by simp) (pre.length + (front.length + 1)) (by omega)
    (by simp only [List.length_append, List.length_cons]; omega)
  rw [List.take_append, List.take_of_length_le (by omega), Nat.add_sub_cancel_left, List.take_succ_cons,
    List.take_left] at hk
  rcases List.mem_append.mp hk with h | h
  · exact (not_mem_quick hpre).1 h
  · rcases List.mem_cons.mp h with h | h
    · cases h
    · exact hfront h

/-- The row is faithful when every job is quick, or when the first that is not
succeeds at its last try while a later one never does. -/
theorem faithful_iff (h : ∀ o ∈ outs, ∀ k, o = some k → k ≤ last) : Faithful last outs ↔
    (∀ o ∈ outs, quick last o = true) ∨ (none ∈ outs ∧ (outs.dropWhile (quick last)).head? = some (some last)) := by
  have hsplit := List.takeWhile_append_dropWhile (p := quick last) (l := outs)
  have hpre : ∀ o ∈ outs.takeWhile (quick last), quick last o = true := fun o ho => List.mem_takeWhile_imp ho
  cases hd : outs.dropWhile (quick last) with
  | nil =>
    rw [hd, List.append_nil] at hsplit
    rw [hsplit] at hpre
    exact ⟨fun _ => .inl hpre, fun _ => faithful_quick hpre⟩
  | cons b rest =>
    have hb : quick last b = false := by
      have := List.head?_dropWhile_not (quick last) outs
      rw [hd] at this
      simpa using this
    rw [hd] at hsplit
    have hmem : b ∈ outs := hsplit ▸ List.mem_append_right _ List.mem_cons_self
    have hnot : ¬∀ o ∈ outs, quick last o = true := fun hall => by
      rw [hall b hmem] at hb
      cases hb
    rw [or_iff_right hnot, List.head?_cons, Option.some.injEq]
    rcases quick_cases (h b hmem) with hq | rfl | rfl
    · rw [hq] at hb
      cases hb
    · have hf := @faithful_last last _ rest hpre
      rw [hsplit] at hf
      rw [hf, and_iff_left rfl]
    · have hf := @not_faithful_none last _ rest hpre
      rw [hsplit] at hf
      exact ⟨fun h => absurd h hf, fun h => nomatch h.2⟩

end

end Retry
