import Mathlib.Data.List.Basic

/-!
# Runs of a step function

A run feeds a list of inputs to a step function, from the left. `Meets` says
that every step of a run satisfies a condition on the state before it and its
input; `inv_of_meets` is the induction over such runs.
-/

namespace Run

section
variable {σ α : Type*} (step : σ → α → σ)

def run (s : σ) (as : List α) : σ := as.foldl step s

@[simp] theorem run_nil (s : σ) : run step s [] = s := rfl

@[simp] theorem run_cons (s : σ) (a : α) (as : List α) : run step s (a :: as) = run step (step s a) as := rfl

theorem run_append (s : σ) (as bs : List α) : run step s (as ++ bs) = run step (run step s as) bs :=
  List.foldl_append ..

theorem run_snoc (s : σ) (as : List α) (a : α) : run step s (as ++ [a]) = step (run step s as) a := by
  rw [run_append]; rfl

theorem run_inv {I : σ → Prop} (hI : ∀ s a, I s → I (step s a)) {s : σ} (hs : I s) (as : List α) :
    I (run step s as) :=
  List.foldlRecOn as step hs fun s h a _ => hI s a h

/-- Every step of the run from `s` meets `good`. -/
def Meets (good : σ → α → Prop) : σ → List α → Prop
  | _, [] => True
  | s, a :: as => good s a ∧ Meets good (step s a) as

variable {step} {good : σ → α → Prop}

@[simp] theorem meets_nil (s : σ) : Meets step good s [] := trivial

@[simp] theorem meets_cons {s : σ} {a : α} {as : List α} :
    Meets step good s (a :: as) ↔ good s a ∧ Meets step good (step s a) as := Iff.rfl

instance decidableMeets [∀ s a, Decidable (good s a)] : ∀ s as, Decidable (Meets step good s as)
  | _, [] => isTrue trivial
  | s, a :: as =>
    have := decidableMeets (step s a) as
    inferInstanceAs (Decidable (good s a ∧ Meets step good (step s a) as))

theorem meets_append {s : σ} {as bs : List α} :
    Meets step good s (as ++ bs) ↔ Meets step good s as ∧ Meets step good (run step s as) bs := by
  induction as generalizing s with
  | nil => simp
  | cons a as ih => simp [ih, and_assoc]

theorem Meets.and {good' : σ → α → Prop} :
    ∀ {s : σ} {as : List α}, Meets step good s as → Meets step good' s as →
      Meets step (fun s a => good s a ∧ good' s a) s as
  | _, [], _, _ => trivial
  | _, _ :: _, h, h' => ⟨⟨h.1, h'.1⟩, h.2.and h'.2⟩

theorem meets_and {good' : σ → α → Prop} {s : σ} {as : List α} :
    Meets step (fun s a => good s a ∧ good' s a) s as ↔ Meets step good s as ∧ Meets step good' s as := by
  refine ⟨fun h => ?_, fun h => h.1.and h.2⟩
  induction as generalizing s with
  | nil => exact ⟨trivial, trivial⟩
  | cons a as ih => exact ⟨⟨h.1.1, (ih h.2).1⟩, ⟨h.1.2, (ih h.2).2⟩⟩

theorem Meets.take {s : σ} {as bs : List α} (h : Meets step good s as) (hp : bs <+: as) :
    Meets step good s bs := by
  obtain ⟨cs, rfl⟩ := hp
  exact (meets_append.mp h).1

theorem prefix_iff_meets {P : σ → Prop} {s : σ} {as : List α} :
    (∀ front, front <+: as → P (run step s front)) ↔ P s ∧ Meets step (fun s a => P (step s a)) s as := by
  induction as generalizing s with
  | nil => simp
  | cons a as ih =>
    rw [meets_cons, ← ih]
    refine ⟨fun h => ⟨h [] (List.nil_prefix), fun front hf => ?_⟩, fun h front hf => ?_⟩
    · exact h (a :: front) (List.cons_prefix_cons.mpr ⟨rfl, hf⟩)
    · cases front with
      | nil => exact h.1
      | cons b front =>
        obtain ⟨rfl, ht⟩ := List.cons_prefix_cons.mp hf
        exact h.2 front ht

/-- Two conditions that agree where the invariant holds are met by the same runs,
among those that meet `ok`. -/
theorem meets_iff_of_inv_of_meets {I : σ → Prop} {ok post : σ → α → Prop}
    (hI : ∀ s a, I s → ok s a → good s a → I (step s a))
    (hpost : ∀ s a, I s → ok s a → (post s a ↔ good s a)) {s : σ} (hs : I s) (as : List α)
    (hok : Meets step ok s as) : Meets step post s as ↔ Meets step good s as := by
  induction as generalizing s with
  | nil => exact Iff.rfl
  | cons a as ih =>
    rw [meets_cons, meets_cons, hpost s a hs hok.1]
    exact and_congr_right fun hg => ih (hI s a hs hok.1 hg) hok.2

theorem meets_of_mem {P : α → Prop} : ∀ {s : σ} {as : List α}, (∀ a ∈ as, P a) → Meets step (fun _ a => P a) s as
  | _, [], _ => trivial
  | _, a :: _, h => ⟨h a List.mem_cons_self, meets_of_mem fun b hb => h b (List.mem_cons_of_mem a hb)⟩

theorem meets_iff_mem {P : α → Prop} {s : σ} {as : List α} : Meets step (fun _ a => P a) s as ↔ ∀ a ∈ as, P a := by
  induction as generalizing s with
  | nil => simp
  | cons a as ih => simp [ih]

theorem meets_true (s : σ) (as : List α) : Meets step (fun _ _ => True) s as := by
  induction as generalizing s with
  | nil => trivial
  | cons a as ih => exact ⟨trivial, ih (step s a)⟩

theorem meets_iff_of_inv {I : σ → Prop} {post : σ → α → Prop} (hI : ∀ s a, I s → good s a → I (step s a))
    (hpost : ∀ s a, I s → (post s a ↔ good s a)) {s : σ} (hs : I s) (as : List α) :
    Meets step post s as ↔ Meets step good s as :=
  meets_iff_of_inv_of_meets (fun s a hs _ => hI s a hs) (fun s a hs _ => hpost s a hs) hs as (meets_true s as)

theorem inv_of_meets {I : σ → Prop} (hI : ∀ s a, I s → good s a → I (step s a)) :
    ∀ (s : σ) (as : List α), I s → Meets step good s as → I (run step s as)
  | _, [], hs, _ => hs
  | s, a :: as, hs, h => inv_of_meets hI (step s a) as (hI s a hs h.1) h.2

end

end Run
