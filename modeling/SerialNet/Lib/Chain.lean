import Mathlib.Data.List.Nodup

/-!
# Linked lists that end in a null pointer

`Links next p l`: following `next` from the pointer `p` visits the cells `l` and
ends at null. `Backs prev b l`: every cell of `l` points back to the one before
it, the first one to `b`.
-/

namespace Chain

section
variable {α : Type*} {next next' prev prev' : α → Option α}

def Links (next : α → Option α) : Option α → List α → Prop
  | p, [] => p = none
  | p, x :: l => p = some x ∧ Links next (next x) l

def Backs (prev : α → Option α) : Option α → List α → Prop
  | _, [] => True
  | b, x :: l => prev x = b ∧ Backs prev (some x) l

instance Links.decidable [DecidableEq α] : ∀ (p : Option α) (l : List α), Decidable (Links next p l)
  | p, [] => inferInstanceAs (Decidable (p = none))
  | p, x :: l =>
    have := Links.decidable (next x) l
    inferInstanceAs (Decidable (p = some x ∧ Links next (next x) l))

@[simp] theorem links_nil {p : Option α} : Links next p [] ↔ p = none := Iff.rfl

@[simp] theorem links_cons {p : Option α} {x : α} {l : List α} :
    Links next p (x :: l) ↔ p = some x ∧ Links next (next x) l := Iff.rfl

@[simp] theorem backs_nil {b : Option α} : Backs prev b [] := trivial

@[simp] theorem backs_cons {b : Option α} {x : α} {l : List α} :
    Backs prev b (x :: l) ↔ prev x = b ∧ Backs prev (some x) l := Iff.rfl

theorem Links.head : ∀ {p : Option α} {l : List α}, Links next p l → p = l.head?
  | _, [], h => h
  | _, _ :: _, h => h.1

theorem Links.congr : ∀ {p : Option α} {l : List α}, Links next p l → (∀ x ∈ l, next' x = next x) → Links next' p l
  | _, [], h, _ => h
  | _, x :: _, h, hs => by
    refine ⟨h.1, ?_⟩
    rw [hs x List.mem_cons_self]
    exact h.2.congr fun y hy => hs y (List.mem_cons_of_mem x hy)

theorem Backs.congr : ∀ {b : Option α} {l : List α}, Backs prev b l → (∀ x ∈ l, prev' x = prev x) → Backs prev' b l
  | _, [], _, _ => trivial
  | _, x :: _, h, hs =>
    ⟨(hs x List.mem_cons_self).trans h.1, h.2.congr fun y hy => hs y (List.mem_cons_of_mem x hy)⟩

theorem links_append {x : α} {l r : List α} :
    ∀ {p : Option α}, Links next p (l ++ x :: r) → Links next (next x) r := by
  induction l with
  | nil => exact fun h => h.2
  | cons y l ih => exact fun h => ih h.2

theorem Links.next_eq {p : Option α} {x : α} {l r : List α} (h : Links next p (l ++ x :: r)) : next x = r.head? :=
  (links_append h).head

theorem Backs.prev_eq {x : α} {r : List α} :
    ∀ {b : Option α} {l : List α}, Backs prev b (l ++ x :: r) → prev x = l.getLast?.or b
  | _, [], h => by simpa using h.1
  | b, y :: l, h => by
    have hx := Backs.prev_eq h.2
    cases l with
    | nil => simpa using hx
    | cons z l =>
      obtain ⟨w, hw⟩ : ∃ w, (z :: l).getLast? = some w := ⟨_, List.getLast?_eq_some_getLast (List.cons_ne_nil z l)⟩
      rw [hw] at hx
      rw [List.getLast?_cons_cons, hw]
      exact hx

theorem Links.push {p : Option α} {x : α} {l : List α} (h : Links next p l) (hx : next' x = p)
    (hs : ∀ y ∈ l, next' y = next y) : Links next' (some x) (x :: l) :=
  ⟨rfl, by rw [hx]; exact h.congr hs⟩

theorem Backs.rebase {b b' : Option α} {l : List α} (h : Backs prev b l) (hnd : l.Nodup)
    (hfirst : ∀ y ∈ l.head?, prev' y = b') (hs : ∀ y ∈ l, some y ≠ l.head? → prev' y = prev y) : Backs prev' b' l := by
  cases l with
  | nil => trivial
  | cons y l =>
    refine ⟨hfirst y rfl, h.2.congr fun z hz => hs z (List.mem_cons_of_mem y hz) ?_⟩
    rintro ⟨⟩
    exact (List.nodup_cons.mp hnd).1 hz

theorem Links.unlink {x : α} {r : List α} :
    ∀ {p : Option α} {l : List α}, Links next p (l ++ x :: r) → (l ++ x :: r).Nodup →
      (∀ y ∈ l.getLast?, next' y = next x) → (∀ y ∈ l ++ r, some y ≠ l.getLast? → next' y = next y) →
      Links next' (if l = [] then next x else p) (l ++ r)
  | _, [], h, hnd, _, hs => by
    refine h.2.congr fun y hy => hs y hy (by simp)
  | p, y :: l, h, hnd, hlast, hs => by
    have hl : y ∉ l ++ x :: r := (List.nodup_cons.mp hnd).1
    have hy : Links next' (next' y) (l ++ r) := by
      cases l with
      | nil =>
        rw [hlast y rfl]
        refine h.2.2.congr fun z hz => hs z (List.mem_cons_of_mem y hz) ?_
        rintro ⟨⟩
        exact hl (List.mem_cons_of_mem x hz)
      | cons z l =>
        have hne : some y ≠ (y :: z :: l).getLast? := by
          rw [List.getLast?_cons_cons]
          intro he
          exact hl (List.mem_append_left _ (List.mem_of_getLast? he.symm))
        rw [hs y List.mem_cons_self hne]
        have := Links.unlink h.2 (List.nodup_cons.mp hnd).2 (fun w hw => hlast w (by rwa [List.getLast?_cons_cons]))
          (fun w hw hne' => hs w (List.mem_cons_of_mem y hw) (by rwa [List.getLast?_cons_cons]))
        simpa using this
    exact ⟨by simpa using h.1, by simpa using hy⟩

theorem Backs.unlink {x : α} {r : List α} :
    ∀ {b : Option α} {l : List α}, Backs prev b (l ++ x :: r) → (l ++ x :: r).Nodup →
      (∀ y ∈ r.head?, prev' y = prev x) → (∀ y ∈ l ++ r, some y ≠ r.head? → prev' y = prev y) → Backs prev' b (l ++ r)
  | b, [], h, hnd, hfirst, hs => by
    refine h.2.rebase (List.nodup_cons.mp hnd).2 (fun y hy => (hfirst y hy).trans h.1) fun y hy => hs y hy
  | b, y :: l, h, hnd, hfirst, hs => by
    refine ⟨?_, Backs.unlink h.2 (List.nodup_cons.mp hnd).2 hfirst fun z hz => hs z (List.mem_cons_of_mem y hz)⟩
    rw [hs y List.mem_cons_self ?_]
    · exact h.1
    · intro he
      have hr : y ∈ r := List.mem_of_head? he.symm
      exact (List.nodup_cons.mp hnd).1 (by simp [hr])

end

end Chain
