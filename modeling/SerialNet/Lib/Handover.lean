import Mathlib.Data.Set.Insert
import Mathlib.Order.Bounds.Basic

/-!
# A bounded store with tasks waiting at it

A `Box` has items, room for `cap` of them, and the tasks that wait because they
found nothing. A post to waiting tasks goes to the least of them, past the
items. `Step` is what may happen to the box, `Plays` a history of it.
-/

namespace Handover

structure Box (τ μ : Type*) where
  items : List μ
  cap : ℕ
  waiting : Set τ

inductive Op (τ μ : Type*)
  | put (m : μ)
  | putFront (m : μ)
  | give (p : τ) (m : μ)
  | full
  | take (m : μ)
  | empty
  | block (p : τ)
  | flush
  | reset (l : List μ)
  | leave (p : τ)
  | abort (p : τ)
  | lost
  deriving DecidableEq

section
variable {τ μ : Type*} [LinearOrder τ]

inductive Step (B : Box τ μ) : Op τ μ → Box τ μ → Prop
  | put {m} (hw : B.waiting = ∅) (hc : B.items.length < B.cap) : Step B (.put m) { B with items := B.items ++ [m] }
  | putFront {m} (hw : B.waiting = ∅) (hc : B.items.length < B.cap) :
    Step B (.putFront m) { B with items := m :: B.items }
  | give {p m} (hp : IsLeast B.waiting p) (he : B.items = []) :
    Step B (.give p m) { B with waiting := B.waiting \ {p} }
  | full (hc : B.cap ≤ B.items.length) : Step B .full B
  | take {m l} (h : B.items = m :: l) : Step B (.take m) { B with items := l }
  | empty (h : B.items = []) : Step B .empty B
  | block {p} (h : B.items = []) (hp : p ∉ B.waiting) : Step B (.block p) { B with waiting := insert p B.waiting }
  | flush : Step B .flush { B with items := [] }
  | reset {l} (hw : B.waiting = ∅) : Step B (.reset l) { B with items := l }
  | leave {p} (hp : p ∈ B.waiting) : Step B (.leave p) { B with waiting := B.waiting \ {p} }
  | abort {p} (hp : IsLeast B.waiting p) : Step B (.abort p) { B with waiting := B.waiting \ {p} }
  | lost : Step B .lost B

inductive Plays : Box τ μ → List (Op τ μ) → Box τ μ → Prop
  | nil {B} : Plays B [] B
  | cons {B C D o os} (h : Step B o C) (t : Plays C os D) : Plays B (o :: os) D

section
variable {B C D : Box τ μ} {o : Op τ μ} {os os' : List (Op τ μ)}

theorem Step.plays (h : Step B o C) : Plays B [o] C := .cons h .nil

theorem Plays.append (h : Plays B os C) (h' : Plays C os' D) : Plays B (os ++ os') D := by
  induction h with
  | nil => exact h'
  | cons hs _ ih => exact .cons hs (ih h')

/-- What posts leave: at the end of the items or in the hands of a waiting task. -/
def Op.posted : Op τ μ → List μ
  | .put m => [m]
  | .give _ m => [m]
  | _ => []

/-- What tasks get: by a look at the items or from a post. -/
def Op.got : Op τ μ → List μ
  | .take m => [m]
  | .give _ m => [m]
  | _ => []

/-- The operations of a box that is used first in, first out. -/
def Op.Fifo : Op τ μ → Prop
  | .putFront _ => False
  | .flush => False
  | .reset _ => False
  | _ => True

instance (o : Op τ μ) : Decidable o.Fifo := by
  cases o <;> unfold Op.Fifo <;> infer_instance

theorem Step.fifo (h : Step B o C) (ho : o.Fifo) : B.items ++ o.posted = o.got ++ C.items := by
  cases h with
  | put | full | empty | block | leave | abort | lost => simp [Op.posted, Op.got]
  | give _ he => simp [Op.posted, Op.got, he]
  | take h => simp [Op.posted, Op.got, h]
  | putFront => exact ho.elim
  | flush => exact ho.elim
  | reset => exact ho.elim

/-- What was there and what was posted, in this order, is what was got and what is left. -/
theorem Plays.fifo (h : Plays B os C) :
    (∀ o ∈ os, o.Fifo) → B.items ++ os.flatMap Op.posted = os.flatMap Op.got ++ C.items := by
  induction h with
  | nil => intro _; simp
  | @cons B C D o os hs _ ih =>
    intro ho
    have hstep := hs.fifo (ho o List.mem_cons_self)
    have ih := ih fun o' h => ho o' (List.mem_cons_of_mem o h)
    rw [List.flatMap_cons, List.flatMap_cons, ← List.append_assoc, hstep, List.append_assoc, ih, List.append_assoc]

end

end

end Handover
