import Mathlib.Data.List.Nodup
import Mathlib.Logic.Function.Iterate

/-!
# Paths along a successor function

`Path next p l q`: following `next` from `p` visits the cells `l` and then
reaches `q`. A circular list is a path from a cell back to itself, and a doubly
linked one has such a path in either direction (`Linked`).
-/

namespace Ring

section
variable {α : Type*} (next : α → α)

def Path : α → List α → α → Prop
  | p, [], q => next p = q
  | p, x :: l, q => next p = x ∧ Path x l q

variable {next}

@[simp] theorem path_nil {p q : α} : Path next p [] q ↔ next p = q := Iff.rfl

@[simp] theorem path_cons {p x q : α} {l : List α} : Path next p (x :: l) q ↔ next p = x ∧ Path next x l q := Iff.rfl

theorem path_append {x q : α} {l r : List α} :
    ∀ {p}, Path next p (l ++ x :: r) q ↔ Path next p l x ∧ Path next x r q := by
  induction l with
  | nil => intro p; simp
  | cons y l ih => intro p; simp [ih, and_assoc]

theorem path_rotate {a x : α} {l r : List α} (h : Path next a (l ++ x :: r) a) : Path next x (r ++ a :: l) x :=
  path_append.mpr (path_append.mp h).symm

theorem next_mem_path {q x : α} {l : List α} : ∀ {p}, Path next p l q → x ∈ p :: l → next x ∈ l ∨ next x = q := by
  induction l with
  | nil =>
    intro p h hx
    rw [List.mem_singleton.mp hx]
    exact .inr h
  | cons y l ih =>
    intro p h hx
    rcases List.mem_cons.mp hx with rfl | hx
    · exact .inl (by rw [h.1]; exact List.mem_cons_self)
    · exact (ih h.2 hx).imp (List.mem_cons_of_mem y) id

theorem next_mem {a x : α} {l : List α} (h : Path next a l a) (hx : x ∈ a :: l) : next x ∈ a :: l := by
  rcases next_mem_path h hx with hm | he
  · exact List.mem_cons_of_mem a hm
  · rw [he]; exact List.mem_cons_self

/-- The `k`-th cell of a path is reached in `k` steps. -/
theorem iterate_path {q x : α} {l₁ l₂ l : List α} :
    ∀ {p}, Path next p l q → p :: l = l₁ ++ x :: l₂ → next^[l₁.length] p = x := by
  induction l₁ generalizing l with
  | nil =>
    intro p _ hl
    exact (List.cons.inj hl).1
  | cons y l₁ ih =>
    intro p h hl
    have htail := (List.cons.inj hl).2
    cases l with
    | nil => simp at htail
    | cons z l => rw [List.length_cons, Function.iterate_succ_apply, h.1]; exact ih h.2 htail

theorem path_orbit {a x : α} {l : List α} (h : Path next a l a) : (∃ k, next^[k] a = x) ↔ x ∈ a :: l := by
  constructor
  · rintro ⟨k, rfl⟩
    induction k with
    | zero => exact List.mem_cons_self
    | succ k ih => rw [Function.iterate_succ_apply']; exact next_mem h ih
  · intro hx
    obtain ⟨l₁, l₂, hl⟩ := List.append_of_mem hx
    exact ⟨l₁.length, iterate_path h hl⟩

/-! ## Changed links -/

variable {next' : α → α} {p q h k c : α} {l r : List α}

theorem path_congr : ∀ {p l}, Path next p l q → (∀ x ∈ p :: l, next' x = next x) → Path next' p l q
  | p, [], hp, hsame => (hsame p List.mem_cons_self).trans hp
  | p, _ :: _, hp, hsame =>
    ⟨(hsame p List.mem_cons_self).trans hp.1, path_congr hp.2 fun x hx => hsame x (List.mem_cons_of_mem p hx)⟩

theorem next_path (hp : Path next p l q) : next p = l.headD q := by
  cases l with
  | nil => exact hp
  | cons x l => exact hp.1

theorem path_restart (hp : Path next p l q) (hstart : next' k = next p) (hsame : ∀ x ∈ l, next' x = next x) :
    Path next' k l q := by
  cases l with
  | nil => exact hstart.trans hp
  | cons x l => exact ⟨hstart.trans hp.1, path_congr hp.2 hsame⟩

theorem getLastD_mem : ∀ (l : List α) (p : α), l.getLastD p ∈ p :: l
  | [], _ => List.mem_cons_self
  | x :: l, p => by rw [List.getLastD_cons]; exact List.mem_cons_of_mem p (getLastD_mem l x)

theorem path_retarget : ∀ {p l}, Path next p l q → (p :: l).Nodup →
    (∀ x ∈ p :: l, x ≠ l.getLastD p → next' x = next x) → next' (l.getLastD p) = k → Path next' p l k
  | _, [], _, _, _, hlast => hlast
  | p, x :: l, hp, hnd, hsame, hlast => by
    rw [List.getLastD_cons] at hsame hlast
    have hne : p ≠ l.getLastD x := fun heq => (List.nodup_cons.mp hnd).1 (heq ▸ getLastD_mem l x)
    refine ⟨(hsame p List.mem_cons_self hne).trans hp.1, ?_⟩
    exact path_retarget hp.2 (List.nodup_cons.mp hnd).2 (fun y hy => hsame y (List.mem_cons_of_mem p hy)) hlast

theorem path_snoc (hp : Path next p l q) (hnd : (p :: l).Nodup)
    (hsame : ∀ x ∈ p :: l, x ≠ l.getLastD p → next' x = next x) (hlast : next' (l.getLastD p) = c)
    (hc : next' c = q) : Path next' p (l ++ [c]) q :=
  path_append.mpr ⟨path_retarget hp hnd hsame hlast, hc⟩

theorem path_push (hp : Path next p l q) (hfirst : next' p = c) (hc : next' c = next p)
    (hsame : ∀ x ∈ l, next' x = next x) : Path next' p (c :: l) q :=
  ⟨hfirst, path_restart hp hc hsame⟩

theorem path_unlink (hp : Path next p (l ++ c :: r) q) (hnd : (p :: (l ++ c :: r)).Nodup)
    (hsame : ∀ x ∈ p :: (l ++ r), x ≠ l.getLastD p → next' x = next x)
    (hskip : next' (l.getLastD p) = next c) : Path next' p (l ++ r) q := by
  obtain ⟨hl, hr⟩ := path_append.mp hp
  rw [← List.cons_append] at hnd hsame
  have hndl : (p :: l).Nodup := (List.nodup_append.mp hnd).1
  have hsamel : ∀ x ∈ p :: l, x ≠ l.getLastD p → next' x = next x := fun x hx =>
    hsame x (List.mem_append_left r hx)
  cases r with
  | nil =>
    rw [List.append_nil]
    exact path_retarget hl hndl hsamel (hskip.trans hr)
  | cons y r =>
    refine path_append.mpr ⟨path_retarget hl hndl hsamel (hskip.trans hr.1), path_congr hr.2 fun x hx => ?_⟩
    refine hsame x (List.mem_append_right _ hx) fun heq => ?_
    exact (List.nodup_append.mp hnd).2.2 _ (getLastD_mem l p) x (List.mem_cons_of_mem c hx) heq.symm

/-- The cells of a path from `k` are put behind `l`. -/
theorem path_splice_tail (hp : Path next p l q) (hk : Path next k r h) (hne : r ≠ []) (hnd : (p :: (l ++ r)).Nodup)
    (hsame : ∀ x ∈ p :: (l ++ r), x ≠ l.getLastD p → x ≠ r.getLastD k → next' x = next x)
    (hjoin : next' (l.getLastD p) = next k) (hlast : next' (r.getLastD k) = q) : Path next' p (l ++ r) q := by
  rw [← List.cons_append] at hnd hsame
  obtain ⟨hndl, hndr, hdisj⟩ := List.nodup_append.mp hnd
  cases r with
  | nil => exact absurd rfl hne
  | cons y r =>
    rw [List.getLastD_cons] at hsame hlast
    refine path_append.mpr ⟨path_retarget hp hndl (fun x hx hxl => ?_) (hjoin.trans hk.1),
      path_retarget hk.2 hndr (fun x hx hxr => ?_) hlast⟩
    · exact hsame x (List.mem_append_left _ hx) hxl fun heq => hdisj x hx _ (getLastD_mem r y) heq
    · exact hsame x (List.mem_append_right _ hx) (fun heq => hdisj _ (getLastD_mem l p) x hx heq.symm) hxr

/-- The cells of a path from `k` are put in front of `l`. -/
theorem path_splice_head (hp : Path next p l q) (hk : Path next k r h) (hne : r ≠ []) (hnd : (r ++ l).Nodup)
    (hsame : ∀ x ∈ r ++ l, x ≠ r.getLastD k → next' x = next x) (hfirst : next' p = next k)
    (hlast : next' (r.getLastD k) = next p) : Path next' p (r ++ l) q := by
  obtain ⟨hndr, -, hdisj⟩ := List.nodup_append.mp hnd
  cases r with
  | nil => exact absurd rfl hne
  | cons y r =>
    rw [List.getLastD_cons] at hsame hlast
    have hsamer : ∀ x ∈ y :: r, x ≠ r.getLastD y → next' x = next x := fun x hx =>
      hsame x (List.mem_append_left l hx)
    refine ⟨hfirst.trans hk.1, ?_⟩
    cases l with
    | nil =>
      change Path next' y (r ++ []) q
      rw [List.append_nil]
      exact path_retarget hk.2 hndr hsamer (hlast.trans hp)
    | cons z l =>
      refine path_append.mpr ⟨path_retarget hk.2 hndr hsamer (hlast.trans hp.1), path_congr hp.2 fun x hx => ?_⟩
      exact hsame x (List.mem_append_right _ hx) fun heq => hdisj _ (getLastD_mem r y) x hx heq.symm

/-! ## Doubly linked rings -/

/-- The cells of a ring in both directions. -/
structure Linked (next prev : α → α) (h : α) (l : List α) : Prop where
  next : Path next h l h
  prev : Path prev h l.reverse h
  nodup : (h :: l).Nodup

section
variable {next prev next' prev' : α → α}

theorem Linked.flip (hl : Linked next prev h l) : Linked prev next h l.reverse :=
  ⟨hl.prev, by rw [List.reverse_reverse]; exact hl.next, by
    simpa only [List.nodup_cons, List.mem_reverse, List.nodup_reverse] using hl.nodup⟩

theorem Linked.congr (hl : Linked next prev h l) (hnext : ∀ x ∈ h :: l, next' x = next x)
    (hprev : ∀ x ∈ h :: l, prev' x = prev x) : Linked next' prev' h l :=
  ⟨path_congr hl.next hnext, path_congr hl.prev fun x hx => hprev x (by simpa using hx), hl.nodup⟩

theorem headD_reverse (l : List α) (h : α) : l.reverse.headD h = l.getLastD h := by
  rw [List.headD_eq_head?_getD, List.head?_reverse, List.getLastD_eq_getLast?]

theorem Linked.prev_head (hl : Linked next prev h l) : prev h = l.getLastD h := by
  rw [next_path hl.prev, headD_reverse]

theorem Linked.prev_mem (hl : Linked next prev h (l ++ c :: r)) : prev c = l.getLastD h := by
  have hprev := hl.prev
  rw [List.reverse_append, List.reverse_cons, List.append_assoc, List.singleton_append] at hprev
  rw [next_path (path_append.mp hprev).2, headD_reverse]

theorem Linked.next_mem (hl : Linked next prev h (l ++ c :: r)) : next c = r.reverse.getLastD h := by
  have hflip := hl.flip
  rw [List.reverse_append, List.reverse_cons, List.append_assoc, List.singleton_append] at hflip
  exact hflip.prev_mem

/-- A cell is not its own neighbour. -/
theorem Linked.neighbours_ne (hl : Linked next prev h (l ++ c :: r)) : prev c ≠ c ∧ next c ≠ c := by
  have hnd := hl.nodup
  rw [← List.cons_append] at hnd
  obtain ⟨-, hndr, hdisj⟩ := List.nodup_append.mp hnd
  rw [hl.prev_mem, hl.next_mem]
  refine ⟨hdisj _ (getLastD_mem l h) c List.mem_cons_self, fun heq => ?_⟩
  rcases List.mem_cons.mp (heq ▸ getLastD_mem r.reverse h) with hh | hr
  · exact hdisj h List.mem_cons_self c List.mem_cons_self hh.symm
  · exact (List.nodup_cons.mp hndr).1 (List.mem_reverse.mp hr)

theorem Linked.snoc (hl : Linked next prev h l) (hc : c ∉ h :: l)
    (hnext : ∀ x ∈ h :: l, x ≠ prev h → next' x = next x) (hprev : ∀ x ∈ l, prev' x = prev x)
    (hlast : next' (prev h) = c) (hcn : next' c = h) (hhead : prev' h = c) (hcp : prev' c = prev h) :
    Linked next' prev' h (l ++ [c]) where
  next := by
    rw [hl.prev_head] at hnext hlast
    exact path_snoc hl.next hl.nodup hnext hlast hcn
  prev := by
    rw [List.reverse_append]
    exact path_push hl.prev hhead hcp fun x hx => hprev x (List.mem_reverse.mp hx)
  nodup := by
    rw [← List.cons_append]
    exact List.nodup_append.mpr ⟨hl.nodup, List.nodup_singleton c, fun x hx y hy heq =>
      hc (List.mem_singleton.mp hy ▸ heq ▸ hx)⟩

theorem Linked.unlink (hl : Linked next prev h (l ++ c :: r))
    (hnext : ∀ x ∈ h :: (l ++ r), x ≠ prev c → next' x = next x)
    (hprev : ∀ x ∈ h :: (l ++ r), x ≠ next c → prev' x = prev x)
    (hskip : next' (prev c) = next c) (hback : prev' (next c) = prev c) : Linked next' prev' h (l ++ r) := by
  refine ⟨?_, ?_, ?_⟩
  · rw [hl.prev_mem] at hnext hskip
    exact path_unlink hl.next hl.nodup hnext hskip
  · have hflip := hl.flip
    rw [List.reverse_append, List.reverse_cons, List.append_assoc, List.singleton_append] at hflip
    rw [hl.next_mem] at hprev hback
    rw [List.reverse_append]
    exact path_unlink hflip.next hflip.nodup
      (fun x hx => hprev x (by simpa [or_comm] using hx)) hback
  · exact hl.nodup.sublist ((List.Sublist.append_left (List.sublist_cons_self c r) l).cons_cons h)

theorem Linked.splice (hl : Linked next prev h l) (hk : Linked next prev k r) (hne : r ≠ [])
    (hdisj : ∀ x ∈ h :: l, ∀ y ∈ r, x ≠ y)
    (hnext : ∀ x ∈ h :: (l ++ r), x ≠ prev h → x ≠ prev k → next' x = next x)
    (hprev : ∀ x ∈ l ++ r, x ≠ next k → prev' x = prev x)
    (hjoin : next' (prev h) = next k) (hlast : next' (prev k) = h)
    (hback : prev' (next k) = prev h) (hhead : prev' h = prev k) : Linked next' prev' h (l ++ r) := by
  have hnd : (h :: (l ++ r)).Nodup := by
    rw [← List.cons_append]
    exact List.nodup_append.mpr ⟨hl.nodup, (List.nodup_cons.mp hk.nodup).2, hdisj⟩
  refine ⟨?_, ?_, hnd⟩
  · rw [hl.prev_head] at hnext hjoin
    rw [hk.prev_head] at hnext hlast
    exact path_splice_tail hl.next hk.next hne hnd hnext hjoin hlast
  · have hfirst : next k = r.reverse.getLastD k := by rw [hk.flip.prev_head]
    rw [hfirst] at hprev hback
    rw [List.reverse_append]
    refine path_splice_head hl.prev hk.prev (by simpa using hne) ?_ (fun x hx => hprev x ?_) hhead hback
    · rw [← List.reverse_append]
      exact List.nodup_reverse.mpr (List.nodup_cons.mp hnd).2
    · simpa [or_comm] using hx

end

end

end Ring
