import SerialNet.Ucos.Invariant

/-!
# Every action keeps the invariant

`Core` holds at any moment, `Inv` adds what the program point of the running
task tells. Along with it goes what a task has been handed and has returned.
-/

namespace SerialNet.Ucos

open BitIndex Circ

section
variable {α : Type} {k k' : Kernel α} {p q : Prio} {s : Situation α} {susp : Bool} {e : ℕ} {m : Option α}
  {os : List (Obs α)}

/-- What task `p` is handed: by a post, or by its own look at the store. -/
def Obs.handed (p : Prio) : Obs α → List (ℕ × Option α)
  | .give e q m => if q = p then [(e, m)] else []
  | .take e (some q) m => if q = p then [(e, m)] else []
  | _ => []

/-- What the services of task `p` return. -/
def Obs.returned (p : Prio) : Obs α → List (ℕ × Option α)
  | .ret e q m => if q = p then [(e, m)] else []
  | .take e (some q) m => if q = p then [(e, m)] else []
  | _ => []

def handed (p : Prio) (os : List (Obs α)) : List (ℕ × Option α) := os.flatMap (Obs.handed p)
def returned (p : Prio) (os : List (Obs α)) : List (ℕ × Option α) := os.flatMap (Obs.returned p)

@[simp] theorem handed_nil : handed p ([] : List (Obs α)) = [] := rfl
@[simp] theorem returned_nil : returned p ([] : List (Obs α)) = [] := rfl
@[simp] theorem handed_one (o : Obs α) : handed p [o] = o.handed p := by simp [handed]
@[simp] theorem returned_one (o : Obs α) : returned p [o] = o.returned p := by simp [returned]

/-- Task `q` comes from one situation to another; what it was handed is what it
has returned and what is in its control block. -/
def Passes (k k' : Kernel α) (os : List (Obs α)) (q : Prio) : Prop :=
  ∀ s susp, Fits k q s susp → ∃ s' susp', Fits k' q s' susp' ∧ s.slot ++ handed q os = returned q os ++ s'.slot

theorem Passes.of_same (h : SameTask k k' q) (hos : handed q os = []) (hos' : returned q os = []) :
    Passes k k' os q := by
  intro s susp hf
  exact ⟨s, susp, hf.of_same h, by rw [hos, hos', List.append_nil, List.nil_append]⟩

theorem handed_append (os os' : List (Obs α)) : handed p (os ++ os') = handed p os ++ handed p os' := List.flatMap_append

theorem returned_append (os os' : List (Obs α)) : returned p (os ++ os') = returned p os ++ returned p os' :=
  List.flatMap_append

theorem Passes.trans {k'' : Kernel α} {os' : List (Obs α)} (h : Passes k k' os q) (h' : Passes k' k'' os' q) :
    Passes k k'' (os ++ os') q := by
  intro s susp hf
  obtain ⟨s', susp', hf', heq⟩ := h s susp hf
  obtain ⟨s'', susp'', hf'', heq'⟩ := h' s' susp' hf'
  refine ⟨s'', susp'', hf'', ?_⟩
  rw [handed_append, returned_append, ← List.append_assoc, heq, List.append_assoc, heq', List.append_assoc]

theorem SameTask.refl (k : Kernel α) (q : Prio) : SameTask k k q := ⟨rfl, rfl, rfl, fun _ => rfl, rfl, fun _ => rfl⟩

theorem same_suspend (h : q ≠ p) : SameTask k (k.suspend p) q where
  created := rfl
  tcb := by simp [Kernel.suspend, Kernel.makeUnready, h]
  ready := by simp [Kernel.suspend, Kernel.makeUnready, h]
  waits _ := rfl
  pc := rfl
  type _ := rfl

theorem same_delay {n : ℕ} (h : q ≠ k.OSPrioCur) : SameTask k (k.delay n) q where
  created := rfl
  tcb := by simp [Kernel.delay, Kernel.makeUnready, h]
  ready := by simp [Kernel.delay, Kernel.makeUnready, h]
  waits _ := rfl
  pc := rfl
  type _ := rfl

theorem same_resume {ready : Bool} (h : q ≠ p) : SameTask k (k.resume p ready) q := by
  cases ready
  · exact same_setTcb _ h
  · exact ⟨rfl, by simp [Kernel.resume, Kernel.makeReady, h], by simp [Kernel.resume, Kernel.makeReady, h],
      fun _ => rfl, rfl, fun _ => rfl⟩

theorem same_create (h : q ≠ p) : SameTask k (k.create p) q where
  created := by simp [Kernel.create, Kernel.makeReady, Kernel.setPc, Kernel.setTcb, h]
  tcb := by simp [Kernel.create, Kernel.makeReady, Kernel.setPc, h]
  ready := by simp [Kernel.create, Kernel.makeReady, Kernel.setPc, h]
  waits _ := rfl
  pc := by simp [Kernel.create, Kernel.makeReady, Kernel.setPc, h]
  type _ := rfl

theorem same_setPc (pc : Pc) (h : q ≠ p) : SameTask k (k.setPc p pc) q where
  created := rfl
  tcb := rfl
  ready := rfl
  waits _ := rfl
  pc := by simp [Kernel.setPc, h]
  type _ := rfl

theorem same_waitOn {timeout : ℕ} (h : q ≠ k.OSPrioCur) : SameTask k (k.waitOn e timeout) q where
  created := rfl
  tcb := by simp [Kernel.waitOn, Kernel.OS_EventTaskWait, Kernel.makeUnready, Kernel.setEvent, h]
  ready := by simp [Kernel.waitOn, Kernel.OS_EventTaskWait, Kernel.makeUnready, Kernel.setEvent, h]
  waits e' := by
    by_cases he : e' = e
    · subst he
      simp [Kernel.waitOn, Kernel.OS_EventTaskWait, Kernel.makeUnready, Kernel.setEvent, h]
    · simp [Kernel.waitOn, Kernel.OS_EventTaskWait, Kernel.makeUnready, Kernel.setEvent, he]
  pc := rfl
  type e' := by
    simp only [Kernel.type, Kernel.waitOn, Kernel.OS_EventTaskWait, Kernel.makeUnready, Kernel.setEvent]
    by_cases he : e' = e
    · subst he; simp
    · simp [he]

theorem SameTask.trans {k'' : Kernel α} (h : SameTask k k' q) (h' : SameTask k' k'' q) : SameTask k k'' q :=
  ⟨h'.created.trans h.created, h'.tcb.trans h.tcb, h'.ready.trans h.ready, fun e => (h'.waits e).trans (h.waits e),
    h'.pc.trans h.pc, fun e => (h'.type e).trans (h.type e)⟩

theorem Used.type {st : Store α} {o : Obs α} (h : Used k e st o) : st.type = k.type e := by
  unfold Kernel.type
  cases h with
  | lost h => rw [h]
  | put hw hm hs h =>
    cases hs : (k.events e).store with
    | sem cnt =>
      rw [hs, Store.put] at h
      split at h
      · cases h; rfl
      · cases h
    | mbox pmsg =>
      rw [hs] at h
      cases pmsg with
      | none => cases h; rfl
      | some _ => cases h
    | q pq =>
      rw [hs, Store.put, Option.map_eq_some_iff] at h
      obtain ⟨b, _, rfl⟩ := h
      rfl
  | putFront hw h =>
    cases hs : (k.events e).store with
    | sem cnt => rw [hs] at h; cases h
    | mbox pmsg => rw [hs] at h; cases h
    | q pq =>
      rw [hs, Store.putFront, Option.map_eq_some_iff] at h
      obtain ⟨b, _, rfl⟩ := h
      rfl
  | take hc h =>
    cases hs : (k.events e).store with
    | sem cnt =>
      rw [hs, Store.take] at h
      split at h
      · cases h; rfl
      · cases h
    | mbox pmsg =>
      rw [hs] at h
      cases pmsg with
      | none => cases h
      | some _ => cases h; rfl
    | q pq =>
      rw [hs, Store.take, Option.map_eq_some_iff] at h
      obtain ⟨b, _, hb⟩ := h
      cases hb
      rfl
  | flush h => rw [h]; rfl
  | set h hw => rw [h]; rfl

/-! ## Change by change -/

/-- A task at a service call has nothing in its control block. -/
theorem Fits.of_run (h : Fits k p s susp) (hpc : k.pc p = .run) : s = .awake ∨ s = .absent := by
  have := h.pc
  rw [hpc] at this
  cases s <;> simp_all [Situation.At]

theorem Fits.slot_of_run (h : Fits k p s susp) (hpc : k.pc p = .run) : s.slot = [] := by
  rcases h.of_run hpc with rfl | rfl <;> rfl

/-- The running task, where the scheduler is not locked, can run. -/
def Runs (k : Kernel α) : Prop :=
  k.OSIntNesting = 0 → k.pc k.OSPrioCur = .run ∧ (k.OSLockNesting = 0 → k.OSRdy.has k.OSPrioCur = true)

theorem Used.passes {st : Store α} {o : Obs α} (h : Used k e st o) (hr : Runs k) (q : Prio) :
    Passes k (k.setStore e st) [o] q := by
  have hs : SameTask k (k.setStore e st) q := same_store h.type
  cases h with
  | put | putFront | lost | flush | set => exact .of_same hs rfl rfl
  | take hc h =>
    subst hc
    intro s susp hf
    refine ⟨s, susp, hf.of_same hs, ?_⟩
    unfold Kernel.caller
    split
    · next hi =>
      by_cases hq : k.OSPrioCur = q
      · rw [hf.slot_of_run (hq ▸ (hr hi).1)]
        simp [Obs.handed, Obs.returned]
      · simp [Obs.handed, Obs.returned, hq]
    · simp [Obs.handed, Obs.returned]

theorem passes_give (hw : (k.events e).waits.isEmpty = false) (hm : k.type e = OS_EVENT_TYPE_SEM → m = none) :
    Passes k (k.OS_EventTaskRdy e m (k.type e).msk OS_STAT_PEND_OK) [.give e (k.eventHPT e) m] q := by
  by_cases hq : q = k.eventHPT e
  · subst hq
    intro s susp hf
    refine ⟨.given e m, susp, fits_rdy hw hf rfl rfl rfl (fun _ => rfl) ?_, ?_⟩
    · rintro e' m' ⟨⟩
      exact ⟨rfl, hm⟩
    · rcases hf.of_waits (hpt_waits hw) with rfl | rfl <;> simp [Situation.slot, Obs.handed, Obs.returned]
  · exact .of_same (same_rdy _ _ hq) (by simp [Obs.handed, Ne.symm hq]) (by simp [Obs.returned])

theorem passes_abort (hw : (k.events e).waits.isEmpty = false) :
    Passes k (k.OS_EventTaskRdy e none (k.type e).msk OS_STAT_PEND_ABORT) [.abort e (k.eventHPT e)] q := by
  by_cases hq : q = k.eventHPT e
  · subst hq
    intro s susp hf
    refine ⟨.aborted e, susp, fits_rdy hw hf rfl rfl rfl (fun _ => rfl) (fun _ _ h => by cases h), ?_⟩
    rcases hf.of_waits (hpt_waits hw) with rfl | rfl <;> rfl
  · exact .of_same (same_rdy _ _ hq) rfl rfl

theorem Aborts.passes (h : Aborts e k k' os) : Passes k k' os q := by
  induction h with
  | nil => exact .of_same (.refl _ q) rfl rfl
  | cons hw _ ih => exact (passes_abort hw).trans ih

theorem Found.silent {o : Obs α} (h : Found k o) : handed q [o] = [] ∧ returned q [o] = [] := by
  cases h <;> exact ⟨rfl, rfl⟩

theorem Prim.passes (h : Prim k k' os) (hr : Runs k) (q : Prio) : Passes k k' os q := by
  cases h with
  | found h => exact .of_same (.refl k q) h.silent.1 h.silent.2
  | used h => exact h.passes hr q
  | give hw hm => exact passes_give hw hm
  | delay hi hl hn =>
    by_cases hq : q = k.OSPrioCur
    · subst hq
      intro s susp hf
      obtain ⟨hcan, rfl, -⟩ := hf.of_ready ((hr hi).2 hl)
      rcases hf.of_run (hr hi).1 with rfl | rfl
      · exact ⟨.awake, false, fits_delay hn hf, rfl⟩
      · cases hcan
    · exact .of_same (same_delay hq) rfl rfl
  | @suspend p hc hp =>
    by_cases hq : q = p
    · subst hq
      exact fun s susp hf => ⟨s, true, fits_suspend hf, by simp⟩
    · exact .of_same (same_suspend hq) rfl rfl
  | @resume p ready hc hs hready =>
    by_cases hq : q = p
    · subst hq
      exact fun s susp hf => ⟨s, false, fits_resume hf hc hs hready, by simp⟩
    · exact .of_same (same_resume hq) rfl rfl
  | @create p hi hc =>
    by_cases hq : q = p
    · subst hq
      intro s susp hf
      have habs : s = .absent := by
        by_contra hne
        rw [hf.created.mpr hne] at hc
        cases hc
      subst habs
      exact ⟨.awake, false, fits_create hf, rfl⟩
    · exact .of_same (same_create hq) rfl rfl
  | lock hn => exact .of_same ⟨rfl, rfl, rfl, fun _ => rfl, rfl, fun _ => rfl⟩ rfl rfl

theorem Did.passes (h : Did k k' os) (hr : Runs k) (q : Prio) : Passes k k' os q := by
  cases h with
  | rest => exact .of_same (.refl k q) rfl rfl
  | prim h => exact h.passes hr q
  | aborts h => exact h.passes

end

end SerialNet.Ucos
