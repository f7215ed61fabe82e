import SerialNet.Lib.Handover
import SerialNet.Ucos.Reachable

/-!
# The history of an event block

A semaphore, a mailbox and a queue are each a `Handover.Box`: a bounded store
with the tasks that wait at it. The history of every run is one of the box.
-/

namespace SerialNet.Ucos

open BitIndex Circ Handover

section
variable {α : Type}

/-- What there is to take, oldest first. -/
def Store.items : Store α → List (Option α)
  | .sem cnt => List.replicate cnt none
  | .mbox none => []
  | .mbox (some m) => [some m]
  | .q pq => pq.contents

def Store.cap : Store α → ℕ
  | .sem _ => 65535
  | .mbox _ => 1
  | .q pq => pq.size

def Kernel.box (k : Kernel α) (e : ℕ) : Box Prio (Option α) :=
  ⟨(k.events e).store.items, (k.events e).store.cap, {p | (k.events e).waits.has p = true}⟩

/-- What the history says of event `e`. -/
def Obs.op (e : ℕ) : Obs α → Option (Op Prio (Option α))
  | .put e' m => if e' = e then some (.put m) else none
  | .putFront e' m => if e' = e then some (.putFront m) else none
  | .lost e' => if e' = e then some .lost else none
  | .give e' p m => if e' = e then some (.give p m) else none
  | .full e' => if e' = e then some .full else none
  | .take e' _ m => if e' = e then some (.take m) else none
  | .empty e' _ => if e' = e then some .empty else none
  | .block e' p => if e' = e then some (.block p) else none
  | .flush e' => if e' = e then some .flush else none
  | .set e' cnt => if e' = e then some (.reset (List.replicate cnt none)) else none
  | .ret _ _ _ => none
  | .timeout e' p => if e' = e then some (.leave p) else none
  | .abort e' p => if e' = e then some (.abort p) else none

def ops (e : ℕ) (os : List (Obs α)) : List (Op Prio (Option α)) := os.filterMap (Obs.op e)

section
variable {k k' : Kernel α} {e : ℕ} {m : Option α} {st st' : Store α} {os : List (Obs α)}

@[simp] theorem ops_nil : ops e ([] : List (Obs α)) = [] := rfl

theorem ops_append (os os' : List (Obs α)) : ops e (os ++ os') = ops e os ++ ops e os' := List.filterMap_append

/-! ## Stores -/

theorem take_eq_none : st.take = none ↔ st.items = [] := by
  cases st with
  | sem cnt => simp [Store.take, Store.items, Nat.pos_iff_ne_zero]
  | mbox pmsg => cases pmsg <;> simp [Store.take, Store.items]
  | q pq => simp [Store.take, Store.items, Buf.pop_eq_none]

theorem take_spec (h : st.take = some (m, st')) : st.items = m :: st'.items ∧ st'.cap = st.cap := by
  cases st with
  | sem cnt =>
    rw [Store.take] at h
    split at h
    · next hpos =>
      obtain ⟨n, rfl⟩ : ∃ n, cnt = n + 1 := ⟨cnt - 1, by omega⟩
      cases h
      exact ⟨rfl, rfl⟩
    · cases h
  | mbox pmsg =>
    cases pmsg with
    | none => cases h
    | some x => cases h; exact ⟨rfl, rfl⟩
  | q pq =>
    rw [Store.take, Option.map_eq_some_iff] at h
    obtain ⟨⟨x, b⟩, hpop, heq⟩ := h
    cases heq
    exact Buf.pop_spec hpop

theorem put_spec (h : st.put m = some st') (hm : st.type = OS_EVENT_TYPE_MBOX → m ≠ none)
    (hs : st.type = OS_EVENT_TYPE_SEM → m = none) :
    st'.items = st.items ++ [m] ∧ st.items.length < st.cap ∧ st'.cap = st.cap := by
  cases st with
  | sem cnt =>
    rw [Store.put] at h
    split at h
    · next hlt =>
      cases h
      rw [hs rfl]
      exact ⟨List.replicate_succ', by simpa [Store.items, Store.cap] using hlt, rfl⟩
    · cases h
  | mbox pmsg =>
    cases pmsg with
    | some x => cases h
    | none =>
      cases h
      obtain ⟨x, rfl⟩ := Option.ne_none_iff_exists'.mp (hm rfl)
      exact ⟨rfl, Nat.one_pos, rfl⟩
  | q pq =>
    rw [Store.put, Option.map_eq_some_iff] at h
    obtain ⟨b, hpush, rfl⟩ := h
    have hroom : ¬pq.contents.length = pq.size := fun h0 => by
      rw [Buf.push_eq_none.mpr h0] at hpush
      cases hpush
    have hle := pq.entries_le
    rw [← Buf.length_contents] at hle
    obtain ⟨hc, hsize⟩ := Buf.push_spec hpush
    exact ⟨hc, by simp only [Store.items, Store.cap]; omega, hsize⟩

theorem putFront_spec (h : st.putFront m = some st') :
    st'.items = m :: st.items ∧ st.items.length < st.cap ∧ st'.cap = st.cap := by
  cases st with
  | sem cnt => cases h
  | mbox pmsg => cases h
  | q pq =>
    rw [Store.putFront, Option.map_eq_some_iff] at h
    obtain ⟨b, hpush, rfl⟩ := h
    have hroom : ¬pq.contents.length = pq.size := fun h0 => by
      rw [Buf.pushFront_eq_none.mpr h0] at hpush
      cases hpush
    have hle := pq.entries_le
    rw [← Buf.length_contents] at hle
    obtain ⟨hc, hsize⟩ := Buf.pushFront_spec hpush
    exact ⟨hc, by simp only [Store.items, Store.cap]; omega, hsize⟩

theorem put_eq_none (h : st.put m = none) : st.cap ≤ st.items.length := by
  cases st with
  | sem cnt =>
    rw [Store.put] at h
    split at h
    · cases h
    · simp only [Store.cap, Store.items, List.length_replicate]; omega
  | mbox pmsg =>
    cases pmsg with
    | none => cases h
    | some x => exact le_rfl
  | q pq =>
    rw [Store.put, Option.map_eq_none_iff, Buf.push_eq_none] at h
    exact h.ge

/-! ## The box -/

theorem box_setStore_self : (k.setStore e st).box e = { k.box e with items := st.items, cap := st.cap } := by
  simp [Kernel.box, Kernel.setStore, Kernel.setEvent]

theorem box_setStore_ne {e' : ℕ} (h : e' ≠ e) : (k.setStore e st).box e' = k.box e' := by
  simp [Kernel.box, Kernel.setStore, Kernel.setEvent, h]

theorem waiting_eq_empty (h : (k.events e).waits.isEmpty = true) : (k.box e).waiting = ∅ := by
  ext p
  simp [Kernel.box, Index.isEmpty_iff.mp h p]

theorem waiting_of_take (hk : Served k) (h : (k.events e).store.take ≠ none) : (k.box e).waiting = ∅ := by
  ext p
  exact iff_of_false (fun hp => h (hk e p hp)) (Set.notMem_empty p)

theorem hpt_isLeast (hw : (k.events e).waits.isEmpty = false) : IsLeast (k.box e).waiting (k.eventHPT e) :=
  ⟨hpt_waits hw, fun _ hp => hpt_le hp⟩

theorem box_rdy_self (msk : BitVec 8) (ps : PendStat) : (k.OS_EventTaskRdy e m msk ps).box e =
    { k.box e with waiting := (k.box e).waiting \ {k.eventHPT e} } := by
  rw [Kernel.OS_EventTaskRdy_eq]
  simp only [Kernel.box, Function.update_self, Index.has_remove]
  congr 1
  ext p
  simp [and_comm]

theorem box_rdy_ne (msk : BitVec 8) (ps : PendStat) {e' : ℕ} (h : e' ≠ e) :
    (k.OS_EventTaskRdy e m msk ps).box e' = k.box e' := by
  rw [Kernel.OS_EventTaskRdy_eq]
  simp [Kernel.box, h]

theorem Used.step {o : Obs α} (h : Used k e st o) (hk : Served k) :
    ∃ op, o.op e = some op ∧ Step (k.box e) op ((k.setStore e st).box e) := by
  rw [box_setStore_self]
  cases h with
  | @put m st hw hm hs h =>
    obtain ⟨hi, hlt, hc⟩ := put_spec h hm hs
    rw [hi, hc]
    exact ⟨.put m, by simp [Obs.op], .put (waiting_eq_empty hw) hlt⟩
  | lost h =>
    refine ⟨.lost, by simp [Obs.op], ?_⟩
    have : ({ k.box e with items := (Store.mbox none : Store α).items, cap := (Store.mbox none : Store α).cap } :
        Box Prio (Option α)) = k.box e := by simp [Kernel.box, h]
    rw [this]
    exact .lost
  | @putFront m st hw h =>
    obtain ⟨hi, hlt, hc⟩ := putFront_spec h
    rw [hi, hc]
    exact ⟨.putFront m, by simp [Obs.op], .putFront (waiting_eq_empty hw) hlt⟩
  | @take c m st hc h =>
    obtain ⟨hi, hcap⟩ := take_spec h
    rw [hcap]
    exact ⟨.take m, by simp [Obs.op], .take hi⟩
  | @flush b h =>
    refine ⟨.flush, by simp [Obs.op], ?_⟩
    have : ({ k.box e with items := (Store.q b.flush).items, cap := (Store.q b.flush).cap } : Box Prio (Option α)) =
        { k.box e with items := [] } := by simp [Kernel.box, h, Store.items, Store.cap]
    rw [this]
    exact .flush
  | @set c n h hw =>
    refine ⟨.reset (List.replicate n none), by simp [Obs.op], ?_⟩
    have hempty : (k.box e).waiting = ∅ := by
      rcases hw with hw | hw
      · exact waiting_of_take hk (by rw [h, Store.take, if_pos hw]; exact Option.some_ne_none _)
      · exact waiting_eq_empty hw
    have : ({ k.box e with items := (Store.sem n : Store α).items, cap := (Store.sem n : Store α).cap } :
        Box Prio (Option α)) = { k.box e with items := List.replicate n none } := by
      simp [Kernel.box, h, Store.items, Store.cap]
    rw [this]
    exact .reset hempty

theorem Used.other {o : Obs α} (h : Used k e st o) {e' : ℕ} (he : e ≠ e') : o.op e' = none := by
  cases h <;> simp [Obs.op, he]

theorem Found.step {o : Obs α} (h : Found k o) : Plays (k.box e) (ops e [o]) (k.box e) := by
  cases h with
  | @full e' m h =>
    by_cases he : e' = e
    · subst he
      simpa [ops, Obs.op] using (Step.full (put_eq_none h)).plays
    · simpa [ops, Obs.op, he] using Plays.nil
  | @fullFront e' m b hq h =>
    by_cases he : e' = e
    · subst he
      have hfull : (k.box e').cap ≤ (k.box e').items.length := by
        rw [hq, Store.putFront, Option.map_eq_none_iff, Buf.pushFront_eq_none] at h
        simpa [Kernel.box, hq, Store.cap, Store.items] using h.ge
      simpa [ops, Obs.op] using (Step.full hfull).plays
    · simpa [ops, Obs.op, he] using Plays.nil
  | @empty e' c h =>
    by_cases he : e' = e
    · subst he
      simpa [ops, Obs.op] using (Step.empty (B := k.box e') (take_eq_none.mp h)).plays
    · simpa [ops, Obs.op, he] using Plays.nil

theorem box_of_events (h : k'.events = k.events) : k'.box e = k.box e := by
  unfold Kernel.box
  rw [h]

@[simp] theorem box_setPc (p : Prio) (pc : Pc) : (k.setPc p pc).box e = k.box e := rfl

theorem plays_of_events (h : k'.events = k.events) : Plays (k.box e) [] (k'.box e) := by
  rw [box_of_events h]
  exact .nil

theorem Prim.plays (h : Prim k k' os) (hk : Served k) : Plays (k.box e) (ops e os) (k'.box e) := by
  cases h with
  | found h => exact h.step
  | @used e' st o h =>
    by_cases he : e' = e
    · subst he
      obtain ⟨op, hop, hstep⟩ := h.step hk
      simpa [ops, hop] using hstep.plays
    · rw [box_setStore_ne (Ne.symm he)]
      simpa [ops, h.other he] using Plays.nil
  | @give e' m hw hm =>
    by_cases he : e' = e
    · subst he
      rw [box_rdy_self]
      simpa [ops, Obs.op] using
        (Step.give (B := k.box e') (hpt_isLeast hw) (take_eq_none.mp (hk e' _ (hpt_waits hw)))).plays
    · rw [box_rdy_ne _ _ (Ne.symm he)]
      simpa [ops, Obs.op, he] using Plays.nil
  | delay | suspend | create | lock => exact .nil
  | @resume p ready => exact plays_of_events (by cases ready <;> rfl)

theorem Aborts.plays {e' : ℕ} (h : Aborts e' k k' os) : Plays (k.box e) (ops e os) (k'.box e) := by
  induction h with
  | nil => exact .nil
  | @cons a b os hw _ ih =>
    by_cases he : e' = e
    · subst he
      rw [box_rdy_self] at ih
      have hops : ops e' (.abort e' (a.eventHPT e') :: os) = .abort (a.eventHPT e') :: ops e' os := by simp [ops, Obs.op]
      rw [hops]
      exact .cons (.abort (hpt_isLeast hw)) ih
    · rw [box_rdy_ne _ _ (Ne.symm he)] at ih
      simpa [ops, Obs.op, he] using ih

theorem Did.plays (h : Did k k' os) (hk : Served k) : Plays (k.box e) (ops e os) (k'.box e) := by
  cases h with
  | rest => exact .nil
  | prim h => exact h.plays hk
  | aborts h => exact h.plays

/-! ## Actions -/

theorem box_waitOn {timeout : ℕ} {pc : Pc} (he : (k.events e).store.take = none)
    (hw : (k.events e).waits.has k.OSPrioCur = false) (e' : ℕ) :
    Plays (k.box e') (ops e' [.block e k.OSPrioCur]) (((k.waitOn e timeout).setPc k.OSPrioCur pc).box e') := by
  by_cases h : e = e'
  · subst h
    have hbox : ((k.waitOn e timeout).setPc k.OSPrioCur pc).box e =
        { k.box e with waiting := insert k.OSPrioCur (k.box e).waiting } := by
      simp only [Kernel.box, Kernel.waitOn, Kernel.OS_EventTaskWait, Kernel.makeUnready, Kernel.setPc, Kernel.setEvent,
        Function.update_self, Kernel.setTcb_events, Kernel.setTcb_OSPrioCur, Index.has_add]
      congr 1
      ext p
      simp
    rw [hbox]
    have hstep : Step (k.box e) (.block k.OSPrioCur) { k.box e with waiting := insert k.OSPrioCur (k.box e).waiting } :=
      .block (take_eq_none.mp he) (by simp [Kernel.box, hw])
    simpa [ops, Obs.op] using hstep.plays
  · have hbox : ((k.waitOn e timeout).setPc k.OSPrioCur pc).box e' = k.box e' := by
      simp [Kernel.box, Kernel.waitOn, Kernel.OS_EventTaskWait, Kernel.makeUnready, Kernel.setPc, Kernel.setEvent,
        Ne.symm h]
    rw [hbox]
    simpa [ops, Obs.op, h] using Plays.nil

theorem box_pendWake (hw : (k.OSTCBTbl k.OSPrioCur).OSTCBStatPend = OS_STAT_PEND_TO →
      (k.events e).waits.has k.OSPrioCur = true) (pc : Pc) (e' : ℕ) :
    Plays (k.box e') (ops e' (k.pendWake e).log) (((k.pendWake e).k.setPc k.OSPrioCur pc).box e') := by
  rw [box_setPc]
  unfold Kernel.pendWake
  dsimp only
  split
  · exact .nil
  · exact .nil
  · next hto =>
    by_cases h : e = e'
    · subst h
      have hbox : ((k.OS_EventTaskRemove k.OSPrioCur e).setTcb k.OSPrioCur ⟨OS_STAT_RDY, OS_STAT_PEND_OK,
          (k.OSTCBTbl k.OSPrioCur).OSTCBDly, if (k.events e).store.type = OS_EVENT_TYPE_SEM then
            (k.OSTCBTbl k.OSPrioCur).OSTCBMsg else none⟩).box e =
          { k.box e with waiting := (k.box e).waiting \ {k.OSPrioCur} } := by
        simp only [Kernel.box, Kernel.OS_EventTaskRemove, Kernel.setEvent, Kernel.setTcb_events, Function.update_self,
          Index.has_remove]
        congr 1
        ext p
        simp [and_comm]
      rw [hbox]
      have hmem : k.OSPrioCur ∈ (k.box e).waiting := hw hto
      simpa [ops, Obs.op] using (Step.leave hmem).plays
    · have hbox : ∀ t, ((k.OS_EventTaskRemove k.OSPrioCur e).setTcb k.OSPrioCur t).box e' = k.box e' := fun t => by
        simp [Kernel.box, Kernel.OS_EventTaskRemove, Kernel.setEvent, Ne.symm h]
      rw [hbox]
      simpa [ops, Obs.op, h] using Plays.nil

theorem events_sched : k.OS_Sched.events = k.events := by
  unfold Kernel.OS_Sched
  split
  · split <;> rfl
  · rfl

theorem Inv.plays (h : Inv k) {a : Action α} (ha : a.SparesIdle) (e : ℕ) :
    Plays (k.box e) (ops e (k.step a).2) ((k.step a).1.box e) := by
  cases a with
  | task s =>
    unfold Kernel.step
    dsimp only
    split
    · next hen =>
      obtain ⟨hi, hpc, hidle⟩ := hen
      cases s.called (k := k) ha with
      | @waits e₁ timeout _ hl he hk hn hlog =>
        rw [hk, hlog]
        refine box_waitOn he ?_ e
        obtain ⟨s₁, susp, hf⟩ := h.tasks k.OSPrioCur
        rw [hf.waits]
        rcases hf.of_run hpc with rfl | rfl <;> rfl
      | did hd hn =>
        rw [box_setPc]
        exact hd.plays h.served
    · exact .nil
  | goOn =>
    unfold Kernel.step
    dsimp only
    split
    · next hi =>
      unfold Kernel.goOn
      split
      · exact .nil
      · exact plays_of_events events_sched
      · exact plays_of_events events_sched
      · next e₁ hpc =>
        refine box_pendWake (fun hto => ?_) _ e
        obtain ⟨s₁, susp, hf⟩ := h.tasks k.OSPrioCur
        have hready := h.ready_cur hi (h.unlocked (by simp [hpc])) (.inr ⟨e₁, hpc⟩)
        obtain ⟨hcan, rfl, -⟩ := hf.of_ready hready
        have hne : s₁ ≠ .absent := by rintro rfl; cases hcan
        have hat := hf.pc
        have hst := (hf.statPend hne).symm.trans hto
        rw [hpc] at hat
        rw [hf.waits]
        cases s₁ with
        | timedOut e₂ =>
          obtain rfl : e₁ = e₂ := by simpa [Situation.At] using hat
          simp [Situation.waitsFor]
        | absent | awake | waiting | given | aborted => cases hst
    · exact .nil
  | intEnter => exact plays_of_events (by unfold Kernel.step Kernel.OSIntEnter; dsimp only; split <;> rfl)
  | isr s =>
    unfold Kernel.step
    dsimp only
    split
    · next hi =>
      cases s.called (k := k) ha with
      | waits h0 _ _ _ _ _ => omega
      | did hd hn => exact hd.plays h.served
    · exact .nil
  | tick prio =>
    unfold Kernel.step
    dsimp only
    split
    · refine plays_of_events ?_
      rw [tickTcb_eq]
      split
      · rfl
      · split <;> rfl
    · exact .nil
  | intExit =>
    unfold Kernel.step
    dsimp only
    split
    · next hi => exact plays_of_events (by rw [intExit_eq hi])
    · exact .nil

end

end

end SerialNet.Ucos
