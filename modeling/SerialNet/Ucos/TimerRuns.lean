import SerialNet.Ucos.TimerCalls

/-!
# Runs of the timers

The timer task walks one spoke. At its cursor the timers before it show their
alarms after the tick and those from it on still the ones before.
-/

namespace SerialNet.Tmr

open Chain Function

section
variable {s : Timers} {spokes : Fin OS_TMR_CFG_WHEEL_SIZE → List TmrPtr} {free : List TmrPtr} {t : TmrPtr}

/-! ## The timer task -/

theorem expire_moved (t : TmrPtr) (does : List Call) (h : Rep s spokes free)
    (hrun : (s.bare t).OSTmrState = OS_TMR_STATE_RUNNING) : ∃ s', expire s t does = some s' ∧
      Moved s spokes t s' ((s.alarm s.OSTmrTime t).fire does) := by
  unfold expire Alarm.fire
  obtain ⟨s₁, hs₁, hm, hr, hb⟩ := h.moved_unlink hrun
  have hst : (s₁.bare t).OSTmrState = OS_TMR_STATE_STOPPED := by rw [hb]
  have hopt : (s₁.OSTmrTbl t).OSTmrOpt = (s.alarm s.OSTmrTime t).opt := by
    change (s₁.bare t).OSTmrOpt = _
    rw [hb]; rfl
  rw [hs₁, Option.bind_some]
  dsimp only
  rw [hopt]
  split
  · have hm₂ := hm.trans h fun _ _ hr =>
      hr.moved_link OS_TMR_LINK_PERIODIC (by rw [hst]; decide) (by rw [hst]; decide)
    have hexp : s₁.expires t OS_TMR_LINK_PERIODIC - s₁.OSTmrTime = (s.alarm s.OSTmrTime t).period := by
      rw [Timers.expires, if_pos rfl, BitVec.add_sub_cancel]
      change (s₁.bare t).OSTmrPeriod = _
      rw [hb]; rfl
    rw [hexp, hm.time, hm.alarm] at hm₂
    have harg : ((OSTmr_Link s₁ t OS_TMR_LINK_PERIODIC).OSTmrTbl t).OSTmrCallbackArg = (s.alarm s.OSTmrTime t).arg :=
      congrArg Alarm.arg hm₂.alarm
    rw [harg]
    exact hm₂.then h (OSTmrCallback_does (calls_does t does) _)
  · have hm₂ : Moved s spokes t (s₁.setState t OS_TMR_STATE_COMPLETED)
        { s.alarm s.OSTmrTime t with phase := .completed } := by
      have hset : ∀ spokes free, Rep s₁ spokes free → Moved s₁ spokes t (s₁.setState t OS_TMR_STATE_COMPLETED)
          { s₁.alarm s₁.OSTmrTime t with phase := .completed } :=
        fun _ _ hr => hr.moved_setTmr rfl rfl rfl (by simp [hst]) (by simp [hst])
      have hdone := hm.trans h hset
      rw [hm.time, hm.alarm] at hdone
      exact hdone
    have harg : ((s₁.setState t OS_TMR_STATE_COMPLETED).OSTmrTbl t).OSTmrCallbackArg = (s.alarm s.OSTmrTime t).arg :=
      congrArg Alarm.arg hm₂.alarm
    rw [harg]
    exact hm₂.then h (OSTmrCallback_does (calls_does t does) _)

theorem alarm_tick (s : Timers) {now : BitVec 32} {q : TmrPtr} (does : List Call)
    (hnot : (s.bare q).OSTmrState = OS_TMR_STATE_RUNNING → now ≠ (s.bare q).OSTmrMatch) :
    s.alarm now q = (s.alarm (now - 1) q).tick does := by
  unfold Timers.alarm OS_TMR.alarm Alarm.tick
  cases hst : (s.bare q).OSTmrState with
  | OS_TMR_STATE_UNUSED | OS_TMR_STATE_STOPPED | OS_TMR_STATE_COMPLETED => rfl
  | OS_TMR_STATE_RUNNING =>
    have hx : (s.bare q).OSTmrMatch - now ≠ 0 := fun h => hnot hst (by bv_omega)
    have hleft : (s.bare q).OSTmrMatch - (now - 1) = (s.bare q).OSTmrMatch - now + 1 := by bv_omega
    have hpos := ticks_pos ((s.bare q).OSTmrMatch - now)
    dsimp only
    rw [hleft, ticks_succ hx, if_neg (by omega), Nat.add_sub_cancel]

theorem expireAll_moved (does : TmrPtr → List Call) (a : TmrPtr → Alarm) :
    ∀ (rest : List TmrPtr) {n : ℕ} {s : Timers} {spokes : Fin OS_TMR_CFG_WHEEL_SIZE → List TmrPtr} {free : List TmrPtr},
      Rep s spokes free → (∃ pre, spokes (spokeOf s.OSTmrTime) = pre ++ rest) → rest.length ≤ n →
      (∀ q ∈ rest, s.alarm (s.OSTmrTime - 1) q = a q) →
      (∀ q, q ∉ rest → s.alarm s.OSTmrTime q = (a q).tick (does q)) →
      ∃ s' spokes' free', expireAll does n rest.head? s = some s' ∧ Rep s' spokes' free' ∧
        s'.OSTmrTime = s.OSTmrTime ∧ ∀ q, s'.alarm s.OSTmrTime q = (a q).tick (does q)
  | [], n, s, spokes, free, h, _, _, _, hdone =>
    ⟨s, spokes, free, by cases n <;> rfl, h, rfl, fun q => hdone q (List.not_mem_nil)⟩
  | t :: rest, 0, _, _, _, _, _, hn, _, _ => absurd hn (by simp)
  | t :: rest, n + 1, s, spokes, free, h, ⟨pre, hpre⟩, hn, hrest, hdone => by
    have hmem : t ∈ spokes (spokeOf s.OSTmrTime) := by rw [hpre]; simp
    have hrun := ((h.mem _ t).mp hmem).1
    have hnd : (pre ++ t :: rest).Nodup := by rw [← hpre]; exact h.nodup _
    have htrest : t ∉ rest := (List.nodup_cons.mp (List.nodup_append.mp hnd).2.1).1
    have hnext : (s.OSTmrTbl t).OSTmrNext = rest.head? := by
      have hl := h.links (spokeOf s.OSTmrTime)
      rw [hpre] at hl
      exact hl.next_eq
    have hlen : rest.length ≤ n := by simpa using hn
    rw [List.head?_cons, expireAll, hnext]
    by_cases hdue : s.OSTmrTime = (s.OSTmrTbl t).OSTmrMatch
    · rw [if_pos hdue]
      obtain ⟨s₁, hs₁, hm⟩ := expire_moved t (does t) h hrun
      obtain ⟨spokes₁, free₁, hr₁, hb₁⟩ := hm.lists
      have hfire : s₁.alarm s.OSTmrTime t = (a t).tick (does t) := by
        have hone : s.alarm (s.OSTmrTime - 1) t = { s.alarm s.OSTmrTime t with phase := .running 1 } := by
          have hsub : (s.bare t).OSTmrMatch - (s.OSTmrTime - 1) = 1 := by
            rw [show (s.bare t).OSTmrMatch = s.OSTmrTime from hdue.symm]
            bv_omega
          unfold Timers.alarm OS_TMR.alarm
          rw [hrun]
          dsimp only
          rw [hsub, ticks_one]
        rw [hm.alarm, ← hrest t List.mem_cons_self, hone]
        rfl
      rw [hs₁, Option.bind_some, ← hm.time]
      have hpre₁ : ∃ pre, spokes₁ (spokeOf s₁.OSTmrTime) = pre ++ rest := by
        rw [hm.time]
        have htpre : t ∉ pre := fun hp => (List.nodup_append.mp hnd).2.2 t hp t List.mem_cons_self rfl
        have herase : (pre ++ t :: rest).erase t = pre ++ rest := by
          rw [List.erase_append_right _ htpre, List.erase_cons_head]
        have hb := hb₁ (spokeOf s.OSTmrTime)
        rw [hpre] at hb
        rcases hb with hb | hb | hb
        · exact ⟨pre ++ [t], by rw [hb]; simp⟩
        · exact ⟨pre, by rw [hb, herase]⟩
        · exact ⟨t :: pre, by rw [hb, herase]; rfl⟩
      refine expireAll_moved does a rest hr₁ hpre₁ hlen (fun q hq => ?_) fun q hq => ?_
      · have hqt : q ≠ t := fun he => htrest (by rwa [← he])
        rw [hm.other _ hqt, hm.time]
        exact hrest q (List.mem_cons_of_mem t hq)
      · rw [hm.time]
        by_cases hqt : q = t
        · rw [hqt]; exact hfire
        · rw [hm.other _ hqt]
          exact hdone q (by simp [hqt, hq])
    · rw [if_neg hdue]
      refine expireAll_moved does a rest h ⟨pre ++ [t], by rw [hpre]; simp⟩ hlen
        (fun q hq => hrest q (List.mem_cons_of_mem t hq)) fun q hq => ?_
      by_cases hqt : q = t
      · subst hqt
        rw [alarm_tick s (does q) fun _ => hdue, hrest q List.mem_cons_self]
      · exact hdone q (by simp [hqt, hq])

theorem OSTmr_Task_moved (h : Rep s spokes free) (does : TmrPtr → List Call) :
    ∃ s' spokes' free', OSTmr_Task s does = some s' ∧ Rep s' spokes' free' ∧
      ∀ q, s'.alarm s'.OSTmrTime q = (s.alarm s.OSTmrTime q).tick (does q) := by
  have hr : Rep { s with OSTmrTime := s.OSTmrTime + 1 } spokes free :=
    ⟨h.links, h.backs, h.nodup, h.mem, h.entries, h.freeLinks, h.freeNodup, h.freeMem, h.counts⟩
  have hold : ∀ q, Timers.alarm { s with OSTmrTime := s.OSTmrTime + 1 } (s.OSTmrTime + 1 - 1) q =
      s.alarm s.OSTmrTime q := by
    intro q
    rw [BitVec.add_sub_cancel]
    rfl
  have hlen : (spokes (spokeOf (s.OSTmrTime + 1))).length ≤ OS_TMR_CFG_MAX := by
    simpa using (h.nodup (spokeOf (s.OSTmrTime + 1))).length_le_card
  obtain ⟨s', spokes', free', hs', hr', ht, ha⟩ := expireAll_moved does (s.alarm s.OSTmrTime) _ hr ⟨[], rfl⟩ hlen
    (fun q _ => hold q) fun q hq => by
      rw [alarm_tick _ (does q), hold]
      intro hrun he
      exact hq ((h.mem _ q).mpr ⟨hrun, congrArg spokeOf he.symm⟩)
  refine ⟨s', spokes', free', ?_, hr', ?_⟩
  · rw [← hs', ← (h.links _).head]; rfl
  · rw [ht]; exact ha

/-! ## Runs -/

theorem Moved.step {s' : Timers} {a : Alarm} (h : Moved s spokes t s' a) :
    s'.alarms = update s.alarms t a := by
  funext q
  by_cases hq : q = t
  · subst hq
    rw [update_self, Timers.alarms, h.time, h.alarm]
  · rw [update_of_ne hq, Timers.alarms, h.time, h.other _ hq]; rfl

theorem Rep.step (h : Rep s spokes free) (e : Event) : ∃ s' spokes' free', s.step e = some s' ∧ Rep s' spokes' free' ∧
    Step s.alarms s'.alarms e := by
  cases e with
  | OSTmrCreate n dly period opt callback callback_arg =>
    unfold Step
    dsimp only
    by_cases hn : 0 < n
    · refine ⟨s, spokes, free, ?_, h, ?_⟩
      · rw [Timers.step, OSTmrCreate, if_pos hn]
      · rw [if_pos hn]
    · obtain rfl : n = 0 := by omega
      rcases OSTmrCreate_spec h dly period opt callback callback_arg with ⟨hfree, hc⟩ | ⟨t, rest, s', hfree, hc, hr, hb, ht, hcl⟩
      · refine ⟨s, spokes, free, by rw [Timers.step, hc], h, ?_⟩
        refine .inr ⟨fun t hun => ?_, rfl⟩
        have hst := (h.freeMem t).not.mp (by rw [hfree]; exact List.not_mem_nil)
        exact hst ((unused_iff s _ t).mp hun)
      · refine ⟨s', spokes, rest, by rw [Timers.step, hc], hr, .inl ⟨t, ?_, ?_⟩⟩
        · exact (unused_iff s _ t).mpr ((h.freeMem t).mp (by rw [hfree]; exact List.mem_cons_self))
        · funext q
          by_cases hq : q = t
          · subst hq
            rw [update_self, Timers.alarms, Timers.alarm, hb, update_self, Timers.calledBy, hcl]; rfl
          · rw [update_of_ne hq, Timers.alarms, ht]
            exact alarm_congr (by rw [hb, update_of_ne hq]) (by rw [Timers.calledBy, hcl]; rfl)
  | call n t c =>
    obtain ⟨s', hs', hm⟩ := call_moved h n t c
    obtain ⟨spokes', free', hr, -⟩ := hm.lists
    exact ⟨s', spokes', free', hs', hr, hm.step⟩
  | OSTmrStop n t opt callback_arg does =>
    obtain ⟨r, hr, hm⟩ := OSTmrStop_moved (calls_does t does) h n opt callback_arg
    obtain ⟨spokes', free', hrep, -⟩ := hm.lists
    refine ⟨r.s, spokes', free', by rw [Timers.step, hr]; rfl, hrep, ?_⟩
    have hstep := hm.step
    unfold Step
    dsimp only
    by_cases hn : 0 < n
    · rw [if_pos hn] at hstep ⊢
      rw [hstep]
      exact update_eq_self t _
    · rw [if_neg hn] at hstep ⊢
      exact hstep
  | OSTmr_Task does =>
    obtain ⟨s', spokes', free', hs', hr, ha⟩ := OSTmr_Task_moved h does
    exact ⟨s', spokes', free', hs', hr, funext ha⟩

theorem Rep.run : ∀ (es : List Event) {s spokes free}, Rep s spokes free →
    ∃ s' spokes' free', runFrom es s = some s' ∧ Rep s' spokes' free' ∧
      Steps s.alarms es s'.alarms
  | [], s, spokes, free, h => ⟨s, spokes, free, rfl, h, rfl⟩
  | e :: es, s, spokes, free, h => by
    obtain ⟨s₁, spokes₁, free₁, hs₁, hr₁, hstep⟩ := h.step e
    obtain ⟨s', spokes', free', hs', hr', hsteps⟩ := Rep.run es hr₁
    exact ⟨s', spokes', free', by rw [runFrom, hs₁]; exact hs', hr', _, hstep, hsteps⟩

theorem rep_init : Rep OSTmr_Init (fun _ => []) (List.finRange OS_TMR_CFG_MAX) where
  links _ := rfl
  backs _ := trivial
  nodup _ := List.nodup_nil
  mem _ t := by simp [Timers.bare, OS_TMR.bare, OSTmr_Init]
  entries _ := rfl
  freeLinks := by decide
  freeNodup := List.nodup_finRange _
  freeMem t := by simp [Timers.bare, OS_TMR.bare, OSTmr_Init]
  counts := ⟨by simp [OSTmr_Init], rfl⟩

theorem OSTmrRemainGet_eq (s : Timers) (t : TmrPtr) : (OSTmrRemainGet 0 s t).1 = (s.alarms t).remain := by
  unfold OSTmrRemainGet Alarm.remain Timers.alarms Timers.alarm OS_TMR.alarm
  simp only [Nat.lt_irrefl, if_false]
  rw [show (s.bare t).OSTmrState = (s.OSTmrTbl t).OSTmrState from rfl]
  cases (s.OSTmrTbl t).OSTmrState with
  | OS_TMR_STATE_UNUSED | OS_TMR_STATE_COMPLETED => rfl
  | OS_TMR_STATE_STOPPED =>
    rw [show (s.bare t).OSTmrOpt = (s.OSTmrTbl t).OSTmrOpt from rfl]
    cases (s.OSTmrTbl t).OSTmrOpt <;> simp [Timers.bare, OS_TMR.bare]
  | OS_TMR_STATE_RUNNING => exact (ofNat_ticks _).symm

/-- Every run of events goes through, following no null pointer, and shows
sixteen alarms that count down each on its own. -/
theorem timers_are_alarms (es : List Event) : ∃ s, runFrom es OSTmr_Init = some s ∧
    Steps (fun _ => Alarm.fresh) es s.alarms ∧ ∀ t, (OSTmrRemainGet 0 s t).1 = (s.alarms t).remain := by
  obtain ⟨s, spokes, free, hs, hr, hsteps⟩ := Rep.run es rep_init
  exact ⟨s, hs, hsteps, OSTmrRemainGet_eq s⟩

/-- After `NST_SetTimer` the callback of a timer is called at every multiple of
its time, or once after it if the timer is no periodic one, whatever is done to
the other timers. -/
theorem NST_SetTimer_beats {es es' : List Event} {s : Timers} {t : TmrPtr} {f : ℕ}
    (hs : runFrom es OSTmr_Init = some s) (Value : BitVec 32) (huse : (s.OSTmrTbl t).OSTmrState ≠ OS_TMR_STATE_UNUSED)
    (hf : (s.OSTmrTbl t).OSTmrCallback = some f) (hes : ∀ e ∈ es', e.Spares t) :
    ∃ s', runFrom (.call 0 t (.NST_SetTimer Value) :: .call 0 t .OSTmrStart :: es') s = some s' ∧
      s'.calledBy t = s.calledBy t ++ List.replicate
        (if (s.OSTmrTbl t).OSTmrOpt = OS_TMR_OPT_PERIODIC then es'.countP Event.isTick / (timeValue Value).toNat
          else min 1 (es'.countP Event.isTick / (timeValue Value).toNat)) (f, (s.OSTmrTbl t).OSTmrCallbackArg) := by
  obtain ⟨s₀, spokes, free, hs₀, hr, -⟩ := Rep.run es rep_init
  rw [hs] at hs₀
  obtain rfl := Option.some.inj hs₀
  obtain ⟨s', spokes', free', hs', hr', b, hb, c, hc, hsteps⟩ :=
    Rep.run (.call 0 t (.NST_SetTimer Value) :: .call 0 t .OSTmrStart :: es') hr
  refine ⟨s', hs', ?_⟩
  have hstart : c t = ((s.alarms t).set Value).start := by
    rw [show c = _ from hc, update_self, show b = _ from hb, update_self]
    rfl
  have hphase : (s.alarms t).phase ≠ .unused := fun h => huse ((unused_iff s _ t).mp h)
  rw [Alarm.set_start f Value hphase] at hstart
  have hcallback : ((s.alarms t).set Value).callback = some f := by
    unfold Alarm.set
    split <;> exact hf
  have hperiod : ((s.alarms t).set Value).opt = OS_TMR_OPT_PERIODIC →
      ticks ((s.alarms t).set Value).period = (timeValue Value).toNat := by
    unfold Alarm.set
    split
    · exact fun _ => (ticks_timeValue Value).1
    · next ho => exact fun h => absurd h ho
  have hend := Steps.after hcallback (ticks_timeValue Value).2 hperiod hes hstart hsteps
  rw [Nat.zero_add] at hend
  have hcalled : s'.calledBy t = (s'.alarms t).called := rfl
  rw [hcalled, hend]
  unfold Alarm.after Alarm.set
  by_cases ho : (s.alarms t).opt = OS_TMR_OPT_PERIODIC
  · rw [if_pos ho, if_pos ho, if_pos (show (s.OSTmrTbl t).OSTmrOpt = _ from ho)]
    rfl
  · rw [if_neg ho, if_neg ho, if_neg (show (s.OSTmrTbl t).OSTmrOpt ≠ _ from ho)]
    rfl

/-- A periodic timer set to 30 ms, and seven ticks. -/
theorem NST_SetTimer_beats_twice : ∃ s s', runFrom [.OSTmrCreate 0 0 0 OS_TMR_OPT_PERIODIC (some 7) 3] OSTmr_Init = some s ∧
    runFrom (.call 0 0 (.NST_SetTimer 30) :: .call 0 0 .OSTmrStart :: List.replicate 7 (.OSTmr_Task fun _ => [])) s =
      some s' ∧ s'.calledBy 0 = [(7, 3), (7, 3)] := by
  have hs : runFrom [.OSTmrCreate 0 0 0 OS_TMR_OPT_PERIODIC (some 7) 3] OSTmr_Init = some _ := rfl
  have hes : ∀ e ∈ List.replicate 7 (Event.OSTmr_Task fun _ => []), e.Spares 0 := by decide
  obtain ⟨s', hs', hc⟩ := NST_SetTimer_beats (f := 7) hs 30 (by decide) (by decide) hes
  exact ⟨_, s', hs, hs', by rw [hc]; decide⟩

end

end SerialNet.Tmr
