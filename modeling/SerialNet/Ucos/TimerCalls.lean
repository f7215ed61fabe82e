import SerialNet.Ucos.TimerWheel
import SerialNet.Ucos.TimerAlarm

/-!
# One call on a timer

`Moved` is what a call leaves of the lists and of the other timers, and the
alarm that timer shows after it. Each service moves its timer as its alarm
moves, and so do a callback's calls one after the other.
-/

namespace SerialNet.Tmr

open Chain Function

/-! ## The alarms of the wheel -/

def OS_TMR.alarm (tmr : OS_TMR) (now : BitVec 32) (called : List (ℕ × ℕ)) : Alarm where
  phase :=
    match tmr.OSTmrState with
    | OS_TMR_STATE_UNUSED => .unused
    | OS_TMR_STATE_STOPPED => .stopped
    | OS_TMR_STATE_COMPLETED => .completed
    | OS_TMR_STATE_RUNNING => .running (ticks (tmr.OSTmrMatch - now))
  dly := tmr.OSTmrDly
  period := tmr.OSTmrPeriod
  opt := tmr.OSTmrOpt
  callback := tmr.OSTmrCallback
  arg := tmr.OSTmrCallbackArg
  called := called

def Timers.calledBy (s : Timers) (t : TmrPtr) : List (ℕ × ℕ) := (s.called.filter fun c => c.1 = t).map Prod.snd

def Timers.alarm (s : Timers) (now : BitVec 32) (t : TmrPtr) : Alarm := (s.bare t).alarm now (s.calledBy t)

def Timers.alarms (s : Timers) (t : TmrPtr) : Alarm := s.alarm s.OSTmrTime t

section
variable {s : Timers} {spokes : Fin OS_TMR_CFG_WHEEL_SIZE → List TmrPtr} {free : List TmrPtr} {t : TmrPtr}

/-- A list from which `t` may have been taken and at whose head it may be. -/
def Beside (t : TmrPtr) (l l' : List TmrPtr) : Prop := l' = l ∨ l' = l.erase t ∨ l' = t :: l.erase t

theorem Beside.erase {l l' : List TmrPtr} (h : Beside t l l') (hnd : l.Nodup) : l'.erase t = l.erase t := by
  have hnot : t ∉ l.erase t := hnd.not_mem_erase
  rcases h with rfl | rfl | rfl
  · rfl
  · exact List.erase_of_not_mem hnot
  · exact List.erase_cons_head ..

theorem Beside.trans {l l' l'' : List TmrPtr} (h : Beside t l l') (h' : Beside t l' l'') (hnd : l.Nodup) :
    Beside t l l'' := by
  unfold Beside at h'
  rw [h.erase hnd] at h'
  rcases h' with rfl | h'
  · exact h
  · exact .inr h'

/-- A change to timer `t` alone, after which its alarm is `a`. -/
structure Moved (s : Timers) (spokes : Fin OS_TMR_CFG_WHEEL_SIZE → List TmrPtr) (t : TmrPtr) (s' : Timers)
    (a : Alarm) : Prop where
  lists : ∃ spokes' free', Rep s' spokes' free' ∧ ∀ i, Beside t (spokes i) (spokes' i)
  bare : ∀ q, q ≠ t → s'.bare q = s.bare q
  calledBy : ∀ q, q ≠ t → s'.calledBy q = s.calledBy q
  time : s'.OSTmrTime = s.OSTmrTime
  alarm : s'.alarm s.OSTmrTime t = a

theorem unused_iff (s : Timers) (now : BitVec 32) (t : TmrPtr) :
    (s.alarm now t).phase = .unused ↔ (s.bare t).OSTmrState = OS_TMR_STATE_UNUSED := by
  unfold Timers.alarm OS_TMR.alarm
  cases (s.bare t).OSTmrState <;> simp

theorem Moved.refl (h : Rep s spokes free) : Moved s spokes t s (s.alarm s.OSTmrTime t) :=
  ⟨⟨spokes, free, h, fun _ => .inl rfl⟩, fun _ _ => rfl, fun _ _ => rfl, rfl, rfl⟩

theorem Moved.trans {s₁ s₂ : Timers} {a₁ a₂ : Alarm} (h : Rep s spokes free) (h₁ : Moved s spokes t s₁ a₁)
    (h₂ : ∀ spokes₁ free₁, Rep s₁ spokes₁ free₁ → Moved s₁ spokes₁ t s₂ a₂) : Moved s spokes t s₂ a₂ := by
  obtain ⟨spokes₁, free₁, hr₁, hb₁⟩ := h₁.lists
  have h₂ := h₂ spokes₁ free₁ hr₁
  obtain ⟨spokes₂, free₂, hr₂, hb₂⟩ := h₂.lists
  refine ⟨⟨spokes₂, free₂, hr₂, fun i => (hb₁ i).trans (hb₂ i) (h.nodup i)⟩, fun q hq => ?_, fun q hq => ?_, ?_, ?_⟩
  · rw [h₂.bare q hq, h₁.bare q hq]
  · rw [h₂.calledBy q hq, h₁.calledBy q hq]
  · rw [h₂.time, h₁.time]
  · rw [← h₁.time]; exact h₂.alarm

theorem alarm_congr {s' : Timers} {q : TmrPtr} {now : BitVec 32} (hb : s'.bare q = s.bare q)
    (hc : s'.calledBy q = s.calledBy q) : s'.alarm now q = s.alarm now q := by
  rw [Timers.alarm, hb, hc]; rfl

theorem Moved.other {s' : Timers} {a : Alarm} (h : Moved s spokes t s' a) (now : BitVec 32) {q : TmrPtr} (hq : q ≠ t) :
    s'.alarm now q = s.alarm now q := alarm_congr (h.bare q hq) (h.calledBy q hq)

theorem Rep.moved_setTmr (h : Rep s spokes free) {tmr : OS_TMR} (hnext : tmr.OSTmrNext = s.next t)
    (hprev : tmr.OSTmrPrev = s.prev t) (hmatch : tmr.OSTmrMatch = (s.bare t).OSTmrMatch)
    (hrun : tmr.OSTmrState = OS_TMR_STATE_RUNNING ↔ (s.bare t).OSTmrState = OS_TMR_STATE_RUNNING)
    (hun : tmr.OSTmrState = OS_TMR_STATE_UNUSED ↔ (s.bare t).OSTmrState = OS_TMR_STATE_UNUSED) :
    Moved s spokes t (s.setTmr t tmr) (tmr.alarm s.OSTmrTime (s.calledBy t)) := by
  refine ⟨⟨spokes, free, h.setTmr hnext hprev hmatch hrun hun, fun _ => .inl rfl⟩, fun q hq => ?_, fun _ _ => rfl,
    rfl, ?_⟩
  · rw [bare_setTmr, update_of_ne hq]
  · rw [Timers.alarm, bare_setTmr, update_self]; rfl

theorem Rep.moved_link (h : Rep s spokes free) (type : LinkType)
    (hrun : (s.bare t).OSTmrState ≠ OS_TMR_STATE_RUNNING) (hun : (s.bare t).OSTmrState ≠ OS_TMR_STATE_UNUSED) :
    Moved s spokes t (OSTmr_Link s t type)
      { s.alarm s.OSTmrTime t with phase := .running (ticks (s.expires t type - s.OSTmrTime)) } := by
  have hl := OSTmr_Link_spec s t type
  have hcalled : ∀ q, (OSTmr_Link s t type).calledBy q = s.calledBy q := fun q => by
    rw [Timers.calledBy, hl.called]; rfl
  refine ⟨⟨_, free, h.link hl hrun hun, fun i => ?_⟩, fun q hq => ?_, fun q _ => hcalled q, hl.time, ?_⟩
  · by_cases hi : i = spokeOf (s.expires t type)
    · subst hi
      rw [update_self]
      exact .inr (.inr (by rw [List.erase_of_not_mem fun hm => hrun ((h.mem _ t).mp hm).1]))
    · rw [update_of_ne hi]; exact .inl rfl
  · rw [hl.bare, update_of_ne hq]
  · rw [Timers.alarm, hl.bare, update_self, hcalled]; rfl

theorem Rep.moved_unlink (h : Rep s spokes free) (hrun : (s.bare t).OSTmrState = OS_TMR_STATE_RUNNING) :
    ∃ s', OSTmr_Unlink s t = some s' ∧ Moved s spokes t s' { s.alarm s.OSTmrTime t with phase := .stopped } ∧
      Rep s' (fun i => (spokes i).erase t) free ∧
      s'.bare t = { s.bare t with OSTmrState := OS_TMR_STATE_STOPPED } := by
  obtain ⟨s', hs', hu, hr⟩ := h.unlink hrun
  have hcalled : ∀ q, s'.calledBy q = s.calledBy q := fun q => by rw [Timers.calledBy, hu.called]; rfl
  refine ⟨s', hs', ⟨⟨_, free, hr, fun i => .inr (.inl rfl)⟩, fun q hq => ?_, fun q _ => hcalled q, hu.time, ?_⟩, hr, ?_⟩
  · rw [hu.bare, update_of_ne hq]
  · rw [Timers.alarm, hu.bare, update_self, hcalled]; rfl
  · rw [hu.bare, update_self]

theorem Rep.moved_release (h : Rep s spokes free) (hrun : (s.bare t).OSTmrState ≠ OS_TMR_STATE_RUNNING)
    (hun : (s.bare t).OSTmrState ≠ OS_TMR_STATE_UNUSED) :
    Moved s spokes t (OSTmr_Free s t) { s.alarm s.OSTmrTime t with
      phase := .unused, period := 0, opt := OS_TMR_OPT_NONE, callback := none, arg := 0 } := by
  have hb : (OSTmr_Free s t).bare = _ := bare_setTmr ..
  refine ⟨⟨spokes, t :: free, h.release hrun hun, fun _ => .inl rfl⟩, fun q hq => ?_, fun _ _ => rfl, rfl, ?_⟩
  · rw [hb, update_of_ne hq]
  · rw [Timers.alarm, hb, update_self]; rfl

/-! ## One call -/

theorem expires_sub (s : Timers) (t : TmrPtr) : s.expires t OS_TMR_LINK_DLY - s.OSTmrTime =
    if (s.bare t).OSTmrDly = 0 then (s.bare t).OSTmrPeriod else (s.bare t).OSTmrDly := by
  unfold Timers.expires
  rw [if_neg (by decide)]
  split
  · next hd => rw [if_pos (show (s.bare t).OSTmrDly = 0 from hd), BitVec.add_sub_cancel]; rfl
  · next hd => rw [if_neg (show ¬(s.bare t).OSTmrDly = 0 from hd), BitVec.add_sub_cancel]; rfl

theorem Rep.moved_start (h : Rep s spokes free) (hrun : (s.bare t).OSTmrState ≠ OS_TMR_STATE_RUNNING)
    (hun : (s.bare t).OSTmrState ≠ OS_TMR_STATE_UNUSED) :
    Moved s spokes t (OSTmr_Link s t OS_TMR_LINK_DLY) (s.alarm s.OSTmrTime t).start := by
  have hl := h.moved_link OS_TMR_LINK_DLY hrun hun
  rw [expires_sub] at hl
  have hstart : (s.alarm s.OSTmrTime t).start = { s.alarm s.OSTmrTime t with
      phase := .running (ticks (if (s.bare t).OSTmrDly = 0 then (s.bare t).OSTmrPeriod else (s.bare t).OSTmrDly)) } := by
    unfold Alarm.start Timers.alarm OS_TMR.alarm
    cases hst : (s.bare t).OSTmrState with
    | OS_TMR_STATE_UNUSED => exact absurd hst hun
    | OS_TMR_STATE_RUNNING => exact absurd hst hrun
    | OS_TMR_STATE_STOPPED | OS_TMR_STATE_COMPLETED => rfl
  rwa [hstart]

theorem OSTmrStart_moved (h : Rep s spokes free) (n : ℕ) (t : TmrPtr) : ∃ r, OSTmrStart n s t = some r ∧
    Moved s spokes t r.s ((s.alarm s.OSTmrTime t).call n .OSTmrStart) := by
  unfold OSTmrStart Alarm.call
  split
  · exact ⟨_, rfl, .refl h⟩
  · rw [show (s.OSTmrTbl t).OSTmrState = (s.bare t).OSTmrState from rfl]
    cases hst : (s.bare t).OSTmrState with
    | OS_TMR_STATE_UNUSED =>
      have hsame : (s.alarm s.OSTmrTime t).start = s.alarm s.OSTmrTime t := by
        simp [Alarm.start, Timers.alarm, OS_TMR.alarm, hst]
      exact ⟨_, rfl, by rw [hsame]; exact .refl h⟩
    | OS_TMR_STATE_RUNNING =>
      obtain ⟨s₁, hs₁, hm, hr, hb⟩ := h.moved_unlink hst
      have hmoved : Moved s spokes t (OSTmr_Link s₁ t OS_TMR_LINK_DLY) (s₁.alarm s₁.OSTmrTime t).start :=
        hm.trans h fun _ _ hr => hr.moved_start (by simp [hb]) (by simp [hb])
      rw [hs₁]
      refine ⟨_, rfl, ?_⟩
      rw [hm.time, hm.alarm] at hmoved
      simpa [Alarm.start, Timers.alarm, OS_TMR.alarm, hst] using hmoved
    | OS_TMR_STATE_STOPPED | OS_TMR_STATE_COMPLETED =>
      exact ⟨_, rfl, h.moved_start (by rw [hst]; decide) (by rw [hst]; decide)⟩

theorem OSTmrDel_moved (h : Rep s spokes free) (n : ℕ) (t : TmrPtr) : ∃ r, OSTmrDel n s t = some r ∧
    Moved s spokes t r.s ((s.alarm s.OSTmrTime t).call n .OSTmrDel) := by
  unfold OSTmrDel Alarm.call
  split
  · exact ⟨_, rfl, .refl h⟩
  · rw [show (s.OSTmrTbl t).OSTmrState = (s.bare t).OSTmrState from rfl]
    cases hst : (s.bare t).OSTmrState with
    | OS_TMR_STATE_UNUSED =>
      have hsame : (s.alarm s.OSTmrTime t).del = s.alarm s.OSTmrTime t := by
        simp [Alarm.del, Timers.alarm, OS_TMR.alarm, hst]
      exact ⟨_, rfl, by rw [hsame]; exact .refl h⟩
    | OS_TMR_STATE_RUNNING =>
      obtain ⟨s₁, hs₁, hm, hr, hb⟩ := h.moved_unlink hst
      have hmoved := hm.trans h fun _ _ hr => hr.moved_release (by simp [hb]) (by simp [hb])
      rw [hs₁]
      refine ⟨_, rfl, ?_⟩
      rw [hm.time, hm.alarm] at hmoved
      simpa [Alarm.del, Timers.alarm, OS_TMR.alarm, hst] using hmoved
    | OS_TMR_STATE_STOPPED | OS_TMR_STATE_COMPLETED =>
      have hmoved := h.moved_release (by rw [hst]; decide) (by rw [hst]; decide)
      refine ⟨_, rfl, ?_⟩
      simpa [Alarm.del, Timers.alarm, OS_TMR.alarm, hst] using hmoved

theorem NST_SetTimer_moved (h : Rep s spokes free) (t : TmrPtr) (Value : BitVec 32) :
    Moved s spokes t (NST_SetTimer s t Value) ((s.alarm s.OSTmrTime t).set Value) := by
  unfold NST_SetTimer Alarm.set
  by_cases ho : (s.OSTmrTbl t).OSTmrOpt = OS_TMR_OPT_PERIODIC
  · rw [if_pos (show (s.alarm s.OSTmrTime t).opt = _ from ho)]
    dsimp only
    rw [if_pos ho.symm]
    exact h.moved_setTmr rfl rfl rfl Iff.rfl Iff.rfl
  · rw [if_neg (show (s.alarm s.OSTmrTime t).opt ≠ _ from ho)]
    dsimp only
    rw [if_neg (Ne.symm ho)]
    exact h.moved_setTmr rfl rfl rfl Iff.rfl Iff.rfl

/-! ## Callbacks -/

theorem called_moved (h : Rep s spokes free) (t : TmrPtr) (f arg : ℕ) :
    Rep { s with called := s.called ++ [(t, f, arg)] } spokes free ∧
      Moved s spokes t { s with called := s.called ++ [(t, f, arg)] }
        { s.alarm s.OSTmrTime t with called := s.calledBy t ++ [(f, arg)] } := by
  have hr : Rep { s with called := s.called ++ [(t, f, arg)] } spokes free :=
    ⟨h.links, h.backs, h.nodup, h.mem, h.entries, h.freeLinks, h.freeNodup, h.freeMem, h.counts⟩
  refine ⟨hr, ⟨spokes, free, hr, fun _ => .inl rfl⟩, fun _ _ => rfl, fun q hq => ?_, rfl, ?_⟩
  · simp [Timers.calledBy, Ne.symm hq]
  · simp [Timers.alarm, Timers.calledBy, OS_TMR.alarm, Timers.bare]

/-- Function `f` follows no null pointer and does to timer `t` what `g` does to
its alarm. -/
def Does (t : TmrPtr) (f : Timers → Option Timers) (g : Alarm → Alarm) : Prop :=
  ∀ s spokes free, Rep s spokes free → ∃ s', f s = some s' ∧ Moved s spokes t s' (g (s.alarm s.OSTmrTime t))

theorem Moved.then {s₁ : Timers} {a₁ : Alarm} {f : Timers → Option Timers} {g : Alarm → Alarm} (h : Rep s spokes free)
    (h₁ : Moved s spokes t s₁ a₁) (hf : Does t f g) : ∃ s', f s₁ = some s' ∧ Moved s spokes t s' (g a₁) := by
  obtain ⟨spokes₁, free₁, hr₁, -⟩ := h₁.lists
  obtain ⟨s', hs', -⟩ := hf s₁ spokes₁ free₁ hr₁
  refine ⟨s', hs', h₁.trans h fun spokes₂ free₂ hr₂ => ?_⟩
  obtain ⟨s'', hs'', hm⟩ := hf s₁ spokes₂ free₂ hr₂
  rw [hs'] at hs''
  obtain rfl := Option.some.inj hs''
  rwa [h₁.time, h₁.alarm] at hm

theorem OSTmrCallback_moved {does : Timers → Option Timers} {cs : List Call}
    (hdoes : Does t does fun a => cs.foldl (Alarm.call 0) a) (h : Rep s spokes free) (arg : ℕ) :
    ∃ s', OSTmrCallback s t arg does = some s' ∧ Moved s spokes t s' ((s.alarm s.OSTmrTime t).ring arg cs) := by
  unfold OSTmrCallback Alarm.ring
  have hcallback : (s.alarm s.OSTmrTime t).callback = (s.OSTmrTbl t).OSTmrCallback := rfl
  cases hf : (s.OSTmrTbl t).OSTmrCallback with
  | none =>
    rw [hf] at hcallback
    rw [hcallback]
    exact ⟨s, rfl, .refl h⟩
  | some f =>
    rw [hf] at hcallback
    have hthen := (called_moved h t f arg).2.then h hdoes
    simp only [hcallback] at hthen ⊢
    exact hthen

theorem OSTmrCallback_does {does : Timers → Option Timers} {cs : List Call}
    (hdoes : Does t does fun a => cs.foldl (Alarm.call 0) a) (arg : ℕ) :
    Does t (fun s => OSTmrCallback s t arg does) fun a => a.ring arg cs :=
  fun _ _ _ h => OSTmrCallback_moved hdoes h arg

theorem OSTmrStop_moved {does : Timers → Option Timers} {cs : List Call}
    (hdoes : Does t does fun a => cs.foldl (Alarm.call 0) a)
    (h : Rep s spokes free) (n : ℕ) (opt : TmrOpt) (arg : ℕ) : ∃ r, OSTmrStop n s t opt arg does = some r ∧
      Moved s spokes t r.s (if 0 < n then s.alarm s.OSTmrTime t else (s.alarm s.OSTmrTime t).cancel opt arg cs) := by
  unfold OSTmrStop
  split
  · exact ⟨_, rfl, .refl h⟩
  · dsimp only
    rw [show (s.OSTmrTbl t).OSTmrState = (s.bare t).OSTmrState from rfl]
    cases hst : (s.bare t).OSTmrState with
    | OS_TMR_STATE_UNUSED | OS_TMR_STATE_STOPPED | OS_TMR_STATE_COMPLETED =>
      have hsame : (s.alarm s.OSTmrTime t).cancel opt arg cs = s.alarm s.OSTmrTime t := by
        simp [Alarm.cancel, Timers.alarm, OS_TMR.alarm, hst]
      exact ⟨_, rfl, by rw [hsame]; exact .refl h⟩
    | OS_TMR_STATE_RUNNING =>
      obtain ⟨s₁, hs₁, hm, hr, hb⟩ := h.moved_unlink hst
      have hring : ∀ a, ∃ s', OSTmrCallback s₁ t a does = some s' ∧ Moved s spokes t s'
          ({ s.alarm s.OSTmrTime t with phase := .stopped }.ring a cs) := fun a =>
        hm.then h (OSTmrCallback_does hdoes a)
      have hphase : ∃ left, (s.alarm s.OSTmrTime t).phase = .running left :=
        ⟨ticks ((s.bare t).OSTmrMatch - s.OSTmrTime), by simp [Timers.alarm, OS_TMR.alarm, hst]⟩
      obtain ⟨left, hphase⟩ := hphase
      unfold Alarm.cancel
      rw [hphase, hs₁]
      cases opt with
      | OS_TMR_OPT_CALLBACK =>
        obtain ⟨s', hs', hm'⟩ := hring (s.OSTmrTbl t).OSTmrCallbackArg
        exact ⟨⟨s', true, _⟩, by rw [Option.bind_some, hs']; rfl, hm'⟩
      | OS_TMR_OPT_CALLBACK_ARG =>
        obtain ⟨s', hs', hm'⟩ := hring arg
        exact ⟨⟨s', true, _⟩, by rw [Option.bind_some, hs']; rfl, hm'⟩
      | OS_TMR_OPT_NONE | OS_TMR_OPT_ONE_SHOT | OS_TMR_OPT_PERIODIC => exact ⟨_, rfl, hm⟩

theorem call_moved (h : Rep s spokes free) (n : ℕ) (t : TmrPtr) (c : Call) : ∃ s', s.call n t c = some s' ∧
    Moved s spokes t s' ((s.alarm s.OSTmrTime t).call n c) := by
  cases c with
  | OSTmrStart =>
    obtain ⟨r, hr, hm⟩ := OSTmrStart_moved h n t
    exact ⟨r.s, by rw [Timers.call, hr]; rfl, hm⟩
  | OSTmrStop =>
    have hnone : Does t some fun a => [].foldl (Alarm.call 0) a := fun s _ _ h => ⟨s, rfl, .refl h⟩
    obtain ⟨r, hr, hm⟩ := OSTmrStop_moved hnone h n OS_TMR_OPT_NONE 0
    exact ⟨r.s, by rw [Timers.call, hr]; rfl, hm⟩
  | OSTmrDel =>
    obtain ⟨r, hr, hm⟩ := OSTmrDel_moved h n t
    exact ⟨r.s, by rw [Timers.call, hr]; rfl, hm⟩
  | NST_SetTimer Value => exact ⟨_, rfl, NST_SetTimer_moved h t Value⟩

theorem calls_does (t : TmrPtr) : ∀ cs, Does t (Timers.calls t cs) fun a => cs.foldl (Alarm.call 0) a
  | [] => fun s _ _ h => ⟨s, rfl, .refl h⟩
  | c :: cs => by
    intro s spokes free h
    obtain ⟨s₁, hs₁, hm⟩ := call_moved h 0 t c
    obtain ⟨s', hs', hm'⟩ := hm.then h (calls_does t cs)
    exact ⟨s', by rw [Timers.calls, hs₁]; exact hs', hm'⟩

end

end SerialNet.Tmr
