import SerialNet.Lwip.Timers
import SerialNet.Lib.Run

/-!
# The timers of the stack

Five timers of lwIP set themselves again after each call, the TCP timer does so
while there are connections. With the two timeouts of the application they share
a pool of eight blocks. `running` is the handler that is being called.
-/

namespace SerialNet.Lwip

inductive Handler
  | tcpipTcpTimer
  | ipReassTimer
  | arpTimer
  | dhcpTimerCoarse
  | dhcpTimerFine
  | dnsTimer
  | app (n : ℕ)
deriving DecidableEq

def tcpTmrInterval : BitVec 32 := 250
def ipTmrInterval : BitVec 32 := 1000
def arpTmrInterval : BitVec 32 := 5000
def dhcpCoarseTimerMsecs : BitVec 32 := 60 * 1000
def dhcpFineTimerMsecs : BitVec 32 := 500
def dnsTmrInterval : BitVec 32 := 1000

/-- The time after which a handler sets itself again, whatever happens. -/
def Handler.interval : Handler → Option (BitVec 32)
  | .ipReassTimer => some ipTmrInterval
  | .arpTimer => some arpTmrInterval
  | .dhcpTimerCoarse => some dhcpCoarseTimerMsecs
  | .dhcpTimerFine => some dhcpFineTimerMsecs
  | .dnsTimer => some dnsTmrInterval
  | .tcpipTcpTimer | .app _ => none

structure Stack where
  timeouts : Timeouts Handler
  tcpipTcpTimerActive : Bool
  running : Option Handler

def sysTimeoutsInit : Stack where
  timeouts :=
    sysTimeout (sysTimeout (sysTimeout (sysTimeout (sysTimeout noTimeouts ipTmrInterval .ipReassTimer)
      arpTmrInterval .arpTimer) dhcpCoarseTimerMsecs .dhcpTimerCoarse) dhcpFineTimerMsecs .dhcpTimerFine)
      dnsTmrInterval .dnsTimer
  tcpipTcpTimerActive := false
  running := none

/-- `tcp_timer_needed`; `pcbs` tells if there are active or waiting ones. -/
def tcpTimerNeeded (s : Stack) (pcbs : Bool) : Stack :=
  if s.tcpipTcpTimerActive = false ∧ pcbs then
    { s with tcpipTcpTimerActive := true, timeouts := sysTimeout s.timeouts tcpTmrInterval .tcpipTcpTimer }
  else s

def rearm (s : Stack) (h : Handler) (pcbs : Bool) : Stack :=
  match h with
  | .tcpipTcpTimer =>
    if pcbs then { s with timeouts := sysTimeout s.timeouts tcpTmrInterval .tcpipTcpTimer }
    else { s with tcpipTcpTimerActive := false }
  | h =>
    match h.interval with
    | some t => { s with timeouts := sysTimeout s.timeouts t h }
    | none => s

inductive StackEvent
  | sysTimeout (msecs : BitVec 32) (n : ℕ)
  | sysUntimeout (n : ℕ)
  | tcpTimerNeeded (pcbs : Bool)
  | fetched (timeNeeded : BitVec 32)
  | call
  | ret (pcbs : Bool)

def Stack.next (s : Stack) : Option Handler := s.timeouts.nextTimeout.head?.map SysTimeo.h

def Stack.step (s : Stack) : StackEvent → Stack
  | .sysTimeout msecs n => { s with timeouts := SerialNet.Lwip.sysTimeout s.timeouts msecs (.app n) }
  | .sysUntimeout n => { s with timeouts := SerialNet.Lwip.sysUntimeout s.timeouts (.app n) }
  | .tcpTimerNeeded pcbs => SerialNet.Lwip.tcpTimerNeeded s pcbs
  | .fetched timeNeeded =>
    match s.running with
    | none => { s with timeouts := SerialNet.Lwip.fetched s.timeouts timeNeeded }
    | some _ => s
  | .call =>
    match s.running with
    | none => { s with timeouts := expired s.timeouts, running := s.next }
    | some _ => s
  | .ret pcbs =>
    match s.running with
    | none => s
    | some h => { rearm s h pcbs with running := none }

/-! ## The pool -/

def Handler.isApp : Handler → Bool
  | .app _ => true
  | _ => false

def Stack.agenda (s : Stack) : Agenda Handler := s.timeouts.agenda

def apps (a : Agenda Handler) : ℕ := a.pending.countP fun p => p.2.isApp

/-- A timeout of the application is set only while it has fewer than two. -/
def StackEvent.Fits (s : Stack) : StackEvent → Prop
  | .sysTimeout _ _ => apps s.agenda < 2
  | _ => True

instance (s : Stack) (e : StackEvent) : Decidable (e.Fits s) := by
  cases e <;> unfold StackEvent.Fits <;> infer_instance

theorem length_pending (a : Agenda Handler) : a.pending.length = apps a + (a.times .tcpipTcpTimer).card +
    (a.times .ipReassTimer).card + (a.times .arpTimer).card + (a.times .dhcpTimerCoarse).card +
    (a.times .dhcpTimerFine).card + (a.times .dnsTimer).card := by
  unfold apps Agenda.times
  simp only [Multiset.coe_card, List.length_map]
  induction a.pending with
  | nil => rfl
  | cons p l ih =>
    rw [List.length_cons, ih]
    cases hp : p.2 <;> simp [hp, Handler.isApp] <;> omega

theorem apps_set (a : Agenda Handler) (cap d : ℕ) (h : Handler) :
    apps (a.set cap d h) ≤ apps a + if h.isApp then 1 else 0 := by
  unfold Agenda.set
  split
  · have hperm := (Agenda.perm_insert (a.now + d, h) a.pending).countP_eq fun p => p.2.isApp
    exact (hperm.trans (List.countP_cons ..)).le
  · exact Nat.le_add_right _ _

theorem apps_cancel (a : Agenda Handler) (h : Handler) : apps (a.cancel h) ≤ apps a :=
  List.eraseP_sublist.countP_le

theorem apps_expire (a : Agenda Handler) : apps a.expire ≤ apps a := by
  unfold Agenda.expire
  cases hp : a.pending with
  | nil => exact le_rfl
  | cons p rest => exact (List.sublist_cons_self p rest).countP_le.trans (by rw [apps, hp])

/-! ## The beats -/

def beats (t : BitVec 32) (k : ℕ) : List ℕ := (List.range k).map fun i => (i + 1) * t.toNat

theorem beats_succ (t : BitVec 32) (k : ℕ) : beats t (k + 1) = beats t k ++ [(k + 1) * t.toNat] := by
  simp [beats, List.range_succ]

/-- A timer that has been called `k` times and is due again, or is being called
for the `k`-th time. -/
structure Beats (a : Agenda Handler) (running : Option Handler) (h : Handler) (t : BitVec 32) (k : ℕ) : Prop where
  called : a.calledAt h = beats t k
  before : k * t.toNat ≤ a.now
  due : running ≠ some h → a.times h = {(k + 1) * t.toNat}
  calling : running = some h → a.times h = 0 ∧ a.now = k * t.toNat

structure OnTime (s : Stack) : Prop where
  good : s.agenda.Good
  within : s.agenda.Within (2 ^ 32)
  cyclic : ∀ h t, h.interval = some t → ∃ k, Beats s.agenda s.running h t k
  tcp : (s.agenda.times .tcpipTcpTimer).card =
    if s.tcpipTcpTimerActive = true ∧ s.running ≠ some .tcpipTcpTimer then 1 else 0
  tcpRuns : s.running = some .tcpipTcpTimer → s.tcpipTcpTimerActive = true
  apps : apps s.agenda ≤ 2

section
variable {s : Stack} {a : Agenda Handler} {running : Option Handler} {h : Handler} {t : BitVec 32} {k : ℕ}

theorem Beats.card_le (hb : Beats a running h t k) : (a.times h).card ≤ 1 := by
  by_cases hr : running = some h
  · rw [(hb.calling hr).1]; exact Nat.zero_le 1
  · rw [hb.due hr]; exact le_rfl

theorem OnTime.card_le (ho : OnTime s) (hh : h.isApp = false) : (s.agenda.times h).card ≤ 1 := by
  by_cases htcp : h = .tcpipTcpTimer
  · rw [htcp, ho.tcp]
    split <;> omega
  · have hsome : ∃ t, h.interval = some t := by cases h <;> simp_all [Handler.interval, Handler.isApp]
    obtain ⟨t, ht⟩ := hsome
    obtain ⟨k, hb⟩ := ho.cyclic h t ht
    exact hb.card_le

/-- A timer of the stack that has no timeout finds a block in the pool. -/
theorem OnTime.room (ho : OnTime s) (hh : h.isApp = false) (h0 : s.agenda.times h = 0) :
    s.agenda.pending.length < mempNumSysTimeout := by
  have hlen := length_pending s.agenda
  have happs := ho.apps
  have htcp := ho.card_le (h := .tcpipTcpTimer) rfl
  have hreass := ho.card_le (h := .ipReassTimer) rfl
  have harp := ho.card_le (h := .arpTimer) rfl
  have hcoarse := ho.card_le (h := .dhcpTimerCoarse) rfl
  have hfine := ho.card_le (h := .dhcpTimerFine) rfl
  have hdns := ho.card_le (h := .dnsTimer) rfl
  have hcard : (s.agenda.times h).card = 0 := by rw [h0]; rfl
  unfold mempNumSysTimeout
  cases h <;> first | (exfalso; exact Bool.noConfusion hh) | omega

/-- A change that leaves the entries and calls of a timer, and its time while it
is being called. -/
theorem Beats.of_same {a' : Agenda Handler} (hb : Beats a running h t k) (htimes : a'.times h = a.times h)
    (hcalled : a'.called = a.called) (hnow : a.now ≤ a'.now) (hsame : running = some h → a'.now = a.now) :
    Beats a' running h t k where
  called := by rw [Agenda.calledAt, hcalled]; exact hb.called
  before := hb.before.trans hnow
  due hr := by rw [htimes]; exact hb.due hr
  calling hr := by rw [htimes, hsame hr]; exact hb.calling hr

/-! ## Steps -/

theorem OnTime.of_same {s' : Stack} (ho : OnTime s) (hr : s'.running = s.running)
    (hact : s'.tcpipTcpTimerActive = s.tcpipTcpTimerActive) (hg : s'.agenda.Good) (hw : s'.agenda.Within (2 ^ 32))
    (htimes : ∀ h, h.isApp = false → s'.agenda.times h = s.agenda.times h) (hcalled : s'.agenda.called = s.agenda.called)
    (hnow : s.agenda.now ≤ s'.agenda.now) (hsame : s.running ≠ none → s'.agenda.now = s.agenda.now)
    (happs : SerialNet.Lwip.apps s'.agenda ≤ 2) : OnTime s' where
  good := hg
  within := hw
  cyclic h t ht := by
    obtain ⟨k, hb⟩ := ho.cyclic h t ht
    have happ : h.isApp = false := by cases h <;> simp_all [Handler.interval, Handler.isApp]
    rw [hr]
    exact ⟨k, hb.of_same (htimes h happ) hcalled hnow fun hrun => hsame (by rw [hrun]; exact Option.some_ne_none h)⟩
  tcp := by rw [htimes _ rfl, hr, hact]; exact ho.tcp
  tcpRuns := by rw [hr, hact]; exact ho.tcpRuns
  apps := happs

/-- The TCP timer is set, whether it was off or has just been called. -/
theorem OnTime.set_tcp (ho : OnTime s) (h0 : s.agenda.times .tcpipTcpTimer = 0) {s' : Stack}
    (htimeouts : s'.timeouts = sysTimeout s.timeouts tcpTmrInterval .tcpipTcpTimer)
    (hact : s'.tcpipTcpTimerActive = true) (hrun : s'.running ≠ some .tcpipTcpTimer)
    (hcyclic : ∀ h, h.interval ≠ none → (s'.running = some h ↔ s.running = some h)) : OnTime s' := by
  have hagenda : s'.agenda = s.agenda.set mempNumSysTimeout tcpTmrInterval.toNat .tcpipTcpTimer := by
    rw [Stack.agenda, htimeouts, agenda_sysTimeout]; rfl
  constructor
  · rw [hagenda]; exact ho.good.set
  · rw [hagenda]; exact ho.within.set (by decide)
  · intro h t ht
    obtain ⟨k, hb⟩ := ho.cyclic h t ht
    have hne : Handler.tcpipTcpTimer ≠ h := by rintro rfl; cases ht
    have hkept : Beats s'.agenda s.running h t k := by
      rw [hagenda]
      exact hb.of_same (Agenda.times_set_other hne) Agenda.called_set Agenda.now_set.ge fun _ => Agenda.now_set
    have hiff := hcyclic h (by rw [ht]; exact Option.some_ne_none t)
    exact ⟨k, hkept.called, hkept.before, fun hr => hkept.due (hiff.not.mp hr), fun hr => hkept.calling (hiff.mp hr)⟩
  · rw [hagenda, Agenda.times_set (ho.room rfl h0), h0, if_pos ⟨hact, hrun⟩]; rfl
  · exact fun _ => hact
  · rw [hagenda]
    exact (apps_set ..).trans ho.apps

theorem OnTime.step_sysTimeout (ho : OnTime s) {msecs : BitVec 32} {n : ℕ}
    (hfits : SerialNet.Lwip.apps s.agenda < 2) : OnTime (s.step (.sysTimeout msecs n)) := by
  have hagenda : (s.step (.sysTimeout msecs n)).agenda = s.agenda.set mempNumSysTimeout msecs.toNat (.app n) :=
    agenda_sysTimeout ..
  refine ho.of_same rfl rfl ?_ ?_ (fun h hh => ?_) ?_ ?_ (fun _ => ?_) ?_
  · rw [hagenda]; exact ho.good.set
  · rw [hagenda]; exact ho.within.set msecs.isLt
  · rw [hagenda]
    refine Agenda.times_set_other ?_
    rintro rfl
    cases hh
  · rw [hagenda, Agenda.called_set]
  · rw [hagenda, Agenda.now_set]
  · rw [hagenda, Agenda.now_set]
  · rw [hagenda]
    have hset := apps_set s.agenda mempNumSysTimeout msecs.toNat (.app n)
    rw [if_pos (show (Handler.app n).isApp = true from rfl)] at hset
    omega

theorem OnTime.step_sysUntimeout (ho : OnTime s) {n : ℕ} : OnTime (s.step (.sysUntimeout n)) := by
  have hagenda : (s.step (.sysUntimeout n)).agenda = s.agenda.cancel (.app n) :=
    agenda_step ho.within (.sysUntimeout (.app n))
  refine ho.of_same rfl rfl ?_ ?_ (fun h hh => ?_) ?_ ?_ (fun _ => ?_) ?_
  · rw [hagenda]; exact ho.good.cancel
  · rw [hagenda]; exact ho.within.cancel
  · rw [hagenda]
    refine Agenda.times_cancel_other ?_
    rintro rfl
    cases hh
  · rw [hagenda]; rfl
  · rw [hagenda]; rfl
  · rw [hagenda]; rfl
  · rw [hagenda]; exact (apps_cancel ..).trans ho.apps

theorem OnTime.step_tcpTimerNeeded (ho : OnTime s) {pcbs : Bool} : OnTime (s.step (.tcpTimerNeeded pcbs)) := by
  change OnTime (tcpTimerNeeded s pcbs)
  unfold tcpTimerNeeded
  split
  · next hoff =>
    have hrun : s.running ≠ some .tcpipTcpTimer := fun hr => by
      rw [ho.tcpRuns hr] at hoff
      exact Bool.noConfusion hoff.1
    have h0 : s.agenda.times .tcpipTcpTimer = 0 := by
      rw [← Multiset.card_eq_zero, ho.tcp, if_neg (by rw [hoff.1]; simp)]
    exact ho.set_tcp h0 rfl rfl hrun fun _ _ => Iff.rfl
  · exact ho

theorem OnTime.step_fetched (ho : OnTime s) {timeNeeded : BitVec 32} : OnTime (s.step (.fetched timeNeeded)) := by
  cases hr : s.running with
  | some h =>
    have hstep : s.step (.fetched timeNeeded) = s := by simp only [Stack.step, hr]
    rw [hstep]
    exact ho
  | none =>
    have hstep : s.step (.fetched timeNeeded) = { s with timeouts := fetched s.timeouts timeNeeded } := by
      simp only [Stack.step, hr]
    have hagenda : (s.step (.fetched timeNeeded)).agenda = s.agenda.wait timeNeeded.toNat := by
      rw [hstep]; exact agenda_fetched ..
    refine ho.of_same (by rw [hstep]) (by rw [hstep]) ?_ ?_ (fun h hh => ?_) ?_ ?_ (fun hne => absurd hr hne) ?_
    · rw [hagenda]; exact ho.good.wait
    · rw [hagenda]; exact ho.within.wait ho.good
    · rw [hagenda, Agenda.times, Agenda.wait_pending]; rfl
    · rw [hagenda, Agenda.wait_called]
    · rw [hagenda]; exact Agenda.le_now_wait ho.good
    · rw [hagenda, SerialNet.Lwip.apps, Agenda.wait_pending]; exact ho.apps

theorem OnTime.step_call (ho : OnTime s) : OnTime (s.step .call) := by
  cases hr : s.running with
  | some h =>
    have hstep : s.step .call = s := by simp only [Stack.step, hr]
    rw [hstep]
    exact ho
  | none =>
    have hstep : s.step .call = { s with timeouts := expired s.timeouts, running := s.next } := by
      simp only [Stack.step, hr]
    cases hl : s.timeouts.nextTimeout with
    | nil =>
      have hsame : s.step .call = s := by
        rw [hstep]
        simp [expired, Stack.next, hl, ← hr]
      rw [hsame]
      exact ho
    | cons x rest =>
      obtain ⟨p, l, hp, hpx⟩ : ∃ p l, s.agenda.pending = p :: l ∧ p.2 = x.h :=
        ⟨(s.timeouts.clock + x.time.toNat, x.h), _, by rw [Stack.agenda, Timeouts.agenda, hl, deadlines], rfl⟩
      have hagenda : (s.step .call).agenda = s.agenda.expire := by rw [hstep]; exact agenda_expired _
      have hrun : (s.step .call).running = some p.2 := by rw [hstep, hpx]; simp [Stack.next, hl]
      have hact : (s.step .call).tcpipTcpTimerActive = s.tcpipTcpTimerActive := by rw [hstep]
      obtain ⟨hfirst, hother⟩ := Agenda.times_expire hp
      have hnow : s.agenda.expire.now = p.1 := by rw [Agenda.expire, hp]
      have hle : s.agenda.now ≤ p.1 := ho.good.later p (by rw [hp]; exact List.mem_cons_self)
      constructor
      · rw [hagenda]; exact ho.good.expire
      · rw [hagenda]; exact ho.within.expire ho.good
      · intro h t ht
        obtain ⟨k, hb⟩ := ho.cyclic h t ht
        have hdue := hb.due (by rw [hr]; exact (Option.some_ne_none h).symm)
        have hcalled := Agenda.calledAt_expire hp h
        rw [hagenda, hrun]
        by_cases hh : p.2 = h
        · -- the timer that is called now
          rw [hh, hdue] at hfirst
          obtain ⟨hp1, hrest⟩ := (Multiset.singleton_eq_cons_iff _).mp hfirst
          refine ⟨k + 1, ?_, ?_, fun hne => absurd (congrArg some hh) hne, fun _ => ⟨hrest, ?_⟩⟩
          · rw [hcalled, if_pos hh, hb.called, beats_succ, hp1]
          · rw [hnow, hp1]
          · rw [hnow, hp1]
        · rw [if_neg hh, List.append_nil] at hcalled
          refine ⟨k, ?_, ?_, fun _ => ?_, fun heq => absurd (Option.some.inj heq) hh⟩
          · rw [hcalled]; exact hb.called
          · rw [hnow]; exact hb.before.trans hle
          · rw [hother h (Ne.symm hh)]; exact hdue
      · rw [hagenda, hrun, hact]
        have htcp := ho.tcp
        rw [hr] at htcp
        by_cases hh : p.2 = .tcpipTcpTimer
        · rw [hh] at hfirst ⊢
          rw [hfirst, Multiset.card_cons] at htcp
          rw [if_neg (by simp)]
          split at htcp <;> omega
        · rw [hother _ (Ne.symm hh), htcp]
          simp [hh]
      · rw [hrun, hact]
        intro heq
        rw [Option.some.inj heq] at hfirst
        have htcp := ho.tcp
        rw [hfirst, Multiset.card_cons] at htcp
        split at htcp
        · next hon => exact hon.1
        · omega
      · rw [hagenda]; exact (apps_expire _).trans ho.apps

theorem OnTime.idle (ho : OnTime s) (hr : s.running = some h) (hh : h.interval = none) {s' : Stack}
    (htimeouts : s'.timeouts = s.timeouts) (hr' : s'.running = none)
    (htcp : (s.agenda.times .tcpipTcpTimer).card = if s'.tcpipTcpTimerActive = true then 1 else 0) : OnTime s' := by
  have hagenda : s'.agenda = s.agenda := by rw [Stack.agenda, htimeouts]; rfl
  constructor
  · rw [hagenda]; exact ho.good
  · rw [hagenda]; exact ho.within
  · intro h' t ht
    obtain ⟨k, hb⟩ := ho.cyclic h' t ht
    have hne : s.running ≠ some h' := by
      intro heq
      rw [hr] at heq
      rw [← Option.some.inj heq, hh] at ht
      cases ht
    rw [hagenda]
    exact ⟨k, hb.called, hb.before, fun _ => hb.due hne, fun heq => by rw [hr'] at heq; cases heq⟩
  · rw [hagenda, htcp, hr']
    simp
  · intro heq
    rw [hr'] at heq
    cases heq
  · rw [hagenda]; exact ho.apps

theorem OnTime.again (ho : OnTime s) (hr : s.running = some h) (ht : h.interval = some t) {s' : Stack}
    (htimeouts : s'.timeouts = sysTimeout s.timeouts t h) (hr' : s'.running = none)
    (hact : s'.tcpipTcpTimerActive = s.tcpipTcpTimerActive) : OnTime s' := by
  have hagenda : s'.agenda = s.agenda.set mempNumSysTimeout t.toNat h := by
    rw [Stack.agenda, htimeouts, agenda_sysTimeout]; rfl
  have happ : h.isApp = false := by cases h <;> simp_all [Handler.interval, Handler.isApp]
  have htcpne : h ≠ .tcpipTcpTimer := by rintro rfl; cases ht
  obtain ⟨k, hb⟩ := ho.cyclic h t ht
  obtain ⟨h0, hnow⟩ := hb.calling hr
  constructor
  · rw [hagenda]; exact ho.good.set
  · rw [hagenda]; exact ho.within.set t.isLt
  · intro h' t' ht'
    by_cases heq : h' = h
    · subst heq
      obtain rfl : t' = t := Option.some.inj (ht'.symm.trans ht)
      rw [hagenda]
      refine ⟨k, ?_, ?_, fun _ => ?_, fun hrun => by rw [hr'] at hrun; cases hrun⟩
      · rw [Agenda.calledAt, Agenda.called_set]; exact hb.called
      · rw [Agenda.now_set]; exact hb.before
      · rw [Agenda.times_set (ho.room happ h0), h0, hnow, Nat.succ_mul]; rfl
    · obtain ⟨k', hb'⟩ := ho.cyclic h' t' ht'
      have hdue := hb'.due (by rw [hr]; exact fun hs => heq (Option.some.inj hs).symm)
      rw [hagenda]
      refine ⟨k', ?_, ?_, fun _ => ?_, fun hrun => by rw [hr'] at hrun; cases hrun⟩
      · rw [Agenda.calledAt, Agenda.called_set]; exact hb'.called
      · rw [Agenda.now_set]; exact hb'.before
      · rw [Agenda.times_set_other (Ne.symm heq)]; exact hdue
  · have htcp := ho.tcp
    rw [hr] at htcp
    rw [hagenda, Agenda.times_set_other htcpne, htcp, hact, hr']
    simp [htcpne]
  · intro heq
    rw [hr'] at heq
    cases heq
  · rw [hagenda]
    have hset := apps_set s.agenda mempNumSysTimeout t.toNat h
    rw [happ] at hset
    exact hset.trans ho.apps

theorem OnTime.step_ret (ho : OnTime s) {pcbs : Bool} : OnTime (s.step (.ret pcbs)) := by
  cases hr : s.running with
  | none =>
    have hstep : s.step (.ret pcbs) = s := by simp only [Stack.step, hr]
    rw [hstep]
    exact ho
  | some h =>
    have hstep : s.step (.ret pcbs) = { rearm s h pcbs with running := none } := by simp only [Stack.step, hr]
    rw [hstep]
    have htcp := ho.tcp
    rw [hr] at htcp
    cases h with
    | tcpipTcpTimer =>
      rw [if_neg (by simp)] at htcp
      cases pcbs with
      | true =>
        refine ho.set_tcp (Multiset.card_eq_zero.mp htcp) rfl (ho.tcpRuns hr) (by simp) fun h hh => ?_
        rw [hr]
        have hne : Handler.tcpipTcpTimer ≠ h := by
          rintro rfl
          exact hh rfl
        simp [hne]
      | false => exact ho.idle hr rfl rfl rfl htcp
    | app n =>
      refine ho.idle hr rfl rfl rfl (htcp.trans ?_)
      by_cases hact : s.tcpipTcpTimerActive = true <;> simp [rearm, Handler.interval, hact]
    | ipReassTimer | arpTimer | dhcpTimerCoarse | dhcpTimerFine | dnsTimer => exact ho.again hr rfl rfl rfl rfl

/-! ## Runs -/

theorem OnTime.step (ho : OnTime s) {e : StackEvent} (he : e.Fits s) : OnTime (s.step e) := by
  cases e with
  | sysTimeout msecs n => exact ho.step_sysTimeout he
  | sysUntimeout n => exact ho.step_sysUntimeout
  | tcpTimerNeeded pcbs => exact ho.step_tcpTimerNeeded
  | fetched timeNeeded => exact ho.step_fetched
  | call => exact ho.step_call
  | ret pcbs => exact ho.step_ret

theorem agenda_init : sysTimeoutsInit.agenda = ⟨0, [(500, .dhcpTimerFine), (1000, .ipReassTimer), (1000, .dnsTimer),
    (5000, .arpTimer), (60000, .dhcpTimerCoarse)], []⟩ := rfl

theorem onTime_init : OnTime sysTimeoutsInit := by
  constructor
  · rw [agenda_init]; exact ⟨by decide, by simp⟩
  · rw [agenda_init]
    unfold Agenda.Within
    decide
  · intro h t ht
    refine ⟨0, ?_, ?_, fun _ => ?_, fun hr => by cases hr⟩
    all_goals rw [agenda_init]
    · rfl
    · simp
    · cases h with
      | tcpipTcpTimer | app => cases ht
      | ipReassTimer | arpTimer | dhcpTimerCoarse | dhcpTimerFine | dnsTimer => obtain rfl := Option.some.inj ht; rfl
  · rw [agenda_init]; rfl
  · intro hr
    cases hr
  · rw [agenda_init]; decide

theorem onTime_run (es : List StackEvent) : ∀ {s : Stack}, OnTime s → Run.Meets Stack.step (fun s e => e.Fits s) s es →
    OnTime (Run.run Stack.step s es) :=
  fun ho h => Run.inv_of_meets (fun _ _ ho he => ho.step he) _ es ho h

end

end SerialNet.Lwip
