import SerialNet.Ucos.Timer
import Mathlib.Algebra.Order.Ring.Nat

/-!
# Alarms

An alarm is what a timer is for: it counts the ticks that are left and calls its
callback when there are none. `Step` is what an event does to sixteen of them,
each on its own. Over every run the timer wheel shows the same sixteen alarms.
-/

namespace SerialNet.Tmr

open Function

inductive Phase
  | unused
  | stopped
  | completed
  | running (left : ℕ)
deriving DecidableEq

structure Alarm where
  phase : Phase
  dly : BitVec 32
  period : BitVec 32
  opt : TmrOpt
  callback : Option ℕ
  arg : ℕ
  called : List (ℕ × ℕ)
deriving DecidableEq

/-- The ticks until a 32-bit clock has advanced by `d`: for no delay it has to
come round. -/
def ticks (d : BitVec 32) : ℕ := if d = 0 then 2 ^ 32 else d.toNat

namespace Alarm

def fresh : Alarm := ⟨.unused, 0, 0, OS_TMR_OPT_NONE, none, 0, []⟩

def start (a : Alarm) : Alarm :=
  match a.phase with
  | .unused => a
  | _ => { a with phase := .running (ticks (if a.dly = 0 then a.period else a.dly)) }

def stop (a : Alarm) : Alarm :=
  match a.phase with
  | .running _ => { a with phase := .stopped }
  | _ => a

def del (a : Alarm) : Alarm :=
  match a.phase with
  | .unused => a
  | _ => { a with phase := .unused, period := 0, opt := OS_TMR_OPT_NONE, callback := none, arg := 0 }

def set (a : Alarm) (Value : BitVec 32) : Alarm :=
  if a.opt = OS_TMR_OPT_PERIODIC then { a with period := timeValue Value, dly := 0 }
  else { a with period := 0, dly := timeValue Value }

/-- A call from a task, or from an interrupt if `n` is positive. -/
def call (n : ℕ) (a : Alarm) : Call → Alarm
  | .OSTmrStart => if 0 < n then a else a.start
  | .OSTmrStop => if 0 < n then a else a.stop
  | .OSTmrDel => if 0 < n then a else a.del
  | .NST_SetTimer Value => a.set Value

def ring (a : Alarm) (arg : ℕ) (does : List Call) : Alarm :=
  match a.callback with
  | none => a
  | some f => does.foldl (call 0) { a with called := a.called ++ [(f, arg)] }

def fire (a : Alarm) (does : List Call) : Alarm :=
  if a.opt = OS_TMR_OPT_PERIODIC then { a with phase := .running (ticks a.period) }.ring a.arg does
  else { a with phase := .completed }.ring a.arg does

def tick (a : Alarm) (does : List Call) : Alarm :=
  match a.phase with
  | .running left => if left = 1 then a.fire does else { a with phase := .running (left - 1) }
  | _ => a

def cancel (a : Alarm) (opt : TmrOpt) (callback_arg : ℕ) (does : List Call) : Alarm :=
  match a.phase with
  | .running _ =>
    match opt with
    | OS_TMR_OPT_CALLBACK => { a with phase := .stopped }.ring a.arg does
    | OS_TMR_OPT_CALLBACK_ARG => { a with phase := .stopped }.ring callback_arg does
    | _ => { a with phase := .stopped }
  | _ => a

def create (a : Alarm) (dly period : BitVec 32) (opt : TmrOpt) (callback : Option ℕ) (arg : ℕ) : Alarm :=
  ⟨.stopped, dly, period, opt, callback, arg, a.called⟩

def remain (a : Alarm) : BitVec 32 :=
  match a.phase with
  | .running left => BitVec.ofNat 32 left
  | .stopped => if a.opt = OS_TMR_OPT_PERIODIC ∧ a.dly = 0 then a.period else a.dly
  | .completed | .unused => 0

end Alarm

/-- What an event does to the alarms; a new one is any that is unused. -/
def Step (a a' : TmrPtr → Alarm) : Event → Prop
  | .OSTmrCreate n dly period opt callback callback_arg =>
    if 0 < n then a' = a
    else (∃ t, (a t).phase = .unused ∧ a' = update a t ((a t).create dly period opt callback callback_arg)) ∨
      (∀ t, (a t).phase ≠ .unused) ∧ a' = a
  | .call n t c => a' = update a t ((a t).call n c)
  | .OSTmrStop n t opt callback_arg does => a' = if 0 < n then a else update a t ((a t).cancel opt callback_arg does)
  | .OSTmr_Task does => a' = fun t => (a t).tick (does t)

def Steps (a : TmrPtr → Alarm) : List Event → (TmrPtr → Alarm) → Prop
  | [], a' => a' = a
  | e :: es, a' => ∃ b, Step a b e ∧ Steps b es a'

theorem ticks_one : ticks 1 = 1 := by decide

theorem ticks_succ {x : BitVec 32} (hx : x ≠ 0) : ticks (x + 1) = ticks x + 1 := by
  have hlt := x.isLt
  have hpos : x.toNat ≠ 0 := fun h => hx (BitVec.eq_of_toNat_eq h)
  have hsum : (x + 1).toNat = (x.toNat + 1) % 2 ^ 32 := BitVec.toNat_add x 1
  unfold ticks
  rw [if_neg hx]
  by_cases h0 : x + 1 = 0
  · rw [if_pos h0]
    rw [h0] at hsum
    change 0 = _ at hsum
    omega
  · have hne : (x + 1).toNat ≠ 0 := fun h => h0 (BitVec.eq_of_toNat_eq h)
    rw [if_neg h0, hsum]
    omega

theorem ticks_pos (x : BitVec 32) : 0 < ticks x := by
  unfold ticks
  split
  · decide
  · next hx => exact Nat.pos_of_ne_zero fun h => hx (BitVec.eq_of_toNat_eq h)

theorem ofNat_ticks (x : BitVec 32) : BitVec.ofNat 32 (ticks x) = x := by
  unfold ticks
  split
  · next hx => rw [hx]; rfl
  · exact BitVec.eq_of_toNat_eq (by rw [BitVec.toNat_ofNat, Nat.mod_eq_of_lt x.isLt])

/-! ## The beat of one timer -/

namespace Alarm

/-- An alarm that was started `n` ticks ago, to ring after `p`. -/
def after (a : Alarm) (f p n : ℕ) : Alarm :=
  if a.opt = OS_TMR_OPT_PERIODIC then
    { a with phase := .running (p - n % p), called := a.called ++ List.replicate (n / p) (f, a.arg) }
  else
    { a with
      phase := if n < p then .running (p - n) else .completed
      called := a.called ++ List.replicate (min 1 (n / p)) (f, a.arg) }

variable {a : Alarm} {f p : ℕ}

theorem ring_nil (hf : a.callback = some f) (arg : ℕ) : a.ring arg [] = { a with called := a.called ++ [(f, arg)] } := by
  unfold ring
  simp only [hf]
  rfl

theorem fire_nil (hf : a.callback = some f) : a.fire [] = { a with
    phase := if a.opt = OS_TMR_OPT_PERIODIC then .running (ticks a.period) else .completed
    called := a.called ++ [(f, a.arg)] } := by
  unfold fire
  split <;> exact ring_nil (by exact hf) a.arg

/-- The last tick of a period, and any other. -/
theorem succ_div_mod (hp : 0 < p) (n : ℕ) :
    (p - n % p = 1 ∧ (n + 1) / p = n / p + 1 ∧ (n + 1) % p = 0) ∨
      (p - n % p ≠ 1 ∧ (n + 1) / p = n / p ∧ (n + 1) % p = n % p + 1) := by
  have hlt := Nat.mod_lt n hp
  have hn := Nat.div_add_mod n p
  by_cases hr : n % p + 1 = p
  · have hsucc : n + 1 = p * (n / p + 1) := by rw [Nat.mul_succ]; omega
    refine .inl ⟨by omega, ?_, ?_⟩
    · rw [hsucc, Nat.mul_div_cancel_left _ hp]
    · rw [hsucc, Nat.mul_mod_right]
  · have hsucc : n + 1 = p * (n / p) + (n % p + 1) := by omega
    have hlt' : n % p + 1 < p := by omega
    refine .inr ⟨by omega, ?_, ?_⟩
    · rw [hsucc, Nat.mul_add_div hp, Nat.div_eq_of_lt hlt', Nat.add_zero]
    · rw [hsucc, Nat.mul_add_mod, Nat.mod_eq_of_lt hlt']

theorem tick_after (hf : a.callback = some f) (hp : 0 < p) (hper : a.opt = OS_TMR_OPT_PERIODIC → ticks a.period = p)
    (n : ℕ) : (a.after f p n).tick [] = a.after f p (n + 1) := by
  unfold after
  by_cases ho : a.opt = OS_TMR_OPT_PERIODIC
  · rw [if_pos ho, if_pos ho]
    unfold tick
    dsimp only
    rcases succ_div_mod hp n with ⟨hl, hdiv, hmod⟩ | ⟨hl, hdiv, hmod⟩
    · rw [if_pos hl, hdiv, hmod]
      refine (fire_nil (by exact hf)).trans ?_
      simp [ho, hper ho, List.replicate_succ']
    · rw [if_neg hl, hdiv, hmod, Nat.sub_sub]
  · rw [if_neg ho, if_neg ho]
    unfold tick
    dsimp only
    by_cases hn : n < p
    · rw [if_pos hn, Nat.div_eq_of_lt hn]
      dsimp only
      by_cases hl : p - n = 1
      · obtain rfl : p = n + 1 := by omega
        rw [if_pos hl, Nat.div_self hp]
        refine (fire_nil (by exact hf)).trans ?_
        simp [ho]
      · rw [if_neg hl, if_pos (by omega), Nat.div_eq_of_lt (by omega), Nat.sub_sub]
    · have hdiv : 1 ≤ n / p := Nat.div_pos (by omega) hp
      have hdiv' : 1 ≤ (n + 1) / p := Nat.div_pos (by omega) hp
      rw [if_neg hn, if_neg (by omega), Nat.min_eq_left hdiv, Nat.min_eq_left hdiv']

theorem after_used (a : Alarm) (f p n : ℕ) : (a.after f p n).phase ≠ .unused := by
  unfold after
  split
  · exact Phase.noConfusion
  · dsimp only
    split <;> exact Phase.noConfusion

end Alarm

/-- The event does not touch timer `t`, whose callback does nothing to it. -/
def Event.Spares (t : TmrPtr) : Event → Prop
  | .OSTmrCreate .. => True
  | .call _ t' _ => t' ≠ t
  | .OSTmrStop _ t' _ _ _ => t' ≠ t
  | .OSTmr_Task does => does t = []

instance (t : TmrPtr) (e : Event) : Decidable (e.Spares t) := by
  cases e <;> unfold Event.Spares <;> infer_instance

def Event.isTick : Event → Bool
  | .OSTmr_Task _ => true
  | _ => false

theorem Step.after {a : Alarm} {f p n : ℕ} {b b' : TmrPtr → Alarm} {e : Event} (hf : a.callback = some f) (hp : 0 < p)
    (hper : a.opt = OS_TMR_OPT_PERIODIC → ticks a.period = p) (hb : b t = a.after f p n) (he : e.Spares t)
    (h : Step b b' e) : b' t = a.after f p (n + if e.isTick then 1 else 0) := by
  cases e with
  | OSTmrCreate n dly period opt callback callback_arg =>
    unfold Step at h
    dsimp only at h
    split at h
    · rw [h]; exact hb
    · rcases h with ⟨t', hun, h⟩ | ⟨-, h⟩
      · have ht : t ≠ t' := by
          rintro rfl
          rw [hb] at hun
          exact Alarm.after_used a f p _ hun
        rw [h, update_of_ne ht]
        exact hb
      · rw [h]; exact hb
  | call n t' c =>
    rw [show b' = _ from h, update_of_ne (Ne.symm he)]
    exact hb
  | OSTmrStop n t' opt callback_arg does =>
    rw [show b' = _ from h]
    split
    · exact hb
    · rw [update_of_ne (Ne.symm he)]; exact hb
  | OSTmr_Task does =>
    rw [show b' = _ from h]
    change (b t).tick (does t) = _
    rw [show does t = [] from he, hb]
    exact Alarm.tick_after hf hp hper n

theorem Steps.after {a : Alarm} {f p : ℕ} (hf : a.callback = some f) (hp : 0 < p)
    (hper : a.opt = OS_TMR_OPT_PERIODIC → ticks a.period = p) :
    ∀ {es : List Event} {n : ℕ} {b b' : TmrPtr → Alarm}, (∀ e ∈ es, e.Spares t) → b t = a.after f p n →
      Steps b es b' → b' t = a.after f p (n + es.countP Event.isTick)
  | [], n, b, b', _, hb, h => by rw [show b' = b from h, hb]; rfl
  | e :: es, n, b, b', hes, hb, ⟨c, hc, h⟩ => by
    rw [List.forall_mem_cons] at hes
    have hstep := hc.after hf hp hper hb hes.1
    rw [Steps.after hf hp hper hes.2 hstep h, List.countP_cons, Nat.add_assoc, Nat.add_comm (List.countP _ es)]

theorem ticks_timeValue (Value : BitVec 32) : ticks (timeValue Value) = (timeValue Value).toNat ∧
    0 < (timeValue Value).toNat := by
  have hne : timeValue Value ≠ 0 := by
    unfold timeValue
    dsimp only
    split
    · decide
    · assumption
  have heq : ticks (timeValue Value) = (timeValue Value).toNat := if_neg hne
  exact ⟨heq, by rw [← heq]; exact ticks_pos _⟩

/-- An alarm that is set and started is at the beginning of its beat. -/
theorem Alarm.set_start {a : Alarm} (f : ℕ) (Value : BitVec 32) (huse : a.phase ≠ .unused) :
    (a.set Value).start = (a.set Value).after f (timeValue Value).toNat 0 := by
  obtain ⟨heq, hpos⟩ := ticks_timeValue Value
  have hne : timeValue Value ≠ 0 := fun h => by rw [h] at hpos; exact absurd hpos (by decide)
  unfold set
  split
  · next ho =>
    unfold start after
    cases hp : a.phase with
    | unused => exact absurd hp huse
    | stopped | completed | running => simp [ho, heq]
  · next ho =>
    unfold start after
    cases hp : a.phase with
    | unused => exact absurd hp huse
    | stopped | completed | running => simp [ho, heq, show ¬timeValue Value = 0#32 from hne, hpos]

end SerialNet.Tmr
