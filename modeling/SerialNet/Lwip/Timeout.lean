import Mathlib.Algebra.Order.Ring.Nat
import Mathlib.Tactic.SplitIfs

/-!
# The timeouts of the lwIP port

lwIP counts milliseconds, the kernel counts ticks of ten. A wait turns the one
into the other on the way in, and the ticks that went by into milliseconds on
the way out; both directions multiply in 32 bits before they divide.
-/

namespace SerialNet.Lwip

/-! ## The port -/

def osErrNone : UInt8 := 0
def osErrTimeout : UInt8 := 10
def osTicksPerSec : UInt32 := 100
def sysArchTimeout : UInt32 := 0xffffffff

/-- What the kernel answers during one call: the two clock readings, the pend's message and error code. -/
structure Answer where
  start : UInt32
  temp : UInt32
  ucErr : UInt8
  stop : UInt32
deriving DecidableEq, Repr

/-- What one call does: the count it hands to the pend, the message it stores and the milliseconds it returns. -/
structure Call where
  ticks : UInt32
  msg : UInt32
  ret : UInt32
deriving DecidableEq, Repr

/-- The count `_sys_arch_mbox_fetch` computes; the cast to `u16_t` is the call's. -/
def mboxTimeout (timeout : UInt32) : UInt32 :=
  if timeout ≠ 0 then
    let ucosTimeout := (timeout * osTicksPerSec) / 1000
    if ucosTimeout < 1 then 1 else if ucosTimeout > 65535 then 65535 else ucosTimeout
  else 0

def sysArchMboxFetch (pvNullPointer timeout : UInt32) (a : Answer) : Call where
  ticks := (mboxTimeout timeout).toUInt16.toUInt32
  msg := if a.temp = pvNullPointer then 0 else a.temp
  ret :=
    if a.ucErr = osErrTimeout then sysArchTimeout
    else
      let timeoutNew := if a.stop > a.start then a.stop - a.start else 0xffffffff - a.start + a.stop
      timeoutNew * 1000 / osTicksPerSec + 1

def semTimeout (timeout : UInt32) : UInt32 :=
  if timeout ≠ 0 then
    let ucosTimeout := (timeout * osTicksPerSec) / 1000
    if ucosTimeout < 1 then 1 else if ucosTimeout > 65536 then 65535 else ucosTimeout
  else 0

/-- `_sys_arch_sem_wait` passes no message on. -/
def sysArchSemWait (timeout : UInt32) (a : Answer) : Call where
  ticks := (semTimeout timeout).toUInt16.toUInt32
  msg := 0
  ret :=
    if a.ucErr = osErrTimeout then sysArchTimeout
    else
      let timeoutNew := if a.stop ≥ a.start then a.stop - a.start else 0xffffffff - a.start + a.stop
      timeoutNew * 1000 / osTicksPerSec + 1

/-! ## What a call is to do -/

def elapsed (a : Answer) : Nat := (a.stop - a.start).toNat

/-- The count handed over is the timeout in ticks, held inside what a pend can wait for. -/
def Converts (timeout : UInt32) (c : Call) : Prop :=
  1 ≤ c.ticks.toNat ∧ c.ticks.toNat ≤ 65535 ∧ c.ticks.toNat = min 65535 (max 1 (timeout.toNat / 10))

/-- A wait that ended early returns the milliseconds it took, and one more. -/
def Reports (a : Answer) (c : Call) : Prop :=
  a.ucErr ≠ osErrTimeout → 10 * elapsed a + 1 < 2 ^ 32 → c.ret.toNat = 10 * elapsed a + 1

/-- The product of the conversion stays inside 32 bits, or what is left of it still reads as too long. -/
def Scales (timeout : UInt32) : Prop :=
  timeout.toNat * 100 < 2 ^ 32 ∨ 65535000 ≤ timeout.toNat * 100 % 2 ^ 32

/-- The product of the way back stays inside 32 bits. -/
def Measures (a : Answer) : Prop := 1000 * elapsed a < 2 ^ 32

theorem elapsed_eq (a : Answer) : elapsed a = (2 ^ 32 - a.start.toNat + a.stop.toNat) % 2 ^ 32 := by
  rw [elapsed, UInt32.toNat_sub]

/-! ## The way in -/

theorem quotient_toNat (timeout : UInt32) :
    ((timeout * osTicksPerSec) / 1000).toNat = timeout.toNat * 100 % 2 ^ 32 / 1000 := by
  rw [UInt32.toNat_div, UInt32.toNat_mul]
  rfl

theorem toUInt16_toNat (n : UInt32) : n.toUInt16.toUInt32.toNat = n.toNat % 65536 := by
  simp

theorem mboxTimeout_toNat {timeout : UInt32} (h : timeout ≠ 0) :
    (mboxTimeout timeout).toNat = min 65535 (max 1 (timeout.toNat * 100 % 2 ^ 32 / 1000)) := by
  have hq := quotient_toNat timeout
  rw [mboxTimeout, if_pos h]
  simp only [UInt32.lt_iff_toNat_lt, gt_iff_lt, hq, UInt32.toNat_ofNat]
  split_ifs with h1 h2 <;> simp only [hq, UInt32.toNat_ofNat] at * <;> omega

theorem semTimeout_toNat {timeout : UInt32} (h : timeout ≠ 0) :
    (semTimeout timeout).toNat = if timeout.toNat * 100 % 2 ^ 32 / 1000 = 65536 then 65536
      else min 65535 (max 1 (timeout.toNat * 100 % 2 ^ 32 / 1000)) := by
  have hq := quotient_toNat timeout
  rw [semTimeout, if_pos h]
  simp only [UInt32.lt_iff_toNat_lt, gt_iff_lt, hq, UInt32.toNat_ofNat]
  split_ifs with h1 h2 <;> simp only [hq, UInt32.toNat_ofNat] at * <;> omega

/-- Either the product fits and the quotient is the timeout in ticks, or both are to be held at the bound. -/
theorem quotient_cases (t : Nat) : t * 100 < 2 ^ 32 ∧ t * 100 % 2 ^ 32 / 1000 = t / 10 ∨
    ¬ t * 100 < 2 ^ 32 ∧ 65535 ≤ t / 10 := by
  by_cases h : t * 100 < 2 ^ 32
  · refine Or.inl ⟨h, ?_⟩
    rw [Nat.mod_eq_of_lt h]
    exact Nat.mul_div_mul_right t 10 (by decide)
  · exact Or.inr ⟨h, by omega⟩

theorem converts_mbox {timeout : UInt32} (h : timeout ≠ 0) (pv : UInt32) (a : Answer) :
    Converts timeout (sysArchMboxFetch pv timeout a) ↔ Scales timeout := by
  have hc : (sysArchMboxFetch pv timeout a).ticks.toNat =
      min 65535 (max 1 (timeout.toNat * 100 % 2 ^ 32 / 1000)) := by
    rw [sysArchMboxFetch, toUInt16_toNat, mboxTimeout_toNat h]
    omega
  rw [Converts, Scales, hc]
  rcases quotient_cases timeout.toNat with ⟨hl, hq⟩ | ⟨hl, hb⟩
  · rw [hq]
    omega
  · omega

/-- The second port lets the count 65536 through, which the cast turns into none at all. -/
theorem converts_sem {timeout : UInt32} (h : timeout ≠ 0) (a : Answer) :
    Converts timeout (sysArchSemWait timeout a) ↔
      Scales timeout ∧ timeout.toNat * 100 % 2 ^ 32 / 1000 ≠ 65536 := by
  have hc : (sysArchSemWait timeout a).ticks.toNat =
      if timeout.toNat * 100 % 2 ^ 32 / 1000 = 65536 then 0
      else min 65535 (max 1 (timeout.toNat * 100 % 2 ^ 32 / 1000)) := by
    rw [sysArchSemWait, toUInt16_toNat, semTimeout_toNat h]
    split_ifs <;> omega
  rw [Converts, Scales, hc]
  rcases quotient_cases timeout.toNat with ⟨hl, hq⟩ | ⟨hl, hb⟩
  · rw [hq]
    split_ifs <;> omega
  · split_ifs <;> omega

/-! ## The way out -/

theorem back_toNat (n : UInt32) : (n * 1000 / osTicksPerSec + 1).toNat = n.toNat * 1000 % 2 ^ 32 / 100 + 1 := by
  have hn := n.toNat_lt
  have hq : (n * 1000 / osTicksPerSec).toNat = n.toNat * 1000 % 2 ^ 32 / 100 := by
    rw [UInt32.toNat_div, UInt32.toNat_mul]
    rfl
  rw [UInt32.toNat_add, hq, UInt32.toNat_one]
  omega

/-- The difference as written: right while the clock did not turn over, one tick short once it did. -/
theorem turned_toNat (a : Answer) (h : a.stop ≤ a.start) :
    (0xffffffff - a.start + a.stop).toNat = 2 ^ 32 - 1 - a.start.toNat + a.stop.toNat := by
  have hs := UInt32.le_iff_toNat_le.mp h
  have h0 := a.start.toNat_lt
  have h1 := a.stop.toNat_lt
  rw [UInt32.toNat_add, UInt32.toNat_sub]
  simp only [UInt32.toNat_ofNat]
  omega

/-- A difference taken the straight way is reported right exactly while its product fits. -/
theorem back_forward {n : Nat} {d : UInt32} (hd : d.toNat = n) :
    (10 * n + 1 < 2 ^ 32 → (d * 1000 / osTicksPerSec + 1).toNat = 10 * n + 1) ↔
      (10 * n + 1 < 2 ^ 32 → 1000 * n < 2 ^ 32) := by
  rw [back_toNat, hd]
  omega

/-- Taken the other way it is never reported right. -/
theorem back_turned (a : Answer) (h : a.stop ≤ a.start) :
    (10 * elapsed a + 1 < 2 ^ 32 →
      ((0xffffffff - a.start + a.stop) * 1000 / osTicksPerSec + 1).toNat = 10 * elapsed a + 1) ↔
      ¬ 10 * elapsed a + 1 < 2 ^ 32 := by
  have hs := UInt32.le_iff_toNat_le.mp h
  have h0 := a.start.toNat_lt
  have h1 := a.stop.toNat_lt
  rw [back_toNat, turned_toNat a h, elapsed_eq]
  omega

theorem reports_mbox (pv timeout : UInt32) (a : Answer) : Reports a (sysArchMboxFetch pv timeout a) ↔
    (a.ucErr ≠ osErrTimeout → 10 * elapsed a + 1 < 2 ^ 32 → a.start < a.stop ∧ Measures a) := by
  rw [Reports]
  refine imp_congr_right fun he => ?_
  simp only [sysArchMboxFetch, if_neg he, gt_iff_lt, Measures]
  by_cases h : a.start < a.stop
  · have hd : (a.stop - a.start).toNat = elapsed a := rfl
    rw [if_pos h, back_forward hd]
    simp only [h, true_and]
  · rw [if_neg h, back_turned a (UInt32.not_lt.mp h)]
    simp only [h, false_and, imp_false]

theorem reports_sem (timeout : UInt32) (a : Answer) : Reports a (sysArchSemWait timeout a) ↔
    (a.ucErr ≠ osErrTimeout → 10 * elapsed a + 1 < 2 ^ 32 → a.start ≤ a.stop ∧ Measures a) := by
  rw [Reports]
  refine imp_congr_right fun he => ?_
  simp only [sysArchSemWait, if_neg he, ge_iff_le, Measures]
  by_cases h : a.start ≤ a.stop
  · have hd : (a.stop - a.start).toNat = elapsed a := rfl
    rw [if_pos h, back_forward hd]
    simp only [h, true_and]
  · have h' := UInt32.le_of_lt (UInt32.not_le.mp h)
    rw [if_neg h, back_turned a h']
    simp only [h, false_and, imp_false]

/-- Both ports turn a timeout into the right count while the product fits, the second one save for
the count 65536; and they report an early end right when the clock moved forward between the
readings, the second one also when it stood still, by less than 4294968 ticks. -/
theorem timeout_conversion (timeout : UInt32) (h : timeout ≠ 0) (pv : UInt32) (a : Answer) :
    (Converts timeout (sysArchMboxFetch pv timeout a) ∧ Reports a (sysArchMboxFetch pv timeout a) ↔
      Scales timeout ∧
        (a.ucErr ≠ osErrTimeout → 10 * elapsed a + 1 < 2 ^ 32 → a.start < a.stop ∧ Measures a)) ∧
    (Converts timeout (sysArchSemWait timeout a) ∧ Reports a (sysArchSemWait timeout a) ↔
      (Scales timeout ∧ timeout.toNat * 100 % 2 ^ 32 / 1000 ≠ 65536) ∧
        (a.ucErr ≠ osErrTimeout → 10 * elapsed a + 1 < 2 ^ 32 → a.start ≤ a.stop ∧ Measures a)) :=
  ⟨and_congr (converts_mbox h pv a) (reports_mbox pv timeout a),
    and_congr (converts_sem h a) (reports_sem timeout a)⟩

/-- A wait of one second that a message ends after seven ticks. -/
theorem timeout_conversion_second :
    Converts 1000 (sysArchMboxFetch 0 1000 ⟨5, 1, osErrNone, 12⟩) ∧
      Reports ⟨5, 1, osErrNone, 12⟩ (sysArchMboxFetch 0 1000 ⟨5, 1, osErrNone, 12⟩) :=
  (timeout_conversion 1000 (by decide) 0 ⟨5, 1, osErrNone, 12⟩).1.mpr
    ⟨.inl (by decide), fun _ _ => ⟨by decide, by unfold Measures; decide⟩⟩

/-- A message that is already there, and a wait of 655360 milliseconds. -/
theorem zero_wait_misreported :
    (sysArchMboxFetch 0 1000 ⟨5, 1, osErrNone, 5⟩).ret = 42949663 ∧
      (sysArchSemWait 655360 ⟨5, 1, osErrNone, 12⟩).ticks = 0 ∧
      ¬ Reports ⟨5, 1, osErrNone, 5⟩ (sysArchMboxFetch 0 1000 ⟨5, 1, osErrNone, 5⟩) ∧
      ¬ Converts 655360 (sysArchSemWait 655360 ⟨5, 1, osErrNone, 12⟩) := by
  refine ⟨by decide, by decide, fun h => absurd (h (by decide) (by decide)) (by decide), ?_⟩
  intro h
  exact absurd h.1 (by decide)

end SerialNet.Lwip
