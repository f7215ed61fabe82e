import SerialNet.Lib.Agenda
import Mathlib.Algebra.Order.Ring.Nat

/-!
# The timeout list

`sys_timeout` keeps the timeouts in one list in which each holds the
milliseconds from the one before it. Read from a clock that counts what
`sys_timeouts_mbox_fetch` has waited, the list is an agenda of deadlines.
-/

namespace SerialNet.Lwip

def mempNumSysTimeout : ℕ := 8

structure SysTimeo (H : Type*) where
  time : BitVec 32
  h : H

/-- The timeout list, the clock and the handlers called so far, each with the
time of the call. -/
structure Timeouts (H : Type*) where
  nextTimeout : List (SysTimeo H)
  clock : ℕ
  called : List (ℕ × H)

section
variable {H : Type*}

/-! ## The list -/

/-- The loop of `sys_timeout`, from the timeout at its head. -/
def linkAfter (timeout : SysTimeo H) : List (SysTimeo H) → List (SysTimeo H)
  | [] => []
  | t :: rest =>
    let timeout := { timeout with time := timeout.time - t.time }
    match rest with
    | [] => [t, timeout]
    | n :: rest' =>
      if n.time > timeout.time then t :: timeout :: { n with time := n.time - timeout.time } :: rest'
      else t :: linkAfter timeout (n :: rest')

def link (timeout : SysTimeo H) : List (SysTimeo H) → List (SysTimeo H)
  | [] => [timeout]
  | n :: rest =>
    if n.time > timeout.time then timeout :: { n with time := n.time - timeout.time } :: rest
    else linkAfter timeout (n :: rest)

def unlink [DecidableEq H] (h : H) : List (SysTimeo H) → List (SysTimeo H)
  | [] => []
  | t :: rest =>
    if t.h = h then
      match rest with
      | [] => []
      | n :: rest' => { n with time := n.time + t.time } :: rest'
    else t :: unlink h rest

/-- Every timeout in the list has its block of the pool, and no other. -/
def sysTimeout (s : Timeouts H) (msecs : BitVec 32) (h : H) : Timeouts H :=
  if s.nextTimeout.length < mempNumSysTimeout then { s with nextTimeout := link ⟨msecs, h⟩ s.nextTimeout } else s

def sysUntimeout [DecidableEq H] (s : Timeouts H) (h : H) : Timeouts H :=
  { s with nextTimeout := unlink h s.nextTimeout }

/-- `sys_timeouts_mbox_fetch` when a message has come after `timeNeeded`. -/
def fetched (s : Timeouts H) (timeNeeded : BitVec 32) : Timeouts H :=
  match s.nextTimeout with
  | [] => { s with clock := s.clock + timeNeeded.toNat }
  | t :: rest =>
    if timeNeeded < t.time then
      { s with
        nextTimeout := { t with time := t.time - timeNeeded } :: rest
        clock := s.clock + timeNeeded.toNat }
    else
      { s with
        nextTimeout := { t with time := 0 } :: rest
        clock := s.clock + t.time.toNat }

/-- `sys_timeouts_mbox_fetch` when the time of the next timeout is over, up to
the call of its handler. -/
def expired (s : Timeouts H) : Timeouts H :=
  match s.nextTimeout with
  | [] => s
  | t :: rest =>
    { nextTimeout := rest
      clock := s.clock + t.time.toNat
      called := s.called ++ [(s.clock + t.time.toNat, t.h)] }

/-! ## Deadlines -/

def deadlines : ℕ → List (SysTimeo H) → List (ℕ × H)
  | _, [] => []
  | now, t :: rest => (now + t.time.toNat, t.h) :: deadlines (now + t.time.toNat) rest

def Timeouts.agenda (s : Timeouts H) : Agenda H := ⟨s.clock, deadlines s.clock s.nextTimeout, s.called⟩

@[simp] theorem length_deadlines : ∀ (now : ℕ) (l : List (SysTimeo H)), (deadlines now l).length = l.length
  | _, [] => rfl
  | now, t :: rest => by simp [deadlines, length_deadlines]

/-- A timeout that takes its time from the next one leaves the deadlines. -/
theorem deadlines_sub {n : SysTimeo H} {x : BitVec 32} (hx : x ≤ n.time) (now : ℕ) (rest : List (SysTimeo H)) :
    deadlines (now + x.toNat) ({ n with time := n.time - x } :: rest) = deadlines now (n :: rest) := by
  have hsub : now + x.toNat + (n.time - x).toNat = now + n.time.toNat := by
    have hle : x.toNat ≤ n.time.toNat := hx
    rw [BitVec.toNat_sub_of_le hx]
    omega
  simp only [deadlines, hsub]

theorem insert_before {p : ℕ × H} {now : ℕ} {n : SysTimeo H} {rest : List (SysTimeo H)} (h : p.1 < now + n.time.toNat) :
    Agenda.insert p (deadlines now (n :: rest)) = p :: deadlines now (n :: rest) := by
  rw [deadlines, Agenda.insert, List.orderedInsert_cons, if_pos h]

theorem insert_after {p : ℕ × H} {now : ℕ} {n : SysTimeo H} {rest : List (SysTimeo H)} (h : now + n.time.toNat ≤ p.1) :
    Agenda.insert p (deadlines now (n :: rest)) =
      (now + n.time.toNat, n.h) :: Agenda.insert p (deadlines (now + n.time.toNat) rest) := by
  rw [deadlines, Agenda.insert, List.orderedInsert_cons, if_neg (not_lt.mpr h)]
  rfl

theorem deadlines_linkAfter (h : H) : ∀ {rest : List (SysTimeo H)} {now : ℕ} {t : SysTimeo H} {x : BitVec 32},
    t.time ≤ x → deadlines now (linkAfter ⟨x, h⟩ (t :: rest)) =
      Agenda.insert (now + x.toNat, h) (deadlines now (t :: rest)) := by
  intro rest
  induction rest with
  | nil =>
    intro now t x hx
    have hle : t.time.toNat ≤ x.toNat := hx
    have hsub : now + t.time.toNat + (x - t.time).toNat = now + x.toNat := by
      rw [BitVec.toNat_sub_of_le hx]
      omega
    rw [insert_after (Nat.add_le_add_left hle now)]
    simp only [linkAfter, deadlines, hsub]
    rfl
  | cons n rest ih =>
    intro now t x hx
    have hle : t.time.toNat ≤ x.toNat := hx
    have hsub : now + t.time.toNat + (x - t.time).toNat = now + x.toNat := by
      rw [BitVec.toNat_sub_of_le hx]
      omega
    rw [insert_after (Nat.add_le_add_left hle now), linkAfter]
    dsimp only
    split
    · next hlt =>
      have hlt' : (x - t.time).toNat < n.time.toNat := hlt
      have hrest := deadlines_sub (BitVec.le_of_lt hlt) (now + t.time.toNat) rest
      rw [hsub] at hrest
      rw [insert_before (by dsimp only; omega), deadlines, deadlines, hsub, hrest]
    · next hnle =>
      rw [deadlines, ih (BitVec.not_lt.mp hnle), hsub]

theorem deadlines_link (now : ℕ) (msecs : BitVec 32) (h : H) (l : List (SysTimeo H)) :
    deadlines now (link ⟨msecs, h⟩ l) = Agenda.insert (now + msecs.toNat, h) (deadlines now l) := by
  cases l with
  | nil => rfl
  | cons n rest =>
    rw [link]
    dsimp only
    split
    · next hlt =>
      have hlt' : msecs.toNat < n.time.toNat := hlt
      rw [insert_before (Nat.add_lt_add_left hlt' now), deadlines, deadlines_sub (BitVec.le_of_lt hlt)]
    · next hnlt => exact deadlines_linkAfter h (BitVec.not_lt.mp hnlt)

theorem deadlines_unlink [DecidableEq H] (h : H) : ∀ {l : List (SysTimeo H)} {now : ℕ},
    (∀ p ∈ deadlines now l, p.1 < now + 2 ^ 32) →
    deadlines now (unlink h l) = (deadlines now l).eraseP fun p => p.2 = h
  | [], _, _ => rfl
  | t :: rest, now, hr => by
    unfold unlink
    split
    · next ht =>
      rw [deadlines, List.eraseP_cons_of_pos (by simpa using ht)]
      cases rest with
      | nil => rfl
      | cons n rest =>
        have hn := hr (now + t.time.toNat + n.time.toNat, n.h) (by simp [deadlines])
        have hadd : (n.time + t.time).toNat = t.time.toNat + n.time.toNat := by
          rw [BitVec.toNat_add, Nat.mod_eq_of_lt (by dsimp only at hn; omega), Nat.add_comm]
        simp only [deadlines, hadd, Nat.add_assoc]
    · next ht =>
      have hrest : ∀ p ∈ deadlines (now + t.time.toNat) rest, p.1 < now + t.time.toNat + 2 ^ 32 := fun p hp => by
        have := hr p (by rw [deadlines]; exact List.mem_cons_of_mem _ hp)
        omega
      rw [deadlines, deadlines, deadlines_unlink h hrest, List.eraseP_cons_of_neg (by simpa using ht)]

/-! ## Runs -/

inductive TimeoutEvent (H : Type*)
  | sysTimeout (msecs : BitVec 32) (h : H)
  | sysUntimeout (h : H)
  | fetched (timeNeeded : BitVec 32)
  | expired

def Timeouts.step [DecidableEq H] (s : Timeouts H) : TimeoutEvent H → Timeouts H
  | .sysTimeout msecs h => sysTimeout s msecs h
  | .sysUntimeout h => sysUntimeout s h
  | .fetched timeNeeded => fetched s timeNeeded
  | .expired => expired s

/-- The same on an agenda of deadlines. -/
def agendaStep [DecidableEq H] (a : Agenda H) : TimeoutEvent H → Agenda H
  | .sysTimeout msecs h => a.set mempNumSysTimeout msecs.toNat h
  | .sysUntimeout h => a.cancel h
  | .fetched timeNeeded => a.wait timeNeeded.toNat
  | .expired => a.expire

theorem agenda_sysTimeout (s : Timeouts H) (msecs : BitVec 32) (h : H) :
    (sysTimeout s msecs h).agenda = s.agenda.set mempNumSysTimeout msecs.toNat h := by
  unfold sysTimeout Agenda.set Timeouts.agenda
  simp only [length_deadlines]
  split
  · rw [← deadlines_link]
  · rfl

theorem agenda_fetched (s : Timeouts H) (timeNeeded : BitVec 32) :
    (fetched s timeNeeded).agenda = s.agenda.wait timeNeeded.toNat := by
  unfold fetched Agenda.wait Timeouts.agenda
  cases hl : s.nextTimeout with
  | nil => rfl
  | cons t rest =>
    dsimp only [deadlines]
    split
    · next hlt =>
      have hlt' : timeNeeded.toNat < t.time.toNat := hlt
      rw [deadlines_sub (BitVec.le_of_lt hlt), min_eq_left (by omega)]
      rfl
    · next hle =>
      have hle' : t.time.toNat ≤ timeNeeded.toNat := BitVec.not_lt.mp hle
      have hzero : deadlines (s.clock + t.time.toNat) ({ t with time := 0 } :: rest) = deadlines s.clock (t :: rest) := by
        have h := deadlines_sub (BitVec.le_refl t.time) s.clock rest
        rw [BitVec.sub_self] at h
        exact h
      rw [hzero, min_eq_right (by omega)]
      rfl

theorem agenda_expired (s : Timeouts H) : (expired s).agenda = s.agenda.expire := by
  unfold expired Agenda.expire Timeouts.agenda
  cases hl : s.nextTimeout with
  | nil => simp [deadlines, hl]
  | cons t rest => rfl

theorem agenda_step [DecidableEq H] {s : Timeouts H} (hw : s.agenda.Within (2 ^ 32)) (e : TimeoutEvent H) :
    (s.step e).agenda = agendaStep s.agenda e := by
  cases e with
  | sysTimeout msecs h => exact agenda_sysTimeout s msecs h
  | sysUntimeout h =>
    unfold Timeouts.step agendaStep sysUntimeout Timeouts.agenda Agenda.cancel
    rw [deadlines_unlink h hw]
  | fetched timeNeeded => exact agenda_fetched s timeNeeded
  | expired => exact agenda_expired s

theorem good_agendaStep [DecidableEq H] {a : Agenda H} (hg : a.Good) (hw : a.Within (2 ^ 32)) (e : TimeoutEvent H) :
    (agendaStep a e).Good ∧ (agendaStep a e).Within (2 ^ 32) := by
  cases e with
  | sysTimeout msecs h => exact ⟨hg.set, hw.set msecs.isLt⟩
  | sysUntimeout h => exact ⟨hg.cancel, hw.cancel⟩
  | fetched timeNeeded => exact ⟨hg.wait, hw.wait hg⟩
  | expired => exact ⟨hg.expire, hw.expire hg⟩

theorem agenda_run [DecidableEq H] (es : List (TimeoutEvent H)) :
    ∀ {s : Timeouts H}, s.agenda.Good → s.agenda.Within (2 ^ 32) →
      (es.foldl Timeouts.step s).agenda = es.foldl agendaStep s.agenda ∧ (es.foldl Timeouts.step s).agenda.Good ∧
        (es.foldl Timeouts.step s).agenda.Within (2 ^ 32) := by
  induction es with
  | nil => exact fun hg hw => ⟨rfl, hg, hw⟩
  | cons e es ih =>
    intro s hg hw
    have hstep := agenda_step hw e
    have hkept := good_agendaStep hg hw e
    rw [← hstep] at hkept
    have hrun := ih hkept.1 hkept.2
    rw [List.foldl_cons, List.foldl_cons, ← hstep]
    exact hrun

def noTimeouts : Timeouts H := ⟨[], 0, []⟩

theorem good_noTimeouts : (noTimeouts : Timeouts H).agenda.Good ∧ (noTimeouts : Timeouts H).agenda.Within (2 ^ 32) :=
  ⟨⟨List.Pairwise.nil, fun _ hp => absurd hp List.not_mem_nil⟩, fun _ hp => absurd hp List.not_mem_nil⟩

end

end SerialNet.Lwip
