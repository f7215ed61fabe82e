import SerialNet.Uart.Recv
import SerialNet.Lib.CStr
import SerialNet.Lib.Run

/-!
# Framing of AT command lines

The receiver as an automaton over bytes and consumed lines. `line` is what was
received since the last line end, whether it was kept or not.
-/

namespace SerialNet.Uart

open Patch hiding Holds
open CStr Run

structure Rx where
  uart : UartState
  line : List UInt8

inductive RxOp where
  | byte (b : UInt8)
  | consume

def Rx.zero : Rx := ⟨.zero, []⟩

def rxStep (env : Env) (r : Rx) : RxOp → Rx
  | .byte b => ⟨uartDataRecv env r.uart b, if b = lf then [] else r.line ++ [b]⟩
  | .consume => { r with uart := atThreadDone env r.uart }

/-! ## What is accepted, and when -/

/-- The line ends in a command and its CR, and the buffer holds the command with
a capital `A`. -/
def Accepted (line : List UInt8) (data : Nat → UInt8) : Prop :=
  ∃ pre a t tail c rest, line = pre ++ a :: t :: tail ++ [cr] ∧ isA a = true ∧ isT t = true ∧
    tail ++ [cr] = c :: rest ∧ (c = plus ∨ c = cr) ∧ Holds data 0 (65 :: t :: tail) ∧ tail.length + 2 ≤ 200

def LooksLikeCommand (s : UartState) : Prop :=
  isA (s.uartRecData 0) = true ∧ isT (s.uartRecData 1) = true ∧ (s.uartRecData 2 = plus ∨ s.uartRecData 2 = cr)

instance (s : UartState) : Decidable (LooksLikeCommand s) := inferInstanceAs (Decidable (_ ∧ _ ∧ _))

/-- A line end outside a command finds no command left in the buffer. -/
def NothingLeft (r : Rx) (b : UInt8) : Prop := b = lf → r.uart.recvStart = false → ¬LooksLikeCommand r.uart

/-- A line end that ends a command follows CR and finds no zero in it. -/
def EndsInCr (r : Rx) (b : UInt8) : Prop :=
  b = lf → r.uart.recvStart = true → LooksLikeCommand r.uart →
    r.line.getLast? = some cr ∧ 0 ∉ read r.uart.uartRecData 0 r.uart.uartRecLen

/-- A `T` taken for the second character follows its `A`. -/
def FollowsA (r : Rx) (b : UInt8) : Prop :=
  isT b = true → r.uart.recvStart = false → r.uart.uartRecLen = 1 → r.uart.uartRecData 0 = 65 →
    r.line.getLast?.any isA = true

instance (r : Rx) (b : UInt8) : Decidable (NothingLeft r b) := inferInstanceAs (Decidable (_ → _ → _))
instance (r : Rx) (b : UInt8) : Decidable (EndsInCr r b) := inferInstanceAs (Decidable (_ → _ → _ → _))
instance (r : Rx) (b : UInt8) : Decidable (FollowsA r b) := inferInstanceAs (Decidable (_ → _ → _ → _ → _))

/-- The steps the receiver handles as meant. -/
def Regular (r : Rx) : RxOp → Prop
  | .byte b => r.uart.uartRecvEnd = false → NothingLeft r b ∧ EndsInCr r b ∧ FollowsA r b
  | .consume => True

instance : ∀ r op, Decidable (Regular r op)
  | r, .byte b => inferInstanceAs (Decidable (r.uart.uartRecvEnd = false → NothingLeft r b ∧ EndsInCr r b ∧ FollowsA r b))
  | _, .consume => isTrue trivial

/-! ## The invariant -/

/-- A command is being collected: the buffer holds the tail of the line from its
`A` on. -/
structure Collecting (r : Rx) : Prop where
  first : r.uart.uartRecData 0 = 65
  bound : r.uart.uartRecLen ≤ 201
  tail : ∃ pre a t rest, r.line = pre ++ a :: t :: rest ∧ isA a = true ∧ isT t = true ∧
    r.uart.uartRecLen = rest.length + 2 ∧ read r.uart.uartRecData 1 (rest.length + 1) = t :: rest

structure RxInv (r : Rx) : Prop where
  writes : ∀ i ∈ r.uart.writes, i ≤ maxRecvBufferSize
  bound : r.uart.uartRecLen ≤ 201
  first : r.uart.uartRecData 0 ≠ 97
  pending : r.uart.uartRecvEnd = true → r.uart.recvStart = false
  idle : r.uart.recvStart = false → r.uart.uartRecvEnd = false → r.uart.uartRecLen ≤ 1
  collecting : r.uart.recvStart = true → r.uart.uartRecvEnd = false → Collecting r

section
variable {env : Env} {r : Rx} {b : UInt8}

theorem writes_snoc {s : UartState} {i : Nat} {c : UInt8} (h : ∀ i ∈ s.writes, i ≤ maxRecvBufferSize)
    (hi : i ≤ maxRecvBufferSize) : ∀ j ∈ (s.setRecData i c).writes, j ≤ maxRecvBufferSize := by
  intro j hj
  rcases List.mem_append.mp hj with hj | hj
  · exact h j hj
  · rw [List.mem_singleton.mp hj]; exact hi

theorem RxInv.outside {u : UartState} {line : List UInt8} (hw : ∀ i ∈ u.writes, i ≤ maxRecvBufferSize)
    (hfirst : u.uartRecData 0 ≠ 97) (hlen : u.uartRecLen ≤ 1) (hs : u.recvStart = false) : RxInv ⟨u, line⟩ where
  writes := hw
  bound := Nat.le_trans hlen (by decide)
  first := hfirst
  pending := fun _ => hs
  idle := fun _ _ => hlen
  collecting := fun h => absurd (hs.symm.trans h) Bool.false_ne_true

theorem RxInv.accepted {u : UartState} {line : List UInt8} (hw : ∀ i ∈ u.writes, i ≤ maxRecvBufferSize)
    (hfirst : u.uartRecData 0 ≠ 97) (hlen : u.uartRecLen ≤ 201) (hs : u.recvStart = false)
    (hend : u.uartRecvEnd = true) : RxInv ⟨u, line⟩ where
  writes := hw
  bound := hlen
  first := hfirst
  pending := fun _ => hs
  idle := fun _ h => absurd (h.symm.trans hend) Bool.false_ne_true
  collecting := fun h => absurd (hs.symm.trans h) Bool.false_ne_true

theorem RxInv.inside {u : UartState} {line : List UInt8} (hw : ∀ i ∈ u.writes, i ≤ maxRecvBufferSize)
    (hend : u.uartRecvEnd = false) (hs : u.recvStart = true) (hc : Collecting ⟨u, line⟩) : RxInv ⟨u, line⟩ where
  writes := hw
  bound := hc.bound
  first := by rw [show u.uartRecData 0 = 65 from hc.first]; decide
  pending := fun h => absurd (hend.symm.trans h) Bool.false_ne_true
  idle := fun h => absurd (h.symm.trans hs) Bool.false_ne_true
  collecting := fun _ _ => hc

theorem isT_ne_cr {c : UInt8} (h : isT c = true) : c ≠ cr := by
  rintro rfl
  cases h

/-! ## Collecting a character -/

theorem findPrefix_A {s : UartState} (hA : isA (s.uartRecData s.uartRecLen) = true) :
    findPrefix s = { s.setRecData 0 65 with uartRecLen := 0 } := by
  simp [findPrefix, hA, UartState.setRecData]

theorem findPrefix_other {s : UartState} (hA : isA (s.uartRecData s.uartRecLen) = false)
    (ha : s.uartRecData 0 ≠ 97) :
    findPrefix s =
      if s.uartRecLen = 1 ∧ isT (s.uartRecData 1) = true ∧ s.uartRecData 0 = 65 then { s with recvStart := true }
      else { s with uartRecLen := 0 } := by
  simp only [findPrefix, hA, Bool.false_eq_true, if_false, Bool.or_eq_true, Bool.and_eq_true, beq_iff_eq, ha, or_false,
    and_assoc]

theorem findPrefix_end (s : UartState) : (findPrefix s).uartRecvEnd = s.uartRecvEnd := by
  unfold findPrefix
  cases hA : isA (s.uartRecData s.uartRecLen)
  all_goals simp only [Bool.false_eq_true, if_false, if_true]
  all_goals split
  all_goals rfl

theorem atCollect_end {s : UartState} (hend : s.uartRecvEnd = false) : (atCollect s b).uartRecvEnd = false := by
  unfold atCollect
  cases hs : s.recvStart
  all_goals simp only [UartState.setRecData_start, hs, Bool.false_eq_true, if_false, if_true]
  all_goals split
  all_goals simp [findPrefix_end, hend]

/-- A character outside a command keeps the receiver outside, or completes a prefix. -/
theorem inv_collect_idle (hi : RxInv r) (hr : Regular r (.byte b)) (hend : r.uart.uartRecvEnd = false)
    (hidle : r.uart.recvStart = false) : RxInv ⟨atCollect r.uart b, r.line ++ [b]⟩ := by
  have hlen := hi.idle hidle hend
  have hmax : r.uart.uartRecLen ≤ maxRecvBufferSize := Nat.le_trans hlen (by decide)
  have hw := writes_snoc (c := b) hi.writes hmax
  have hself : Function.update r.uart.uartRecData r.uart.uartRecLen b r.uart.uartRecLen = b := Function.update_self ..
  unfold atCollect
  simp only [UartState.setRecData_start, hidle, Bool.false_eq_true, if_false]
  cases hA : isA b with
  | true =>
    -- an `A` restarts the prefix
    rw [findPrefix_A (by simpa using hA)]
    exact .outside (writes_snoc (c := 65) hw (Nat.zero_le _)) (by simp) (Nat.le_refl 1) hidle
  | false =>
    have hfirst : Function.update r.uart.uartRecData r.uart.uartRecLen b 0 ≠ 97 := by
      by_cases h0 : r.uart.uartRecLen = 0
      · rw [h0, Function.update_self]
        rintro rfl
        cases hA
      · rw [Function.update_of_ne (by omega)]
        exact hi.first
    rw [findPrefix_other (by simpa using hA) hfirst]
    split
    · -- the second character: by regularity it follows its `A`
      rename_i hT
      obtain ⟨hone, hT, h65⟩ := hT
      have hone : r.uart.uartRecLen = 1 := hone
      rw [UartState.setRecData_data, hone, Function.update_self] at hT
      rw [UartState.setRecData_data, hone, Function.update_of_ne (by decide)] at h65
      obtain ⟨a, hlast, ha⟩ := (Option.any_eq_true ..).mp ((hr hend).2.2 hT hidle hone h65)
      obtain ⟨pre, hline⟩ := List.getLast?_eq_some_iff.mp hlast
      simp only [UartState.setRecData_len, hone, show ¬1 > 200 by decide, if_false]
      refine .inside (by simpa [hone] using hw) hend rfl ⟨?_, show 2 ≤ 201 by decide, pre, a, b, [], ?_, ha, hT, rfl, ?_⟩
      · simpa [hone] using h65
      · rw [hline]; simp
      · simp [read_succ]
    · exact .outside hw hfirst (Nat.le_refl 1) hidle

theorem inv_collect (hi : RxInv r) (hend : r.uart.uartRecvEnd = false) (hstart : r.uart.recvStart = true) :
    RxInv ⟨atCollect r.uart b, r.line ++ [b]⟩ := by
  obtain ⟨hfirst, hbound, pre, a, t, rest, hline, ha, ht, hlen, hread⟩ := hi.collecting hstart hend
  have hw : ∀ j ∈ (r.uart.setRecData r.uart.uartRecLen b).writes, j ≤ maxRecvBufferSize :=
    writes_snoc hi.writes (by unfold maxRecvBufferSize; omega)
  have hzero : Function.update r.uart.uartRecData r.uart.uartRecLen b 0 = 65 := by
    rw [Function.update_of_ne (by omega), hfirst]
  have hnext : read (Function.update r.uart.uartRecData r.uart.uartRecLen b) 1 (rest.length + 1 + 1) =
      t :: (rest ++ [b]) := by
    have hkeep : read (Function.update r.uart.uartRecData r.uart.uartRecLen b) 1 (rest.length + 1) = t :: rest := by
      rw [← hread]
      exact read_congr fun i hi => Function.update_of_ne (by omega) _ _
    rw [read_add, hkeep, show 1 + (rest.length + 1) = r.uart.uartRecLen by omega]
    simp [read_succ]
  unfold atCollect
  simp only [UartState.setRecData_start, hstart, if_true]
  split
  · exact .outside hw (fun h => absurd (hzero.symm.trans h) (by decide)) (Nat.zero_le 1) rfl
  · rename_i hle
    have hle' : r.uart.uartRecLen ≤ 200 := Nat.le_of_not_lt hle
    refine .inside hw hend rfl ⟨hzero, Nat.succ_le_succ hle', pre, a, t, rest ++ [b], ?_, ha, ht, ?_, ?_⟩
    · rw [hline]; simp
    · simp [hlen]
    · rw [List.length_append]; exact hnext

/-! ## The line end -/

theorem looksLikeCommand_iff {s : UartState} :
    LooksLikeCommand s ↔ (isA (s.uartRecData 0) && isT (s.uartRecData 1)) = true ∧
      (s.uartRecData 2 == plus || s.uartRecData 2 == cr) = true := by
  simp [LooksLikeCommand, and_assoc]

theorem atLineEnd_command {s : UartState} (h : LooksLikeCommand s) (h1 : 1 ≤ s.uartRecLen) (h2 : s.uartRecLen ≤ 201) :
    atLineEnd s =
      ({ s with uartRecLen := s.uartRecLen - 1, uartRecvEnd := true, recvStart := false }).setRecData
        (s.uartRecLen - 1) 0 := by
  obtain ⟨hAT, hplus⟩ := looksLikeCommand_iff.mp h
  have hdec : (s.uartRecLen + (2 ^ 32 - 1)) % 2 ^ 32 = s.uartRecLen - 1 := by omega
  simp only [atLineEnd, hAT, hplus, if_true, hdec]

theorem inv_lineEnd_other (hi : RxInv r) (hend : r.uart.uartRecvEnd = false) (h : ¬LooksLikeCommand r.uart) :
    RxInv ⟨atLineEnd r.uart, []⟩ ∧ (atLineEnd r.uart).uartRecvEnd = false := by
  rw [looksLikeCommand_iff] at h
  unfold atLineEnd
  cases hAT : isA (r.uart.uartRecData 0) && isT (r.uart.uartRecData 1) with
  | true =>
    simp only [if_true]
    rw [if_neg fun hp => h ⟨hAT, hp⟩]
    exact ⟨.outside hi.writes hi.first (Nat.zero_le 1) rfl, hend⟩
  | false =>
    have hidle : r.uart.recvStart = false := by
      cases hs : r.uart.recvStart with
      | false => rfl
      | true =>
        obtain ⟨hfirst, _, _, _, t, rest, _, _, ht, _, hread⟩ := hi.collecting hs hend
        have h1 : r.uart.uartRecData 1 = t := (List.cons.inj hread).1
        rw [hfirst, h1, ht] at hAT
        cases hAT
    exact ⟨.outside hi.writes hi.first (hi.idle hidle hend) hidle, hend⟩

/-- A line end accepts a collected command that ends in CR. -/
theorem accept_lineEnd (hi : RxInv r) (hend : r.uart.uartRecvEnd = false) (hstart : r.uart.recvStart = true)
    (hlook : LooksLikeCommand r.uart) (hcr : r.line.getLast? = some cr)
    (hnz : 0 ∉ read r.uart.uartRecData 0 r.uart.uartRecLen) :
    RxInv ⟨atLineEnd r.uart, []⟩ ∧ Accepted r.line (atLineEnd r.uart).uartRecData := by
  obtain ⟨hfirst, hbound, pre, a, t, rest, hline, ha, ht, hlen, hread⟩ := hi.collecting hstart hend
  have hne : rest ≠ [] := by
    rintro rfl
    rw [hline] at hcr
    simp only [List.getLast?_append_cons, List.getLast?_cons_cons, List.getLast?_singleton, Option.some.injEq] at hcr
    exact (isT_ne_cr ht) hcr
  obtain ⟨tail, c, rfl⟩ : ∃ tail c, rest = tail ++ [c] := ⟨_, _, (List.dropLast_append_getLast hne).symm⟩
  have hline' : r.line = pre ++ a :: t :: tail ++ [c] := by rw [hline]; simp
  rw [hline', List.getLast?_concat, Option.some.injEq] at hcr
  subst hcr
  obtain ⟨c, rest', hcons⟩ := List.exists_cons_of_ne_nil hne
  rw [List.length_append, List.length_singleton] at hlen hread
  have hthird : r.uart.uartRecData 2 = c := by
    rw [hcons] at hread
    exact (List.cons.inj (List.cons.inj hread).2).1
  rw [atLineEnd_command hlook (by omega) hbound]
  have hidx : r.uart.uartRecLen - 1 = tail.length + 2 := by omega
  have hkeep : ∀ i, i < r.uart.uartRecLen - 1 →
      Function.update r.uart.uartRecData (r.uart.uartRecLen - 1) 0 i = r.uart.uartRecData i := fun i hi =>
    Function.update_of_ne (by omega) _ _
  have hchars : read r.uart.uartRecData 0 (tail.length + 2) = 65 :: t :: tail := by
    have htail : read r.uart.uartRecData 1 (tail.length + 1) = t :: tail := by
      have := congrArg (List.take (tail.length + 1)) hread
      rwa [take_read, Nat.min_eq_left (by omega), List.take_succ_cons, List.take_left] at this
    rw [read_succ, hfirst, Nat.zero_add, htail]
  rw [hidx] at hkeep ⊢
  have hchars' : read (Function.update r.uart.uartRecData (tail.length + 2) 0) 0 (tail.length + 2) = 65 :: t :: tail :=
    (read_congr fun i hi => hkeep _ (by omega)).trans hchars
  refine ⟨.accepted ?_ ?_ ?_ rfl rfl, pre, a, t, tail, c, rest', hline', ha, ht, hcons, ?_, ⟨?_, ?_, ?_⟩, ?_⟩
  · exact writes_snoc (s := { r.uart with uartRecLen := _, uartRecvEnd := true, recvStart := false }) hi.writes
      (by unfold maxRecvBufferSize; omega)
  · have := hkeep 0 (by omega)
    rw [hfirst] at this
    exact fun h => absurd (this.symm.trans h) (by decide)
  · show tail.length + 2 ≤ 201
    omega
  · rw [← hthird]
    exact hlook.2.2
  · exact hchars'
  · rw [← hchars]
    intro h0
    refine hnz ?_
    rw [hlen, show tail.length + 1 + 2 = tail.length + 2 + 1 by omega, read_add]
    exact List.mem_append_left _ h0
  · exact (congrArg _ (Nat.zero_add _)).trans (Function.update_self ..)
  · omega

/-! ## Runs -/

theorem uartDataRecv_at (henv : env.atMode = atMode) (s : UartState) (b : UInt8) : uartDataRecv env s b = atRecv s b := by
  simp [uartDataRecv, henv, atMode, dataMode]

/-- What one step does: the invariant holds after it, and a command becomes
ready only at a line end that accepts it. -/
theorem rx_step (henv : env.atMode = atMode) {op : RxOp} (hi : RxInv r) (hr : Regular r op) :
    RxInv (rxStep env r op) ∧
      (r.uart.uartRecvEnd = false → (rxStep env r op).uart.uartRecvEnd = true →
        op = .byte lf ∧ Accepted r.line (rxStep env r op).uart.uartRecData) := by
  cases op with
  | consume =>
    cases hend : r.uart.uartRecvEnd with
    | false =>
      have hsame : atThreadDone env r.uart = r.uart := by simp [atThreadDone, hend]
      simp only [rxStep, hsame]
      exact ⟨hi, fun _ h => absurd (hend.symm.trans h) Bool.false_ne_true⟩
    | true =>
      have hdone : atThreadDone env r.uart =
          { r.uart with
            uartRecLen := 0, uartRecvEnd := false, uartRecData := zeroMem r.uart.uartRecData maxRecvBufferSize } := by
        simp [atThreadDone, hend, henv]
      simp only [rxStep, hdone]
      exact ⟨.outside hi.writes (by simp [zeroMem]) (Nat.zero_le 1) (hi.pending hend), fun h => by cases h⟩
  | byte b =>
    simp only [rxStep, uartDataRecv_at henv]
    cases hend : r.uart.uartRecvEnd with
    | true =>
      -- a pending line: the byte is dropped
      have hdrop : atRecv r.uart b = r.uart := by simp [atRecv, hend]
      rw [hdrop]
      exact ⟨.accepted hi.writes hi.first hi.bound (hi.pending hend) hend, fun h => by cases h⟩
    | false =>
      by_cases hb : b = lf
      · subst hb
        have hrecv : atRecv r.uart lf = atLineEnd r.uart := by simp [atRecv, hend]
        rw [hrecv, if_pos rfl]
        by_cases hlook : LooksLikeCommand r.uart
        · cases hstart : r.uart.recvStart with
          | false => exact absurd hlook ((hr hend).1 rfl hstart)
          | true =>
            obtain ⟨hcr, hnz⟩ := (hr hend).2.1 rfl hstart hlook
            obtain ⟨hinv, hacc⟩ := accept_lineEnd hi hend hstart hlook hcr hnz
            exact ⟨hinv, fun _ _ => ⟨rfl, hacc⟩⟩
        · obtain ⟨hinv, hnot⟩ := inv_lineEnd_other hi hend hlook
          exact ⟨hinv, fun _ h => absurd (hnot.symm.trans h) Bool.false_ne_true⟩
      · have hrecv : atRecv r.uart b = atCollect r.uart b := by simp [atRecv, hend, hb]
        rw [hrecv, if_neg hb]
        have hinv : RxInv ⟨atCollect r.uart b, r.line ++ [b]⟩ := by
          cases hstart : r.uart.recvStart with
          | false => exact inv_collect_idle hi hr hend hstart
          | true => exact inv_collect hi hend hstart
        exact ⟨hinv, fun _ h => absurd ((atCollect_end hend).symm.trans h) Bool.false_ne_true⟩

theorem inv_zero : RxInv .zero := .outside (by simp [UartState.zero]) (by decide) (Nat.zero_le 1) rfl

end

def commandEnv : Env := { atMode := atMode, frameLength := 1024, linkStatus := .linkDown }

def sampleLine : List RxOp := [.byte 120, .byte 97, .byte 84, .byte 43, .byte 87, .byte 13]

/-- An accepted line has an `A` directly before a `T`. -/
theorem accepted_pair {l : List UInt8} {data : Nat → UInt8} (h : Accepted l data) :
    ∃ i, i < l.length ∧ l[i]?.any isA = true ∧ l[i + 1]?.any isT = true := by
  obtain ⟨pre, a, t, tail, c, rest, rfl, ha, ht, _⟩ := h
  exact ⟨pre.length, by simp, by simp [ha], by simp [ht]⟩

end SerialNet.Uart
