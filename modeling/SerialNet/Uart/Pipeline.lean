import SerialNet.Uart.Recv
import SerialNet.Lib.Patch
import SerialNet.Lib.Run

/-!
# From the UART to the network

The receiver, the frame timer and the sender hand bytes over through
`uart_rec_data` and `net_send_data`. `held` are the bytes in the two buffers, in
order; what was sent followed by them is what was received, unless a send fails.
-/

namespace SerialNet.Uart

open Patch Run

def buffered (s : UartState) : List UInt8 := read s.uartRecData 0 s.uartRecLen

def slot (s : UartState) : List UInt8 := if s.netSendStart then read s.netSendData 0 s.netSendLen else []

def held (s : UartState) : List UInt8 := slot s ++ buffered s

structure DataEnv (env : Env) : Prop where
  mode : env.atMode = dataMode
  link : env.linkStatus = .linkUp ∨ env.linkStatus = .scanDone
  frame : 32 ≤ env.frameLength ∧ env.frameLength ≤ maxRecvBufferSize

/-- Connected, with room in the buffer and no empty frame waiting. -/
structure Ready (s : UartState) : Prop where
  conn : s.connStatus = connectStatusOk
  room : s.uartRecLen < maxRecvBufferSize
  nonempty : s.netSendStart = true → 0 < s.netSendLen

section
variable {env : Env} {s s' : UartState}

/-! ## Handing a frame over -/

theorem read_copyMem (dst src : Nat → UInt8) (n : Nat) : read (copyMem dst src n) 0 n = read src 0 n :=
  read_congr fun i hi => if_pos (by omega)

theorem held_handOver (hfree : s.netSendStart = false) (hstart : s'.netSendStart = true)
    (hlen : s'.netSendLen = s.uartRecLen) (hrec : s'.uartRecLen = 0)
    (hdata : s'.netSendData = copyMem s.netSendData (Function.update s.uartRecData s.uartRecLen 0) s.uartRecLen) :
    held s' = held s := by
  have hslot : slot s' = buffered s := by
    rw [slot, if_pos hstart, hlen, hdata, read_copyMem]
    exact read_congr fun i hi => Function.update_of_ne (by omega) _ _
  have hempty : buffered s' = [] := by rw [buffered, hrec]; rfl
  have hnone : slot s = [] := by rw [slot, hfree]; rfl
  rw [held, held, hslot, hempty, hnone, List.append_nil, List.nil_append]

/-! ## uart_data_recv -/

theorem frameFull_spec (hr : Ready s) (henv : DataEnv env) (hne : 0 < s.uartRecLen) :
    held (frameFull env s) = held s ∧ Ready (frameFull env s) := by
  have hlink : (s.connStatus == connectStatusOk && (env.linkStatus == .linkUp || env.linkStatus == .scanDone)) = true := by
    simpa [hr.conn] using henv.link
  unfold frameFull
  rw [if_pos hlink]
  cases hstart : s.netSendStart with
  | true => exact ⟨rfl, hr⟩
  | false =>
    simp only [Bool.false_eq_true, if_false]
    exact ⟨held_handOver hstart rfl rfl rfl rfl, hr.conn, show 0 < maxRecvBufferSize by decide, fun _ => hne⟩

theorem dataRecv_spec (hr : Ready s) (henv : DataEnv env) (hroom : s.uartRecLen + 1 < maxRecvBufferSize) (b : UInt8) :
    held (dataRecv env s b) = held s ++ [b] ∧ Ready (dataRecv env s b) := by
  have hready : Ready { (s.setRecData s.uartRecLen b).post .startTimer with uartRecLen := s.uartRecLen + 1 } :=
    ⟨hr.conn, hroom, hr.nonempty⟩
  have hheld : held { (s.setRecData s.uartRecLen b).post .startTimer with uartRecLen := s.uartRecLen + 1 } =
      held s ++ [b] := by
    have hbuf : read (Function.update s.uartRecData s.uartRecLen b) 0 (s.uartRecLen + 1) = buffered s ++ [b] := by
      rw [read_add, Nat.zero_add, read_succ, Function.update_self, buffered]
      congr 1
      exact read_congr fun i hi => Function.update_of_ne (by omega) _ _
    exact (congrArg (slot s ++ ·) hbuf).trans (List.append_assoc ..).symm
  have hfull : (s.uartRecLen + 1 == maxRecvBufferSize) = false := by
    simpa using Nat.ne_of_lt hroom
  unfold dataRecv
  simp only [hr.room, if_true]
  rw [if_neg (by simp [UartState.post, UartState.setRecData, hr.conn])]
  simp only [UartState.post, UartState.setRecData_len, hfull, Bool.false_eq_true, if_false] at hready hheld ⊢
  split
  · obtain ⟨h, h'⟩ := frameFull_spec hready henv (Nat.succ_pos _)
    exact ⟨h.trans hheld, h'⟩
  · exact ⟨hheld, hready⟩

/-! ## timerFuncProcess -/

theorem held_setRecData (s : UartState) {i : Nat} (hi : s.uartRecLen ≤ i) : held (s.setRecData i 0) = held s := by
  have hbuf : buffered (s.setRecData i 0) = buffered s :=
    read_congr fun j (hj : j < s.uartRecLen) => Function.update_of_ne (by omega) _ _
  rw [held, hbuf]; rfl

theorem timerHandOver_spec (hr : Ready s) (hfree : s.netSendStart = false) (hne : s.uartRecLen ≠ 0) :
    held (timerHandOver s) = held s ∧ Ready (timerHandOver s) := by
  unfold timerHandOver
  split
  · exact ⟨rfl, { hr with }⟩
  · rw [if_pos (by simpa using hr.conn)]
    exact ⟨held_handOver hfree rfl rfl rfl rfl, hr.conn, show 0 < maxRecvBufferSize by decide,
      fun _ => Nat.pos_of_ne_zero hne⟩

theorem timerFuncProcess_spec (hr : Ready s) : held (timerFuncProcess s) = held s ∧ Ready (timerFuncProcess s) := by
  unfold timerFuncProcess
  cases hfree : s.netSendStart with
  | true => exact ⟨rfl, hr⟩
  | false =>
    simp only [Bool.false_eq_true, if_false]
    by_cases hne : s.uartRecLen = 0
    · rw [if_neg (not_not.mpr hne)]
      exact ⟨rfl, hr⟩
    · rw [if_pos hne]
      by_cases h5 : s.uartRecLen = 5
      · rw [if_pos (by simpa using h5)]
        obtain ⟨hheld, hready⟩ := timerHandOver_spec (s := s.setRecData 5 0) ⟨hr.conn, hr.room, hr.nonempty⟩ hfree hne
        exact ⟨hheld.trans (held_setRecData s (Nat.le_of_eq h5)), hready⟩
      · rw [if_neg (by simpa using h5)]
        exact timerHandOver_spec hr hfree hne

/-! ## TCPSendTask -/

theorem tcpSendStep_spec (hr : Ready s) {failCnt : Nat} {ok : Bool} (hfail : ok = false → failCnt + 1 < 10) :
    held s = slot s ++ held (tcpSendStep s failCnt ok).1 ∧ Ready (tcpSendStep s failCnt ok).1 := by
  unfold tcpSendStep
  cases hstart : s.netSendStart with
  | false =>
    have hnone : slot s = [] := by rw [slot, hstart]; rfl
    exact ⟨by rw [hnone]; rfl, hr⟩
  | true =>
    have hready : Ready { s with netSendStart := false, netSendLen := 0 } := ⟨hr.conn, hr.room, fun h => by cases h⟩
    cases ok with
    | true => exact ⟨rfl, hready⟩
    | false =>
      simp only [if_true, Bool.false_eq_true, if_false]
      rw [if_neg (Nat.ne_of_lt (hfail rfl))]
      exact ⟨rfl, hready⟩

end

/-! ## Runs -/

/-- The two buffers and the sender's counter, the bytes sent and the bytes received. -/
structure Pipe where
  uart : UartState
  failCnt : Nat
  sent : List UInt8
  received : List UInt8

inductive PipeOp where
  | byte (b : UInt8)
  | timer
  | send (ok : Bool)

def Pipe.start : Pipe := ⟨{ UartState.zero with connStatus := connectStatusOk }, 0, [], []⟩

def pipeStep (env : Env) (p : Pipe) : PipeOp → Pipe
  | .byte b => { p with uart := uartDataRecv env p.uart b, received := p.received ++ [b] }
  | .timer => { p with uart := timerFuncProcess p.uart }
  | .send ok =>
    { p with
      uart := (tcpSendStep p.uart p.failCnt ok).1
      failCnt := (tcpSendStep p.uart p.failCnt ok).2
      sent := if ok then p.sent ++ slot p.uart else p.sent }

def Within (p : Pipe) : PipeOp → Prop
  | .byte _ => p.uart.uartRecLen + 1 < maxRecvBufferSize
  | .timer => True
  | .send ok => ok = false → p.failCnt + 1 < 10

instance : ∀ p op, Decidable (Within p op)
  | p, .byte _ => inferInstanceAs (Decidable (p.uart.uartRecLen + 1 < maxRecvBufferSize))
  | _, .timer => isTrue trivial
  | p, .send ok => inferInstanceAs (Decidable (ok = false → p.failCnt + 1 < 10))

def Delivers (p : Pipe) : PipeOp → Prop
  | .send ok => p.uart.netSendStart = true → ok = true
  | _ => True

instance : ∀ p op, Decidable (Delivers p op)
  | _, .byte _ => isTrue trivial
  | _, .timer => isTrue trivial
  | p, .send ok => inferInstanceAs (Decidable (p.uart.netSendStart = true → ok = true))

/-- What was sent, the waiting frame and the buffer are what was received. -/
def Lossless (p : Pipe) : Prop := p.sent ++ held p.uart = p.received

def missing (p : Pipe) : Int := p.received.length - (p.sent ++ held p.uart).length

section
variable {env : Env} {p : Pipe} {op : PipeOp}

theorem ready_step (henv : DataEnv env) (hr : Ready p.uart) (hw : Within p op) : Ready (pipeStep env p op).uart := by
  cases op with
  | byte b =>
    simp only [pipeStep, uartDataRecv, henv.mode, beq_self_eq_true, if_true]
    exact (dataRecv_spec hr henv hw b).2
  | timer => exact (timerFuncProcess_spec hr).2
  | send ok => exact (tcpSendStep_spec hr hw).2

/-- A step that delivers loses and duplicates nothing. -/
theorem lossless_step (henv : DataEnv env) (hr : Ready p.uart) (hw : Within p op) (hd : Delivers p op)
    (h : Lossless p) : Lossless (pipeStep env p op) := by
  unfold Lossless at h ⊢
  cases op with
  | byte b =>
    simp only [pipeStep, uartDataRecv, henv.mode, beq_self_eq_true, if_true]
    rw [(dataRecv_spec hr henv hw b).1, ← List.append_assoc, h]
  | timer =>
    simp only [pipeStep]
    rw [(timerFuncProcess_spec hr).1, h]
  | send ok =>
    have hheld := (tcpSendStep_spec hr hw).1
    simp only [pipeStep]
    cases ok with
    | true => rw [if_pos rfl, List.append_assoc, ← hheld, h]
    | false =>
      have hnone : slot p.uart = [] := by
        rw [slot, if_neg fun hs => Bool.false_ne_true (hd hs)]
      rw [hnone, List.nil_append] at hheld
      rw [if_neg Bool.false_ne_true, ← hheld, h]

/-- Missing bytes never come back, and a failed send of a waiting frame adds some. -/
theorem missing_step (henv : DataEnv env) (hr : Ready p.uart) (hw : Within p op) :
    missing p ≤ missing (pipeStep env p op) ∧ (missing (pipeStep env p op) = missing p → Delivers p op) := by
  unfold missing
  cases op with
  | byte b =>
    simp only [pipeStep, uartDataRecv, henv.mode, beq_self_eq_true, if_true, (dataRecv_spec hr henv hw b).1]
    exact ⟨by simp; omega, fun _ => trivial⟩
  | timer =>
    simp only [pipeStep, (timerFuncProcess_spec hr).1]
    exact ⟨Int.le_refl _, fun _ => trivial⟩
  | send ok =>
    have hheld := congrArg List.length (tcpSendStep_spec hr hw).1
    rw [List.length_append] at hheld
    simp only [pipeStep]
    cases ok with
    | true =>
      simp only [if_true, List.length_append]
      exact ⟨by omega, fun _ _ => rfl⟩
    | false =>
      simp only [Bool.false_eq_true, if_false, List.length_append]
      refine ⟨by omega, fun h hs => ?_⟩
      have hslot : (slot p.uart).length = p.uart.netSendLen := by rw [slot, if_pos hs, length_read]
      have := hr.nonempty hs
      omega

theorem lossless_run (henv : DataEnv env) {ops : List PipeOp} (hr : Ready p.uart) (h : Lossless p)
    (hw : Meets (pipeStep env) Within p ops) (hd : Meets (pipeStep env) Delivers p ops) :
    Lossless (run (pipeStep env) p ops) :=
  (inv_of_meets (I := fun p => Ready p.uart ∧ Lossless p)
    (fun _ _ hi hg => ⟨ready_step henv hi.1 hg.1, lossless_step henv hi.1 hg.1 hg.2 hi.2⟩) p ops ⟨hr, h⟩ (hw.and hd)).2

theorem missing_run (henv : DataEnv env) {ops : List PipeOp} (hr : Ready p.uart)
    (hw : Meets (pipeStep env) Within p ops) :
    missing p ≤ missing (run (pipeStep env) p ops) ∧
      (missing (run (pipeStep env) p ops) = missing p → Meets (pipeStep env) Delivers p ops) := by
  induction ops generalizing p with
  | nil => exact ⟨Int.le_refl _, fun _ => trivial⟩
  | cons op ops ih =>
    obtain ⟨hstep, hdel⟩ := missing_step henv hr hw.1
    obtain ⟨hrest, hrestDel⟩ := ih (ready_step henv hr hw.1) hw.2
    rw [run_cons]
    exact ⟨by omega, fun h => ⟨hdel (by omega), hrestDel (by omega)⟩⟩

theorem ready_start : Ready Pipe.start.uart := ⟨rfl, by decide, fun h => by cases h⟩

/-- **The pipeline.** What was sent, the waiting frame and the buffer are what
was received, in order, exactly in the runs where no send of a waiting frame
fails. -/
theorem pipeline_run (henv : DataEnv env) {ops : List PipeOp} (hw : Meets (pipeStep env) Within .start ops) :
    Lossless (run (pipeStep env) .start ops) ↔ Meets (pipeStep env) Delivers .start ops := by
  constructor
  · intro h
    have hnone : missing (run (pipeStep env) .start ops) = missing .start := by
      rw [missing, show _ = _ from h]
      exact Int.sub_self _
    exact (missing_run henv ready_start hw).2 hnone
  · exact fun hd => lossless_run henv ready_start rfl hw hd

end

def sampleDataEnv : Env := { atMode := dataMode, frameLength := 32, linkStatus := .linkUp }

theorem pipeline_run_sample :
    Lossless (run (pipeStep sampleDataEnv) .start [.byte 65, .timer, .byte 66, .send true, .timer, .byte 67]) := by
  have hw : Meets (pipeStep sampleDataEnv) Within .start
      [.byte 65, .timer, .byte 66, .send true, .timer, .byte 67] := by decide
  exact (pipeline_run ⟨rfl, .inl rfl, by decide⟩ hw).mpr (by decide)

/-- One failed send and the frame is gone. -/
theorem failed_send_loses :
    ∃ ops, Meets (pipeStep sampleDataEnv) Within .start ops ∧ ¬Lossless (run (pipeStep sampleDataEnv) .start ops) := by
  refine ⟨[.byte 65, .timer, .send false], by decide, fun h => ?_⟩
  have hlen := congrArg List.length h
  revert hlen
  decide

end SerialNet.Uart
