import SerialNet.Uart.Pipeline

/-!
# Sending a buffer in frames

The send loop of `UDPSendTask`, one `sendto` or assignment at a time, with the
calls of the receiver and of the frame timer between them.
-/

namespace SerialNet.Uart

open Patch Run

/-! ## The sender -/

/-- Where the sender is: in the loop with `pdata` and `data_len`, behind `net_sendStart = 0`, or through. -/
inductive Phase where
  | loop (pdata dataLen : Nat)
  | cleared
  | done
  deriving DecidableEq, Repr

/-- `frames` are the datagrams handed to `sendto`, `accepted` the bytes it counted. -/
structure Sender where
  uart : UartState
  phase : Phase
  frames : List (List UInt8)
  accepted : List UInt8

/-- `data_len > UserParam.frameLength ? UserParam.frameLength : data_len`. -/
def asked (env : Env) (dataLen : Nat) : Nat := if dataLen > env.frameLength then env.frameLength else dataLen

/-- The next step of the sender, `sendcount` being what `sendto` returns if it is called. -/
def udpSendStep (env : Env) (s : Sender) (sendcount : Int) : Sender :=
  match s.phase with
  | .loop pdata dataLen =>
    if dataLen > 0 then
      let frame := read s.uart.netSendData pdata (asked env dataLen)
      let s := { s with frames := s.frames ++ [frame] }
      if sendcount < 0 then s
      else
        { s with
          phase := .loop (pdata + sendcount.toNat) (dataLen - sendcount.toNat)
          accepted := s.accepted ++ frame.take sendcount.toNat }
    else { s with uart := { s.uart with netSendStart := false }, phase := .cleared }
  | .cleared => { s with uart := { s.uart with netSendLen := 0 }, phase := .done }
  | .done => s

inductive UdpEvent where
  | send (sendcount : Int)
  | recv (dummy : UInt8)
  | timer

def udpStep (env : Env) (s : Sender) : UdpEvent → Sender
  | .send sendcount => udpSendStep env s sendcount
  | .recv dummy => { s with uart := uartDataRecv env s.uart dummy }
  | .timer => { s with uart := timerFuncProcess s.uart }

/-- The sender has found `net_sendStart` set. -/
def udpBegin (uart : UartState) : Sender := ⟨uart, .loop 0 uart.netSendLen, [], []⟩

def Possible (env : Env) (s : Sender) : UdpEvent → Prop
  | .send sendcount =>
    match s.phase with
    | .loop _ dataLen => 0 < dataLen → sendcount < 0 ∨ (1 ≤ sendcount ∧ sendcount ≤ asked env dataLen)
    | _ => True
  | _ => True

instance (env : Env) : ∀ s e, Decidable (Possible env s e)
  | ⟨_, .loop _ dataLen, _, _⟩, .send sendcount =>
    inferInstanceAs (Decidable (0 < dataLen → sendcount < 0 ∨ (1 ≤ sendcount ∧ sendcount ≤ asked env dataLen)))
  | ⟨_, .cleared, _, _⟩, .send _ => isTrue trivial
  | ⟨_, .done, _, _⟩, .send _ => isTrue trivial
  | _, .recv _ => isTrue trivial
  | _, .timer => isTrue trivial

/-! ## What the loop is for -/

structure Sending (env : Env) (data : List UInt8) (s : Sender) : Prop where
  frames : ∀ f ∈ s.frames, f.length ≤ env.frameLength
  accepted : s.accepted <+: data
  waiting : ∀ pdata dataLen, s.phase = .loop pdata dataLen → slot s.uart = data
  sent : (∀ pdata dataLen, s.phase ≠ .loop pdata dataLen) → s.accepted = data

/-- Clearing `net_sendStart` keeps what is buffered, clearing `net_send_len` all that is held. -/
def ClearKeeps (env : Env) (s : Sender) : UdpEvent → Prop
  | .send sendcount =>
    match s.phase with
    | .loop _ 0 => buffered (udpSendStep env s sendcount).uart = buffered s.uart
    | .cleared => held (udpSendStep env s sendcount).uart = held s.uart
    | _ => True
  | _ => True

def sends (es : List UdpEvent) : Nat := es.countP fun e => e matches .send _

def failures (es : List UdpEvent) : Nat := es.countP fun e =>
  match e with
  | .send sendcount => decide (sendcount < 0)
  | _ => false

structure Chunked (env : Env) (uart : UartState) (es : List UdpEvent) : Prop where
  states : ∀ front, front <+: es → Sending env (slot uart) (run (udpStep env) (udpBegin uart) front)
  terminates : uart.netSendLen + 2 + failures es ≤ sends es → (run (udpStep env) (udpBegin uart) es).phase = .done
  kept : Meets (udpStep env) (ClearKeeps env) (udpBegin uart) es

/-- Nothing was handed over since `net_sendStart` was cleared. -/
def NotRefilled (s : Sender) : UdpEvent → Prop
  | .send _ => s.phase = .cleared → s.uart.netSendStart = false
  | _ => True

instance : ∀ s e, Decidable (NotRefilled s e)
  | s, .send _ => inferInstanceAs (Decidable (s.phase = .cleared → s.uart.netSendStart = false))
  | _, .recv _ => isTrue trivial
  | _, .timer => isTrue trivial

/-! ## The producers -/

/-- The slot is left alone, or it was empty and a frame was put there. -/
def Produced (s s' : UartState) : Prop :=
  (s'.netSendStart = s.netSendStart ∧ s'.netSendLen = s.netSendLen ∧ s'.netSendData = s.netSendData) ∨
    (s.netSendStart = false ∧ s'.netSendStart = true ∧ 0 < s'.netSendLen)

section
variable {env : Env} {s s' : UartState} {c : UInt8}

theorem frameFull_produced (h : 0 < s.uartRecLen) : Produced s (frameFull env s) := by
  unfold frameFull
  split
  · cases hstart : s.netSendStart with
    | true =>
      simp only [if_true]
      exact .inl ⟨rfl, rfl, rfl⟩
    | false => exact .inr ⟨hstart, rfl, h⟩
  · exact .inl ⟨rfl, rfl, rfl⟩

/-- The slot is as before and the buffer is not empty. -/
def Kept (s s' : UartState) : Prop :=
  (s'.netSendStart = s.netSendStart ∧ s'.netSendLen = s.netSendLen ∧ s'.netSendData = s.netSendData) ∧
    0 < s'.uartRecLen

theorem Kept.refl (h : 0 < s.uartRecLen) : Kept s s := ⟨⟨rfl, rfl, rfl⟩, h⟩

theorem Produced.refl : Produced s s := .inl ⟨rfl, rfl, rfl⟩

theorem Kept.produced {t : UartState} (h : Kept s t) (h' : Produced t s') : Produced s s' := by
  unfold Produced at h' ⊢
  rw [h.1.1, h.1.2.1, h.1.2.2] at h'
  exact h'

theorem watchEscape_kept (h : 0 < s.uartRecLen) : Kept s (watchEscape s c) := by
  unfold watchEscape
  split
  · split
    · exact .refl h
    · exact .refl h
  · split
    · split
      · exact .refl h
      · exact .refl h
    · split
      · split
        · exact ⟨⟨rfl, rfl, rfl⟩, Nat.succ_pos 4⟩
        · exact .refl h
      · exact .refl h

theorem dataRecv_produced : Produced s (dataRecv env s c) := by
  unfold dataRecv
  extract_lets posted stored watched
  have hstored : Kept s stored := by
    unfold stored
    split
    · exact ⟨⟨rfl, rfl, rfl⟩, Nat.succ_pos _⟩
    · next hfull => exact .refl (Nat.lt_of_lt_of_le (by decide) (Nat.le_of_not_lt hfull))
  have hwatched : Kept stored watched := by
    unfold watched
    split
    · exact watchEscape_kept hstored.2
    · exact .refl hstored.2
  split
  · exact hstored.produced .refl
  · refine hstored.produced (hwatched.produced ?_)
    split
    · exact frameFull_produced hwatched.2
    · exact .refl

theorem timerHandOver_produced (hfree : s.netSendStart = false) (hne : s.uartRecLen ≠ 0) :
    Produced s (timerHandOver s) := by
  unfold timerHandOver
  split
  · exact .inl ⟨rfl, rfl, rfl⟩
  · split
    · exact .inr ⟨hfree, rfl, Nat.pos_of_ne_zero hne⟩
    · exact .inl ⟨rfl, rfl, rfl⟩

theorem timerFuncProcess_produced : Produced s (timerFuncProcess s) := by
  unfold timerFuncProcess
  cases hfree : s.netSendStart with
  | true => exact .refl
  | false =>
    simp only [Bool.false_eq_true, if_false]
    split
    · next hne =>
      split
      · exact timerHandOver_produced (s := s.setRecData 5 0) hfree hne
      · exact timerHandOver_produced hfree hne
    · exact .refl

end

/-! ## What every step keeps -/

/-- What the sender knows of the slot, `data` being the buffer handed over. -/
def Agree (data : List UInt8) (s : Sender) : Prop :=
  match s.phase with
  | .loop pdata dataLen =>
    s.uart.netSendStart = true ∧ read s.uart.netSendData 0 s.uart.netSendLen = data ∧
      pdata + dataLen = s.uart.netSendLen ∧ s.accepted = read s.uart.netSendData 0 pdata
  | .cleared => s.accepted = data ∧ (s.uart.netSendStart = true → 0 < s.uart.netSendLen)
  | .done => s.accepted = data

section
variable {env : Env} {data : List UInt8} {s : Sender} {n : Int}

theorem agree_produced {u : UartState} (h : Agree data s) (hp : Produced s.uart u) : Agree data { s with uart := u } := by
  obtain ⟨uart, phase, frames, accepted⟩ := s
  cases phase with
  | loop pdata dataLen =>
    obtain ⟨hstart, hdata, hlen, haccepted⟩ := h
    obtain ⟨h1, h2, h3⟩ | ⟨hfree, -⟩ := hp
    · unfold Agree
      rw [h1, h2, h3]
      exact ⟨hstart, hdata, hlen, haccepted⟩
    · rw [hfree] at hstart
      cases hstart
  | cleared =>
    refine ⟨h.1, fun hset => ?_⟩
    obtain ⟨h1, h2, -⟩ | ⟨-, -, hpos⟩ := hp
    · rw [h2]
      exact h.2 (h1.symm.trans hset)
    · exact hpos
  | done => exact h

theorem asked_le {dataLen : Nat} : asked env dataLen ≤ env.frameLength ∧ asked env dataLen ≤ dataLen := by
  unfold asked
  split
  · omega
  · omega

theorem agree_send (h : Agree data s) (hn : Possible env s (.send n)) : Agree data (udpSendStep env s n) := by
  obtain ⟨uart, phase, frames, accepted⟩ := s
  cases phase with
  | loop pdata dataLen =>
    obtain ⟨hstart, hdata, hlen, haccepted⟩ := h
    unfold udpSendStep
    by_cases hmore : dataLen > 0
    · simp only [if_pos hmore]
      by_cases hfail : n < 0
      · simp only [if_pos hfail]
        exact ⟨hstart, hdata, hlen, haccepted⟩
      · simp only [if_neg hfail]
        obtain hneg | ⟨-, hle⟩ := hn hmore
        · exact absurd hneg hfail
        have hasked : asked env dataLen ≤ dataLen := asked_le.2
        refine ⟨hstart, hdata, by dsimp only at hlen ⊢; omega, ?_⟩
        dsimp only at haccepted ⊢
        rw [haccepted, take_read, read_add, Nat.zero_add, Nat.min_eq_left (by omega)]
    · simp only [if_neg hmore]
      refine ⟨?_, fun hset => by cases hset⟩
      have hall : pdata = uart.netSendLen := by dsimp only at hlen; omega
      exact haccepted.trans (hall ▸ hdata)
  | cleared => exact h.1
  | done => exact h

theorem frames_send (h : ∀ f ∈ s.frames, f.length ≤ env.frameLength) :
    ∀ f ∈ (udpSendStep env s n).frames, f.length ≤ env.frameLength := by
  unfold udpSendStep
  cases hphase : s.phase with
  | loop pdata dataLen =>
    have happend : ∀ f ∈ s.frames ++ [read s.uart.netSendData pdata (asked env dataLen)], f.length ≤ env.frameLength := by
      intro f hf
      obtain hf | hf := List.mem_append.mp hf
      · exact h f hf
      · rw [List.mem_singleton.mp hf, length_read]
        exact asked_le.1
    dsimp only
    split
    · split
      · exact happend
      · exact happend
    · exact h
  | cleared => exact h
  | done => exact h

structure Inv (env : Env) (data : List UInt8) (s : Sender) : Prop where
  agree : Agree data s
  frames : ∀ f ∈ s.frames, f.length ≤ env.frameLength

variable {e : UdpEvent} {es : List UdpEvent}

theorem inv_step (hmode : env.atMode = dataMode) (h : Inv env data s) (hp : Possible env s e) :
    Inv env data (udpStep env s e) := by
  cases e with
  | send n => exact ⟨agree_send h.agree hp, frames_send h.frames⟩
  | recv c =>
    refine ⟨agree_produced h.agree ?_, h.frames⟩
    rw [uartDataRecv, if_pos (by simp [hmode])]
    exact dataRecv_produced
  | timer => exact ⟨agree_produced h.agree timerFuncProcess_produced, h.frames⟩

theorem Inv.sending (h : Inv env data s) : Sending env data s := by
  refine ⟨h.frames, ?_, fun pdata dataLen hphase => ?_, fun hout => ?_⟩
  · have hagree := h.agree
    unfold Agree at hagree
    split at hagree
    · next pdata dataLen hphase =>
      obtain ⟨-, hdata, hlen, haccepted⟩ := hagree
      rw [haccepted, ← hdata, ← hlen, read_add]
      exact List.prefix_append _ _
    · exact hagree.1 ▸ List.prefix_rfl
    · exact hagree ▸ List.prefix_rfl
  · have hagree := h.agree
    rw [Agree, hphase] at hagree
    rw [slot, if_pos hagree.1, hagree.2.1]
  · have hagree := h.agree
    unfold Agree at hagree
    split at hagree
    · next pdata dataLen hphase => exact absurd hphase (hout pdata dataLen)
    · exact hagree.1
    · exact hagree

/-! ## How long it takes -/

def remaining (s : Sender) : Nat :=
  match s.phase with
  | .loop _ dataLen => dataLen + 2
  | .cleared => 1
  | .done => 0

theorem remaining_step (hp : Possible env s e) :
    remaining (udpStep env s e) ≤ remaining s ∧
      (0 < remaining s → remaining (udpStep env s e) + sends [e] ≤ remaining s + failures [e]) := by
  obtain ⟨uart, phase, frames, accepted⟩ := s
  cases e with
  | recv c => exact ⟨Nat.le_refl _, fun _ => Nat.le_refl _⟩
  | timer => exact ⟨Nat.le_refl _, fun _ => Nat.le_refl _⟩
  | send n =>
    change remaining (udpSendStep env _ n) ≤ _ ∧ (_ → remaining (udpSendStep env _ n) + 1 ≤ _)
    cases phase with
    | loop pdata dataLen =>
      unfold udpSendStep
      by_cases hmore : dataLen > 0
      · simp only [if_pos hmore]
        obtain hfail | ⟨hone, hle⟩ := hp hmore
        · have hcount : failures [.send n] = 1 := by simp [failures, hfail]
          simp only [if_pos hfail, hcount]
          exact ⟨Nat.le_refl _, fun _ => Nat.le_refl _⟩
        · simp only [if_neg (show ¬n < 0 by omega), remaining]
          exact ⟨by omega, fun _ => by omega⟩
      · simp only [if_neg hmore, remaining]
        exact ⟨by omega, fun _ => by omega⟩
    | cleared => exact ⟨Nat.zero_le _, fun _ => Nat.le_add_right _ _⟩
    | done => exact ⟨Nat.le_refl _, fun hpos => absurd hpos (Nat.lt_irrefl 0)⟩

theorem remaining_run (hp : Meets (udpStep env) (Possible env) s es) :
    remaining (run (udpStep env) s es) ≤ remaining s ∧
      (0 < remaining (run (udpStep env) s es) →
        remaining (run (udpStep env) s es) + sends es ≤ remaining s + failures es) := by
  induction es generalizing s with
  | nil => exact ⟨Nat.le_refl _, fun _ => Nat.le_refl _⟩
  | cons e es ih =>
    obtain ⟨hmono, hstep⟩ := remaining_step hp.1
    obtain ⟨hmono', hrest⟩ := ih hp.2
    have hsends : sends (e :: es) = sends es + sends [e] := by simp [sends, List.countP_cons]
    have hfailures : failures (e :: es) = failures es + failures [e] := by simp [failures, List.countP_cons]
    rw [run_cons, hsends, hfailures]
    refine ⟨Nat.le_trans hmono' hmono, fun hpos => ?_⟩
    have hfirst := hstep (by omega)
    have := hrest hpos
    omega

/-! ## Clearing the slot -/

theorem clearKeeps_iff (h : Agree data s) : ClearKeeps env s e ↔ NotRefilled s e := by
  obtain ⟨uart, phase, frames, accepted⟩ := s
  cases e with
  | recv c => exact Iff.rfl
  | timer => exact Iff.rfl
  | send n =>
    cases phase with
    | loop pdata dataLen =>
      refine iff_of_true ?_ fun hphase => by cases hphase
      cases dataLen with
      | zero => exact rfl
      | succ dataLen => exact trivial
    | done => exact iff_of_true trivial fun hphase => by cases hphase
    | cleared =>
      change slot { uart with netSendLen := 0 } ++ buffered uart = slot uart ++ buffered uart ↔
        (Phase.cleared = .cleared → uart.netSendStart = false)
      rw [List.append_left_inj, forall_prop_of_true rfl]
      cases hset : uart.netSendStart with
      | false => exact iff_of_true (by simp [slot, hset]) rfl
      | true =>
        refine iff_of_false (fun hsame => ?_) (by simp)
        have hlen := congrArg List.length hsame
        have hpos : 0 < uart.netSendLen := h.2 hset
        simp only [slot, hset, if_true, length_read] at hlen
        omega

theorem inv_begin {uart : UartState} (hstart : uart.netSendStart = true) : Inv env (slot uart) (udpBegin uart) := by
  refine ⟨⟨hstart, (if_pos hstart).symm, Nat.zero_add _, rfl⟩, fun f hf => ?_⟩
  exact absurd hf List.not_mem_nil

end

/-- **Sending in frames.** Whatever the receiver and the timer do in between,
the loop ends, its frames fit and the accepted bytes are the buffer handed over;
clearing the slot drops nothing exactly when nothing was handed over between
its two assignments. -/
theorem udp_chunks {env : Env} {uart : UartState} (hmode : env.atMode = dataMode)
    (hstart : uart.netSendStart = true) {es : List UdpEvent}
    (hvalid : Meets (udpStep env) (Possible env) (udpBegin uart) es) :
    Chunked env uart es ↔ Meets (udpStep env) NotRefilled (udpBegin uart) es := by
  have hkept : Meets (udpStep env) (ClearKeeps env) (udpBegin uart) es ↔
      Meets (udpStep env) NotRefilled (udpBegin uart) es :=
    meets_iff_of_inv_of_meets (I := Inv env (slot uart)) (fun _ _ h hp _ => inv_step hmode h hp)
      (fun _ _ h _ => clearKeeps_iff h.agree) (inv_begin hstart) es hvalid
  refine ⟨fun h => hkept.mp h.kept, fun h => ⟨fun front hfront => ?_, fun henough => ?_, hkept.mpr h⟩⟩
  · exact (inv_of_meets (fun _ _ h hp => inv_step hmode h hp) _ front (inv_begin hstart) (hvalid.take hfront)).sending
  · have hbound := (remaining_run hvalid).2
    have hzero : remaining (run (udpStep env) (udpBegin uart) es) = 0 := by
      by_contra hpos
      have := hbound (Nat.pos_of_ne_zero hpos)
      have hfirst : remaining (udpBegin uart) = uart.netSendLen + 2 := rfl
      omega
    unfold remaining at hzero
    split at hzero
    · exact absurd hzero (Nat.succ_ne_zero _)
    · exact absurd hzero (Nat.succ_ne_zero _)
    · assumption

/-- Connected, `a` handed over and nothing buffered. -/
def handedOver (a : List UInt8) : UartState :=
  { UartState.zero with
    connStatus := connectStatusOk, netSendStart := true, netSendLen := a.length
    netSendData := fun i => a.getD i 0 }

theorem udp_chunks_abc :
    Chunked sampleDataEnv (handedOver [65, 66, 67]) [.send 2, .recv 68, .send (-1), .timer, .send 1, .send 0, .send 0] := by
  exact (udp_chunks rfl rfl (by decide)).mpr (by decide)

/-- A frame handed over between the two assignments is wiped. -/
theorem refilled_slot_wiped :
    ¬∀ (env : Env) (uart : UartState) (es : List UdpEvent), env.atMode = dataMode → uart.connStatus = connectStatusOk →
      1 ≤ env.frameLength → env.frameLength ≤ maxRecvBufferSize → uart.netSendStart = true →
      uart.netSendLen ≤ maxRecvBufferSize →
      Meets (udpStep env) (Possible env) (udpBegin uart) es → Chunked env uart es := by
  intro hall
  have h := hall sampleDataEnv (handedOver [65]) [.recv 120, .send 1, .send 0, .timer, .send 0]
    rfl rfl (by decide) (by decide) rfl (by decide) (by decide)
  have hlen := congrArg List.length h.kept.2.2.2.2.1
  revert hlen
  decide

end SerialNet.Uart
