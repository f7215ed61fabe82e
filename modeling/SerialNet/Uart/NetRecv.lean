import SerialNet.Uart.Recv
import SerialNet.Lib.Patch
import SerialNet.Lib.Run

/-!
# From the network to the UART

`UDPRecvTask` and `TCPRecvTask` put a received payload into `uart_send_data`
when `uart_hasData` is clear, `UartSendThread` writes it to the UART and clears
the flag. A step is one assignment, one byte copied or one byte sent.
-/

namespace SerialNet.Uart.NetRecv

open Patch Run

abbrev minRecvBufferSize : Nat := 32

def loadRecvBufSize (frameLength : UInt16) : Nat :=
  if frameLength.toNat < minRecvBufferSize then minRecvBufferSize
  else if frameLength.toNat > maxRecvBufferSize then maxRecvBufferSize
  else frameLength.toNat

theorem loadRecvBufSize_le (frameLength : UInt16) : loadRecvBufSize frameLength ≤ maxRecvBufferSize := by
  unfold loadRecvBufSize
  split
  · decide
  · split
    · exact Nat.le_refl _
    · omega

/-! ## The two threads -/

/-- Where the receive task is, with `bytes_read`. -/
inductive Receiver where
  | ended
  | recv
  | wait (bytesRead : Nat)
  | copy (bytesRead i : Nat)
  | sendLen (bytesRead : Nat)
  | hasData (bytesRead : Nat)
  deriving DecidableEq, Repr

/-- Where `UartSendThread` is; `print` is the loop of `FormatPrintf`. -/
inductive Sender where
  | idle
  | start
  | format
  | print (i len : Nat)
  | clearStart
  | clearData
  deriving DecidableEq, Repr

/-- A byte written through `recv_data`, through `recv_data` while it is `NULL`, or to `uart_send_data`. -/
inductive Write where
  | recvData (i : Nat)
  | null (i : Nat)
  | uartSendData (i : Nat)
  deriving DecidableEq, Repr

/-- `out` is what went to the UART, `received` the payloads. -/
structure Com where
  tcp : Bool
  allocated : Bool
  recvData : Nat → UInt8
  uartSendData : Nat → UInt8
  uartSendLen : Nat
  uartSendStart : Bool
  uartHasData : Bool
  receiver : Receiver
  sender : Sender
  writes : List Write
  out : List UInt8
  received : List (List UInt8)

def Com.boot (recvData uartSendData : Nat → UInt8) : Com :=
  ⟨false, false, recvData, uartSendData, 0, false, false, .ended, .idle, [], [], []⟩

/-- `recv` of `bytes_read` bytes and the terminator. `first` bytes come with the
first buffer of the stack; `pbuf_copy_partial` copies nothing to `NULL`, that is
where these would go. -/
def recvPayload (s : Com) (data : List UInt8) (first : Nat) : Com :=
  let s :=
    if s.allocated then
      { s with
        recvData := Function.update (patch s.recvData 0 data) data.length 0
        writes := s.writes ++ (List.range (data.length + 1)).map Write.recvData }
    else
      { s with
        recvData := Function.update (patch s.recvData first (data.drop first)) data.length 0
        writes := s.writes ++ (List.range' first (data.length - first)).map Write.null ++ [Write.null data.length] }
  { s with receiver := .wait data.length, received := s.received ++ [data] }

/-- The next step of the receive task with a payload in its buffer. -/
def receiverStep (s : Com) : Com :=
  match s.receiver with
  | .wait bytesRead =>
    if s.uartSendStart = false ∧ s.uartHasData = false then { s with receiver := .copy bytesRead 0 } else s
  | .copy bytesRead i =>
    if i < bytesRead then
      { s with
        uartSendData := Function.update s.uartSendData i (s.recvData i), writes := s.writes ++ [.uartSendData i]
        receiver := .copy bytesRead (i + 1) }
    else { s with receiver := .sendLen bytesRead }
  | .sendLen bytesRead => { s with uartSendLen := bytesRead, receiver := .hasData bytesRead }
  | .hasData _ => { s with uartHasData := true, receiver := .recv }
  | _ => s

def senderStep (s : Com) : Com :=
  match s.sender with
  | .idle => if s.uartSendStart = false ∧ s.uartHasData = true then { s with sender := .start } else s
  | .start => { s with uartSendStart := true, sender := .format }
  | .format => { s with sender := .print 0 s.uartSendLen }
  | .print i len =>
    if i < len then { s with out := s.out ++ [s.uartSendData i], sender := .print (i + 1) len }
    else { s with sender := .clearStart }
  | .clearStart => { s with uartSendStart := false, sender := .clearData }
  | .clearData => { s with uartHasData := false, sender := .idle }

/-- `begin` starts a task, `idle` is a result of at most 0, with `switched` in AT mode. -/
inductive Event where
  | begin (tcp allocated : Bool)
  | recv (data : List UInt8) (first : Nat)
  | idle (bytesRead : Int) (switched : Bool)
  | receiver
  | sender

def step (s : Com) : Event → Com
  | .begin tcp allocated => if s.receiver = .ended then { s with tcp, allocated, receiver := .recv } else s
  | .recv data first => if s.receiver = .recv then recvPayload s data first else s
  | .idle bytesRead switched =>
    if s.receiver = .recv ∧ (switched = true ∨ (s.tcp = true ∧ bytesRead = 0)) then { s with receiver := .ended } else s
  | .receiver => receiverStep s
  | .sender => senderStep s

/-- A payload is not empty and fits the length asked for. -/
def Possible (size : Nat) (_ : Com) : Event → Prop
  | .recv data first => 1 ≤ first ∧ first ≤ data.length ∧ data.length ≤ size
  | .idle bytesRead _ => bytesRead ≤ 0
  | _ => True

instance (size : Nat) : ∀ s e, Decidable (Possible size s e)
  | _, .recv data first => inferInstanceAs (Decidable (1 ≤ first ∧ first ≤ data.length ∧ data.length ≤ size))
  | _, .idle bytesRead _ => inferInstanceAs (Decidable (bytesRead ≤ 0))
  | _, .begin .. => isTrue trivial
  | _, .receiver => isTrue trivial
  | _, .sender => isTrue trivial

/-! ## Nothing lost, nothing outside -/

def InBounds (size : Nat) : Write → Prop
  | .recvData i => i < size
  | .null _ => False
  | .uartSendData i => i < maxRecvBufferSize + 1

def inHand (s : Com) : List UInt8 :=
  match s.receiver with
  | .wait n | .copy n _ | .sendLen n | .hasData n => read s.recvData 0 n
  | _ => []

def inSlot (s : Com) : List UInt8 :=
  if s.uartHasData then
    match s.sender with
    | .print i len => read s.uartSendData i (len - i)
    | .clearStart | .clearData => []
    | _ => read s.uartSendData 0 s.uartSendLen
  else []

structure Handed (size : Nat) (s : Com) : Prop where
  bounds : ∀ w ∈ s.writes, InBounds size w
  bytes : s.out ++ inSlot s ++ inHand s = s.received.flatten

def Fits (size : Nat) (s : Com) : Event → Prop
  | .recv data _ => s.receiver = .recv → s.allocated = true ∧ data.length < size
  | _ => True

instance (size : Nat) : ∀ s e, Decidable (Fits size s e)
  | s, .recv data _ => inferInstanceAs (Decidable (s.receiver = .recv → s.allocated = true ∧ data.length < size))
  | _, .idle .. => isTrue trivial
  | _, .begin .. => isTrue trivial
  | _, .receiver => isTrue trivial
  | _, .sender => isTrue trivial

/-! ## The two sides of the flag -/

/-- The receiver fills the slot while the flag is clear. -/
def ReceiverOk (s : Com) : Prop :=
  match s.receiver with
  | .wait n => n ≤ maxRecvBufferSize
  | .copy n i =>
    s.uartHasData = false ∧ i ≤ n ∧ n ≤ maxRecvBufferSize ∧ read s.uartSendData 0 i = read s.recvData 0 i
  | .sendLen n => s.uartHasData = false ∧ read s.uartSendData 0 n = read s.recvData 0 n
  | .hasData n => s.uartHasData = false ∧ read s.uartSendData 0 n = read s.recvData 0 n ∧ s.uartSendLen = n
  | _ => True

/-- The sender reads it while the flag is set. -/
def SenderOk (s : Com) : Prop :=
  match s.sender with
  | .idle => True
  | .print i len => s.uartHasData = true ∧ i ≤ len
  | _ => s.uartHasData = true

structure Inv (size : Nat) (s : Com) : Prop where
  handed : Handed size s
  receiver : ReceiverOk s
  sender : SenderOk s

section
variable {size : Nat} {s : Com}

theorem SenderOk.idle (h : SenderOk s) (hclear : s.uartHasData = false) : s.sender = .idle := by
  unfold SenderOk at h
  split at h
  · assumption
  · rw [hclear] at h
    cases h.1
  · rw [hclear] at h
    cases h

theorem inSlot_clear (hclear : s.uartHasData = false) : inSlot s = [] := by
  rw [inSlot, hclear]
  rfl

theorem bytes_clear (hclear : s.uartHasData = false) :
    s.out ++ inSlot s ++ inHand s = s.received.flatten ↔ s.out ++ inHand s = s.received.flatten := by
  rw [inSlot_clear hclear, List.append_nil]

theorem inv_receiverStep (h : Inv size s) : Inv size (receiverStep s) := by
  obtain ⟨⟨hbounds, hbytes⟩, hr, hs⟩ := h
  unfold receiverStep
  unfold ReceiverOk at hr
  split
  · next n hpc =>
    rw [hpc] at hr
    split
    · next hclear =>
      refine ⟨⟨hbounds, ?_⟩, ⟨hclear.2, Nat.zero_le n, hr, rfl⟩, hs⟩
      rw [← hbytes, inHand, inHand, hpc]
      rfl
    · exact ⟨⟨hbounds, hbytes⟩, by rw [ReceiverOk, hpc]; exact hr, hs⟩
  · next n i hpc =>
    rw [hpc] at hr
    obtain ⟨hclear, hi, hn, hread⟩ := hr
    rw [bytes_clear hclear, inHand, hpc] at hbytes
    split
    · next hmore =>
      have hsame : read (Function.update s.uartSendData i (s.recvData i)) 0 (i + 1) = read s.recvData 0 (i + 1) := by
        rw [read_add, read_add, ← hread, Nat.zero_add, read_succ, read_succ, Function.update_self]
        congr 1
        exact read_congr fun j hj => Function.update_of_ne (by omega) _ _
      refine ⟨⟨fun w hw => ?_, (bytes_clear ?_).mpr ?_⟩, ⟨hclear, hmore, hn, hsame⟩, hs⟩
      · obtain hw | hw := List.mem_append.mp hw
        · exact hbounds w hw
        · rw [List.mem_singleton.mp hw]
          exact Nat.lt_succ_of_lt (Nat.lt_of_lt_of_le hmore hn)
      · exact hclear
      · exact hbytes
    · have hall : i = n := by omega
      refine ⟨⟨hbounds, (bytes_clear ?_).mpr ?_⟩, ⟨hclear, hall ▸ hread⟩, hs⟩
      · exact hclear
      · exact hbytes
  · next n hpc =>
    rw [hpc] at hr
    obtain ⟨hclear, hread⟩ := hr
    rw [bytes_clear hclear, inHand, hpc] at hbytes
    refine ⟨⟨hbounds, (bytes_clear ?_).mpr ?_⟩, ⟨hclear, hread, rfl⟩, hs⟩
    · exact hclear
    · exact hbytes
  · next n hpc =>
    rw [hpc] at hr
    obtain ⟨hclear, hread, hlen⟩ := hr
    have hidle := hs.idle hclear
    rw [bytes_clear hclear, inHand, hpc] at hbytes
    refine ⟨⟨hbounds, ?_⟩, trivial, by rw [SenderOk, hidle]; trivial⟩
    rw [inSlot, if_pos rfl, hidle, inHand, List.append_nil]
    change s.out ++ read s.uartSendData 0 s.uartSendLen = _
    rw [hlen, hread]
    exact hbytes
  · exact ⟨⟨hbounds, hbytes⟩, hr, hs⟩

theorem inv_senderStep (h : Inv size s) : Inv size (senderStep s) := by
  obtain ⟨⟨hbounds, hbytes⟩, hr, hs⟩ := h
  unfold senderStep
  unfold SenderOk at hs
  split
  · next hpc =>
    split
    · next hset =>
      refine ⟨⟨hbounds, ?_⟩, hr, hset.2⟩
      rw [inSlot, hpc] at hbytes
      exact hbytes
    · exact ⟨⟨hbounds, hbytes⟩, hr, by rw [SenderOk, hpc]; trivial⟩
  · next hpc =>
    rw [hpc] at hs
    rw [inSlot, hpc] at hbytes
    exact ⟨⟨hbounds, hbytes⟩, hr, hs⟩
  · next hpc =>
    rw [hpc] at hs
    rw [inSlot, hpc] at hbytes
    exact ⟨⟨hbounds, hbytes⟩, hr, hs, Nat.zero_le _⟩
  · next i len hpc =>
    rw [hpc] at hs
    obtain ⟨hset, hi⟩ := hs
    rw [inSlot, hpc, if_pos hset] at hbytes
    split
    · next hmore =>
      refine ⟨⟨hbounds, ?_⟩, hr, hset, hmore⟩
      rw [inSlot, if_pos hset]
      have hsplit : read s.uartSendData i (len - i) = s.uartSendData i :: read s.uartSendData (i + 1) (len - (i + 1)) := by
        rw [← read_succ, show len - (i + 1) + 1 = len - i by omega]
      rw [← hbytes]
      dsimp only
      rw [hsplit, List.append_assoc s.out, List.singleton_append]
      rfl
    · have hall : len - i = 0 := by omega
      refine ⟨⟨hbounds, ?_⟩, hr, hset⟩
      dsimp only at hbytes
      rw [hall] at hbytes
      rw [inSlot, if_pos hset]
      exact hbytes
  · next hpc =>
    rw [hpc] at hs
    rw [inSlot, hpc] at hbytes
    exact ⟨⟨hbounds, hbytes⟩, hr, hs⟩
  · next hpc =>
    rw [hpc] at hs
    rw [inSlot, hpc, if_pos hs] at hbytes
    refine ⟨⟨hbounds, ?_⟩, ?_, trivial⟩
    · rw [inSlot_clear rfl]
      exact hbytes
    · unfold ReceiverOk at hr ⊢
      dsimp only
      split at hr
      · assumption
      · next n i hpc' => exact ⟨rfl, hr.2⟩
      · next n hpc' => exact ⟨rfl, hr.2⟩
      · next n hpc' => exact ⟨rfl, hr.2⟩
      · trivial

theorem read_update_above {m : Nat → UInt8} {n i : Nat} {b : UInt8} (h : n ≤ i) :
    read (Function.update m i b) 0 n = read m 0 n :=
  read_congr fun j hj => Function.update_of_ne (by omega) _ _

/-- A payload with room for its terminator. -/
theorem inv_recvPayload {data : List UInt8} {first : Nat} (hsize : size ≤ maxRecvBufferSize) (h : Inv size s)
    (hpc : s.receiver = .recv) (halloc : s.allocated = true) (hfits : data.length < size) :
    Inv size (recvPayload s data first) := by
  obtain ⟨⟨hbounds, hbytes⟩, -, hs⟩ := h
  have hfilled : read (Function.update (patch s.recvData 0 data) data.length 0) 0 data.length = data := by
    rw [read_update_above (Nat.le_refl _), read_patch]
  rw [inHand, hpc] at hbytes
  unfold recvPayload
  rw [if_pos halloc]
  refine ⟨⟨fun w hw => ?_, ?_⟩, ?_, hs⟩
  · obtain hw | hw := List.mem_append.mp hw
    · exact hbounds w hw
    · obtain ⟨i, hi, rfl⟩ := List.mem_map.mp hw
      exact Nat.lt_of_lt_of_le (List.mem_range.mp hi) hfits
  · rw [List.flatten_append, List.flatten_singleton, ← hbytes, List.append_nil]
    exact congrArg (s.out ++ inSlot s ++ ·) hfilled
  · exact Nat.le_of_lt (Nat.lt_of_lt_of_le hfits hsize)

theorem inv_step {e : Event} (hsize : size ≤ maxRecvBufferSize) (h : Inv size s) (hf : Fits size s e) :
    Inv size (step s e) := by
  cases e with
  | receiver => exact inv_receiverStep h
  | sender => exact inv_senderStep h
  | recv data first =>
    rw [step]
    split
    · next hpc => exact inv_recvPayload hsize h hpc (hf hpc).1 (hf hpc).2
    · exact h
  | begin tcp allocated =>
    rw [step]
    split
    · next hpc =>
      obtain ⟨⟨hbounds, hbytes⟩, -, hs⟩ := h
      rw [inHand, hpc] at hbytes
      exact ⟨⟨hbounds, hbytes⟩, trivial, hs⟩
    · exact h
  | idle bytesRead switched =>
    rw [step]
    split
    · next hend =>
      obtain ⟨⟨hbounds, hbytes⟩, -, hs⟩ := h
      rw [inHand, hend.1] at hbytes
      exact ⟨⟨hbounds, hbytes⟩, trivial, hs⟩
    · exact h

/-- The terminator of any other payload is written outside. -/
theorem fits_of_handed {e : Event} (hp : Possible size s e) (h : Handed size (step s e)) : Fits size s e := by
  cases e with
  | receiver => trivial
  | sender => trivial
  | begin => trivial
  | idle => trivial
  | recv data first =>
    intro hpc
    have hbounds := h.bounds
    unfold step recvPayload at hbounds
    simp only [hpc, if_true] at hbounds
    cases halloc : s.allocated with
    | true =>
      simp only [halloc, if_true] at hbounds
      refine ⟨rfl, hbounds (.recvData data.length) (List.mem_append_right _ ?_)⟩
      exact List.mem_map_of_mem (List.mem_range.mpr (Nat.lt_succ_self _))
    | false =>
      simp only [halloc, Bool.false_eq_true, if_false] at hbounds
      exact absurd (hbounds (.null data.length) (List.mem_append_right _ (List.mem_singleton.mpr rfl))) not_false

end

theorem inv_boot (size : Nat) (recvData uartSendData : Nat → UInt8) : Inv size (.boot recvData uartSendData) := by
  refine ⟨⟨fun w hw => ?_, rfl⟩, trivial, trivial⟩
  exact absurd hw List.not_mem_nil

/-- **Receiving.** For every frame length at boot and every interleaving, the
writes stay inside the two buffers and the payloads reach the UART in order,
exactly if every payload comes into an allocated buffer that it does not fill. -/
theorem net_recv_hands_over (frameLength : UInt16) (recvData uartSendData : Nat → UInt8) {es : List Event}
    (hvalid : Meets step (Possible (loadRecvBufSize frameLength)) (.boot recvData uartSendData) es) :
    (∀ front, front <+: es → Handed (loadRecvBufSize frameLength) (run step (.boot recvData uartSendData) front)) ↔
      Meets step (Fits (loadRecvBufSize frameLength)) (.boot recvData uartSendData) es := by
  have hsize := loadRecvBufSize_le frameLength
  have hiff := meets_iff_of_inv_of_meets (I := Inv (loadRecvBufSize frameLength))
    (fun _ _ h _ hf => inv_step hsize h hf)
    (fun _ _ h hp => ⟨fits_of_handed hp, fun hf => (inv_step hsize h hf).handed⟩)
    (inv_boot _ recvData uartSendData) es hvalid
  rw [prefix_iff_meets, hiff]
  exact and_iff_right (inv_boot _ recvData uartSendData).handed

theorem net_recv_hands_over_two :
    Handed 32 (run step (.boot (fun _ => 0) (fun _ => 0))
      [.begin false true, .recv [65, 66] 2, .receiver, .receiver, .sender, .receiver, .receiver, .receiver, .receiver,
        .sender, .sender]) :=
  (net_recv_hands_over 32 _ _ (by decide)).mpr (by decide) _ List.prefix_rfl

/-- A full payload puts its terminator behind the buffer. -/
theorem full_payload_overflows :
    ¬∀ (frameLength : UInt16) (recvData uartSendData : Nat → UInt8) (es : List Event),
      Meets step (Possible (loadRecvBufSize frameLength)) (.boot recvData uartSendData) es →
        ∀ front, front <+: es → Handed (loadRecvBufSize frameLength) (run step (.boot recvData uartSendData) front) := by
  intro hall
  have h := hall 32 (fun _ => 0) (fun _ => 0) [.begin false true, .recv (List.replicate 32 65) 32] (by decide) _ List.prefix_rfl
  exact Nat.lt_irrefl 32 (h.bounds (.recvData 32) (by decide))

end SerialNet.Uart.NetRecv
