import Mathlib.Algebra.Order.Ring.Nat
import Mathlib.Data.Finset.Card
import Mathlib.Data.List.Dedup
import SerialNet.Lib.Run

/-!
# Ping

`ping.c` over the raw interface of lwIP. A request opens a raw pcb and starts a
timeout, the timeout sends the next echo request until `ping_count` were sent,
and `ping_recv` sees every ICMP packet before the stack does.
-/

namespace SerialNet.Ping

open Run

/-! ## Packet buffers -/

inductive PbufType where
  | ram
  | rom
  | ref
  | pool
  deriving DecidableEq, Repr

/-- `payload` is counted from the end of the buffer's struct, `mem` are the bytes from there on. -/
structure Pbuf where
  type : PbufType
  payload : Nat
  len : UInt16
  totLen : UInt16
  mem : Nat → UInt8

def Pbuf.move (p : Pbuf) (headerSizeIncrement : Int) : Pbuf :=
  { p with
    payload := (p.payload - headerSizeIncrement).toNat
    len := UInt16.ofInt (p.len.toNat + headerSizeIncrement)
    totLen := UInt16.ofInt (p.totLen.toNat + headerSizeIncrement) }

/-- `pbuf_header`: the buffer and the result. -/
def pbufHeader (p : Pbuf) (headerSizeIncrement : Int) : Pbuf × Nat :=
  if headerSizeIncrement = 0 then (p, 0)
  else if headerSizeIncrement < 0 ∧ ¬-headerSizeIncrement ≤ p.len.toNat then (p, 1)
  else
    match p.type with
    | .ram | .pool => if p.payload - headerSizeIncrement < 0 then (p, 1) else (p.move headerSizeIncrement, 0)
    | .ref | .rom => if headerSizeIncrement < 0 then (p.move headerSizeIncrement, 0) else (p, 1)

def Pbuf.half (p : Pbuf) (i : Nat) : UInt16 :=
  UInt16.ofNat ((p.mem (p.payload + i)).toNat + 256 * (p.mem (p.payload + i + 1)).toNat)

def htons (n : UInt16) : UInt16 := ((n &&& 0xff) <<< 8) ||| ((n &&& 0xff00) >>> 8)

def pbufIpHlen : Nat := 20
def sizeofIcmpEchoHdr : Nat := 8

/-! ## The module's variables -/

def pingId : UInt16 := 0xAFAF

inductive Line where
  | pinging (target : UInt32)
  | reply (addr : UInt32) (elapsed : UInt32)
  | statistics (target : UInt32) (sent received lost percent : Int)
  | okPing
  | invalidPingRunning
  deriving DecidableEq, Repr

/-- The statics of `ping.c`, the pcbs and timeouts it has in the stack and what
it printed. `sent` counts the echo requests of the present ping, `answered` are
the ones that were counted as answered. The callback is `NULL` throughout. -/
structure Net where
  sPingTarget : UInt32
  pingSeqNum : UInt16
  pingRecvNum : UInt16
  pingCount : UInt16
  pingTime : UInt32
  pingPcb : Option Nat
  pingFlag : Bool
  rawPcbs : List Nat
  timeouts : List (Option Nat)
  out : List Line
  sent : Nat
  answered : List Nat

def Net.start : Net := ⟨0, 0, 0, 0, 0, none, false, [], [], [], 0, []⟩

def Net.print (s : Net) (lines : List Line) : Net := { s with out := s.out ++ lines }

def mempNumRawPcb : Nat := 4

def rawNew (s : Net) : Net × Option Nat :=
  match (List.range mempNumRawPcb).find? fun pcb => decide (pcb ∉ s.rawPcbs) with
  | some pcb => ({ s with rawPcbs := pcb :: s.rawPcbs }, some pcb)
  | none => (s, none)

def rawRemove (s : Net) (pcb : Option Nat) : Net :=
  match pcb with
  | some pcb => { s with rawPcbs := s.rawPcbs.erase pcb }
  | none => s

/-- `sys_timeout` of `ping_timeout`; `timer` is whether a timeout is left in the pool. -/
def sysTimeout (s : Net) (pcb : Option Nat) (timer : Bool) : Net :=
  if timer then { s with timeouts := s.timeouts ++ [pcb] } else s

/-! ## The functions -/

/-- `ping_send`; `room` is whether `pbuf_alloc` finds memory. -/
def pingSend (s : Net) (addr now : UInt32) (room : Bool) : Net :=
  let s := { s with sPingTarget := addr }
  if room then { s with pingSeqNum := s.pingSeqNum + 1, sent := s.sent + 1, pingTime := now } else s

def isReply (s : Net) (p : Pbuf) : Bool := p.half 4 == pingId && p.half 6 == htons s.pingSeqNum

/-- `ping_recv`: the buffer as it is left, and the result. -/
def pingRecv (s : Net) (p : Pbuf) (addr now : UInt32) : Net × Pbuf × Nat :=
  if p.totLen.toNat ≥ pbufIpHlen + sizeofIcmpEchoHdr then
    match pbufHeader p (-pbufIpHlen) with
    | (p, 0) =>
      if isReply s p then
        (Net.print { s with pingRecvNum := s.pingRecvNum + 1, answered := s.answered ++ [s.sent] }
          [.reply addr (now - s.pingTime)], p, 1)
      else (s, p, 0)
    | (p, _) => (s, p, 0)
  else (s, p, 0)

/-- The loop of `raw_input` over the pcbs, all of them set up by `ping_raw_init`. -/
def rawInput : List Nat → Net → Pbuf → UInt32 → UInt32 → Net × Pbuf × Nat
  | [], s, p, _, _ => (s, p, 0)
  | _ :: pcbs, s, p, addr, now =>
    match pingRecv s p addr now with
    | (s, p, 0) => rawInput pcbs s p addr now
    | (s, p, _) => (s, p, 1)

def pingTimeout (s : Net) (arg : Option Nat) (now : UInt32) (room timer : Bool) : Net :=
  if s.pingCount ≠ 0 ∧ s.pingSeqNum ≥ s.pingCount then
    let seq : Int := s.pingSeqNum.toNat
    let recv : Int := s.pingRecvNum.toNat
    let s := s.print
      [.statistics s.sPingTarget seq recv (seq - recv) (((seq - recv) * 100).tdiv seq), .okPing]
    rawRemove { s with pingFlag := false } s.pingPcb
  else sysTimeout (pingSend s s.sPingTarget now room) arg timer

def pingSendTo (s : Net) (pingTarget now : UInt32) (room : Bool) : Net :=
  pingSend (s.print [.pinging pingTarget]) pingTarget now room

/-- `raw_recv` and `raw_bind` are part of `rawInput`. -/
def pingRawInit (s : Net) (timer : Bool) : Net :=
  let s := { s with pingRecvNum := 0, pingSeqNum := 0, sent := 0, answered := [] }
  let (s, pcb) := rawNew s
  let s := { s with pingPcb := pcb }
  sysTimeout s s.pingPcb timer

def pingInit (s : Net) (count : Int) (timer : Bool) : Net × Int :=
  if s.pingFlag then (s, -1)
  else (pingRawInit { s with pingFlag := true, pingCount := UInt16.ofInt count } timer, 0)

def responsePing (s : Net) (count : Int) (dstipaddr now : UInt32) (room timer : Bool) : Net :=
  match pingInit s count timer with
  | (s, 0) => pingSendTo s dstipaddr now room
  | (s, _) => s.print [.invalidPingRunning]

/-! ## Runs -/

inductive Event where
  | request (count : Int) (dstipaddr now : UInt32) (room timer : Bool)
  | timeout (now : UInt32) (room timer : Bool)
  | packet (p : Pbuf) (addr now : UInt32)

def step (s : Net) : Event → Net
  | .request count dstipaddr now room timer => responsePing s count dstipaddr now room timer
  | .timeout now room timer =>
    match s.timeouts with
    | [] => s
    | arg :: timeouts => pingTimeout { s with timeouts } arg now room timer
  | .packet p addr now => (rawInput s.rawPcbs s p addr now).1

def Plausible : Line → Prop
  | .statistics _ sent received lost percent =>
    0 ≤ received ∧ received ≤ sent ∧ sent ≠ 0 ∧ lost = sent - received ∧ 0 ≤ percent ∧ percent ≤ 100
  | _ => True

structure Books (s : Net) : Prop where
  pcbs : s.rawPcbs.length ≤ 1
  timeouts : s.timeouts.length ≤ 1
  once : s.answered.Nodup
  requested : ∀ k ∈ s.answered, 1 ≤ k ∧ k ≤ s.sent
  printed : ∀ line ∈ s.out, Plausible line

/-- A packet that is not eaten is handed back as it came. -/
def Untouched (s : Net) : Event → Prop
  | .packet p addr now => (rawInput s.rawPcbs s p addr now).2.2 = 0 → (rawInput s.rawPcbs s p addr now).2.1 = p
  | _ => True

/-- No room for an echo header, or the IP header is not in the first buffer. -/
def Short (p : Pbuf) : Prop := p.totLen.toNat < pbufIpHlen + sizeofIcmpEchoHdr ∨ p.len.toNat < pbufIpHlen

instance (p : Pbuf) : Decidable (Short p) := inferInstanceAs (Decidable (_ ∨ _))

/-- The packet is short, or it is the first answer to the last request. -/
def Fits (s : Net) : Event → Prop
  | .packet p _ _ =>
    s.rawPcbs ≠ [] → Short p ∨ (isReply s (p.move (-20)) = true ∧ 1 ≤ s.sent ∧ s.sent ∉ s.answered)
  | _ => True

instance : ∀ s e, Decidable (Fits s e)
  | s, .packet p _ _ =>
    inferInstanceAs (Decidable (s.rawPcbs ≠ [] → Short p ∨
      (isReply s (p.move (-20)) = true ∧ 1 ≤ s.sent ∧ s.sent ∉ s.answered)))
  | _, .request .. => isTrue trivial
  | _, .timeout .. => isTrue trivial

/-! ## One packet -/

section
variable {s : Net} {p : Pbuf} {addr now : UInt32}

theorem pbufHeader_hide : pbufHeader p (-pbufIpHlen) = if p.len.toNat < pbufIpHlen then (p, 1) else (p.move (-20), 0) := by
  have hneg : (-(pbufIpHlen : Int)) < 0 := by decide
  unfold pbufHeader
  rw [if_neg hneg.ne]
  by_cases hlen : p.len.toNat < pbufIpHlen
  · rw [if_pos ⟨hneg, by omega⟩, if_pos hlen]
  · have hroom : ¬((p.payload : Int) - -(pbufIpHlen : Int) < 0) := by omega
    rw [if_neg (by omega), if_neg hlen, if_pos hneg, if_neg hroom]
    cases p.type with
    | ram => rfl
    | rom => rfl
    | ref => rfl
    | pool => rfl

def counted (s : Net) (addr now : UInt32) : Net :=
  Net.print { s with pingRecvNum := s.pingRecvNum + 1, answered := s.answered ++ [s.sent] }
    [.reply addr (now - s.pingTime)]

theorem pingRecv_eq :
    pingRecv s p addr now =
      if Short p then (s, p, 0)
      else if isReply s (p.move (-20)) then (counted s addr now, p.move (-20), 1)
      else (s, p.move (-20), 0) := by
  unfold pingRecv
  rw [pbufHeader_hide]
  by_cases hshort : Short p
  · rw [if_pos hshort]
    by_cases htot : p.totLen.toNat ≥ pbufIpHlen + sizeofIcmpEchoHdr
    · rw [if_pos htot, if_pos (hshort.resolve_left (Nat.not_lt.mpr htot))]
      rfl
    · rw [if_neg htot]
  · obtain ⟨htot, hlen⟩ := not_or.mp hshort
    rw [if_neg hshort, if_pos (Nat.le_of_not_lt htot), if_neg hlen]
    rfl

theorem rawInput_singleton (pcb : Nat) : rawInput [pcb] s p addr now = pingRecv s p addr now := by
  rw [rawInput, pingRecv_eq]
  by_cases hshort : Short p
  · rw [if_pos hshort]
    rfl
  · rw [if_neg hshort]
    cases isReply s (p.move (-20)) with
    | true => rfl
    | false => rfl

end

/-! ## The books -/

/-- What holds between two events while the packets fit. -/
structure Inv (s : Net) : Prop where
  books : Books s
  idle : s.pingFlag = false → s.rawPcbs = [] ∧ s.timeouts = []
  running : s.pingFlag = true → ∃ pcb, s.pingPcb = some pcb ∧ s.rawPcbs = [pcb]
  seqNum : s.pingSeqNum.toNat = s.sent % 2 ^ 16
  recvNum : s.pingRecvNum.toNat = s.answered.length % 2 ^ 16
  bounded : s.pingCount ≠ 0 → s.sent ≤ s.pingCount.toNat

section
variable {s : Net}

theorem inv_start : Inv .start :=
  ⟨⟨Nat.zero_le _, Nat.zero_le _, List.nodup_nil, by simp [Net.start], by simp [Net.start]⟩,
    fun _ => ⟨rfl, rfl⟩, by simp [Net.start], rfl, rfl, by simp [Net.start]⟩

/-- No more requests are answered than were sent. -/
theorem answered_le (h : Books s) : s.answered.length ≤ s.sent := by
  have hsub : s.answered ⊆ List.range' 1 s.sent := fun k hk => by
    have := h.requested k hk
    exact List.mem_range'_1.mpr ⟨this.1, by omega⟩
  simpa using (h.once.subperm hsub).length_le

theorem inv_print {lines : List Line} (h : Inv s) (hl : ∀ line ∈ lines, Plausible line) : Inv (s.print lines) := by
  refine { h with books := { h.books with printed := fun line hline => ?_ } }
  obtain hline | hline := List.mem_append.mp hline
  · exact h.books.printed line hline
  · exact hl line hline

theorem succ_toNat (n : UInt16) : (n + 1).toNat = (n.toNat + 1) % 2 ^ 16 := by
  rw [UInt16.toNat_add]
  rfl

theorem inv_pingSend {addr now : UInt32} {room : Bool} (h : Inv s)
    (hmore : s.pingCount ≠ 0 → s.sent < s.pingCount.toNat) : Inv (pingSend s addr now room) := by
  unfold pingSend
  cases room with
  | false => exact { h with books := { h.books with } }
  | true =>
    refine { h with
      books := { h.books with requested := fun k hk => ?_ }, seqNum := ?_, bounded := fun hcount => hmore hcount }
    · obtain ⟨hone, hle⟩ := h.books.requested k hk
      exact ⟨hone, Nat.le_succ_of_le hle⟩
    · simp only [if_true]
      rw [succ_toNat, h.seqNum, Nat.mod_add_mod]

theorem inv_counted {addr now : UInt32} (h : Inv s) (hone : 1 ≤ s.sent) (hnew : s.sent ∉ s.answered) :
    Inv (counted s addr now) := by
  refine inv_print { h with
    books := { h.books with once := ?_, requested := fun k hk => ?_ }, recvNum := ?_ } (by simp [Plausible])
  · exact List.nodup_append.mpr ⟨h.books.once, List.nodup_singleton _, by
      intro a ha b hb
      rw [List.mem_singleton.mp hb]
      exact fun heq => hnew (heq ▸ ha)⟩
  · obtain hk | hk := List.mem_append.mp hk
    · exact h.books.requested k hk
    · rw [List.mem_singleton.mp hk]
      exact ⟨hone, Nat.le_refl _⟩
  · dsimp only
    rw [succ_toNat, h.recvNum, Nat.mod_add_mod, List.length_append, List.length_singleton]

theorem plausible_statistics (h : Inv s) (hcount : s.pingCount ≠ 0) (hdone : s.pingSeqNum ≥ s.pingCount) (target : UInt32) :
    Plausible (.statistics target s.pingSeqNum.toNat s.pingRecvNum.toNat
      ((s.pingSeqNum.toNat : Int) - s.pingRecvNum.toNat)
      ((((s.pingSeqNum.toNat : Int) - s.pingRecvNum.toNat) * 100).tdiv s.pingSeqNum.toNat)) := by
  have hlt : s.pingCount.toNat < 2 ^ 16 := UInt16.toNat_lt s.pingCount
  have hsent : s.pingSeqNum.toNat = s.sent := by
    rw [h.seqNum, Nat.mod_eq_of_lt (Nat.lt_of_le_of_lt (h.bounded hcount) hlt)]
  have hrecv : s.pingRecvNum.toNat ≤ s.sent := by
    rw [h.recvNum]
    exact Nat.le_trans (Nat.mod_le _ _) (answered_le h.books)
  have hpos : 0 < s.pingSeqNum.toNat := by
    have hle : s.pingCount.toNat ≤ s.pingSeqNum.toNat := UInt16.le_iff_toNat_le.mp hdone
    have hne : s.pingCount.toNat ≠ 0 := fun hzero => hcount (UInt16.toNat_inj.mp hzero)
    omega
  have hpercent : ((s.pingSeqNum.toNat : Int) - s.pingRecvNum.toNat) * 100 =
      ((s.pingSeqNum.toNat - s.pingRecvNum.toNat) * 100 : Nat) := by omega
  refine ⟨Int.natCast_nonneg _, by omega, by omega, rfl, ?_, ?_⟩
  · rw [hpercent, ← Int.ofNat_tdiv]
    exact Int.natCast_nonneg _
  · rw [hpercent, ← Int.ofNat_tdiv]
    have hle : (s.pingSeqNum.toNat - s.pingRecvNum.toNat) * 100 / s.pingSeqNum.toNat ≤ 100 :=
      Nat.div_le_of_le_mul (Nat.mul_le_mul_right 100 (Nat.sub_le _ _))
    exact_mod_cast hle

def opened (s : Net) (count : Int) : Net :=
  { s with
    pingFlag := true, pingCount := UInt16.ofInt count, pingRecvNum := 0, pingSeqNum := 0, sent := 0, answered := []
    rawPcbs := [0], pingPcb := some 0 }

theorem pingInit_eq (hflag : s.pingFlag = false) (hraw : s.rawPcbs = []) (count : Int) (timer : Bool) :
    pingInit s count timer = (sysTimeout (opened s count) (some 0) timer, 0) := by
  unfold pingInit pingRawInit rawNew
  simp only [hflag, hraw]
  rfl

theorem inv_opened (h : Inv s) (hnone : s.timeouts = []) (count : Int) : Inv (opened s count) where
  books := ⟨Nat.le_refl 1, by simp [opened, hnone], List.nodup_nil, by simp [opened], h.books.printed⟩
  idle hidle := by cases hidle
  running _ := ⟨0, rfl, rfl⟩
  seqNum := rfl
  recvNum := rfl
  bounded _ := Nat.zero_le _

theorem sysTimeout_sent {pcb : Option Nat} {timer : Bool} : (sysTimeout s pcb timer).sent = s.sent := by
  cases timer with
  | false => rfl
  | true => rfl

theorem inv_sysTimeout {timer : Bool} (h : Inv s) {pcb : Option Nat} (hflag : s.pingFlag = true)
    (hnone : s.timeouts = []) : Inv (sysTimeout s pcb timer) := by
  unfold sysTimeout
  cases timer with
  | false => exact h
  | true =>
    refine { h with
      books := { h.books with timeouts := ?_ }, idle := fun hidle => ?_ }
    · simp only [if_true, hnone]
      exact Nat.le_refl 1
    · exact absurd (hflag.symm.trans hidle) (by decide)

theorem inv_timeout {arg : Option Nat} {timeouts : List (Option Nat)} {now : UInt32} {room timer : Bool} (h : Inv s)
    (htimeouts : s.timeouts = arg :: timeouts) : Inv (pingTimeout { s with timeouts } arg now room timer) := by
  have hflag : s.pingFlag = true := by
    by_contra hflag
    have := (h.idle (by simpa using hflag)).2
    rw [htimeouts] at this
    cases this
  have hrest : timeouts = [] := by
    have hlen := h.books.timeouts
    rw [htimeouts] at hlen
    exact List.eq_nil_of_length_eq_zero (by simpa using hlen)
  subst hrest
  obtain ⟨pcb, hpcb, hraw⟩ := h.running hflag
  have hpopped : Inv { s with timeouts := [] } :=
    { h with books := { h.books with timeouts := Nat.zero_le _ }, idle := fun hidle => ⟨(h.idle hidle).1, rfl⟩ }
  unfold pingTimeout
  by_cases hdone : s.pingCount ≠ 0 ∧ s.pingSeqNum ≥ s.pingCount
  · rw [if_pos hdone]
    have hlines : ∀ line ∈ [.statistics s.sPingTarget s.pingSeqNum.toNat s.pingRecvNum.toNat
        ((s.pingSeqNum.toNat : Int) - s.pingRecvNum.toNat)
        ((((s.pingSeqNum.toNat : Int) - s.pingRecvNum.toNat) * 100).tdiv s.pingSeqNum.toNat), .okPing],
        Plausible line := by
      simpa [Plausible] using plausible_statistics h hdone.1 hdone.2 s.sPingTarget
    have hprinted := inv_print hpopped hlines
    have hgone : s.rawPcbs.erase pcb = [] := by rw [hraw, List.erase_cons_head]
    unfold rawRemove
    simp only [Net.print, hpcb]
    exact { hprinted with
      books := { hprinted.books with pcbs := by simp [hgone] }, idle := fun _ => ⟨hgone, rfl⟩
      running := fun hflag => by cases hflag }
  · rw [if_neg hdone]
    refine inv_sysTimeout (inv_pingSend hpopped fun hcount => ?_) ?_ ?_
    · have hmore : s.pingSeqNum.toNat < s.pingCount.toNat := by
        have hnot := (not_and.mp hdone) hcount
        exact UInt16.lt_iff_toNat_lt.mp (UInt16.not_le.mp hnot)
      have hle := h.bounded hcount
      have hlt : s.pingCount.toNat < 2 ^ 16 := UInt16.toNat_lt s.pingCount
      have hseq := h.seqNum
      rw [Nat.mod_eq_of_lt (by omega)] at hseq
      exact hseq ▸ hmore
    · cases room with
      | false => exact hflag
      | true => exact hflag
    · cases room with
      | false => rfl
      | true => rfl

/-- A request finds nothing of the last ping. -/
theorem inv_request {count : Int} {dstipaddr now : UInt32} {room timer : Bool} (h : Inv s) :
    Inv (responsePing s count dstipaddr now room timer) := by
  unfold responsePing
  cases hflag : s.pingFlag with
  | true =>
    unfold pingInit
    rw [if_pos hflag]
    exact inv_print h (by simp [Plausible])
  | false =>
    obtain ⟨hraw, hnone⟩ := h.idle hflag
    rw [pingInit_eq hflag hraw]
    have hopened : Inv (sysTimeout (opened s count) (some 0) timer) :=
      inv_sysTimeout (inv_opened h hnone count) rfl hnone
    refine inv_pingSend (inv_print hopened (by simp [Plausible])) fun hcount => ?_
    have hsent : (sysTimeout (opened s count) (some 0) timer).sent = 0 := sysTimeout_sent
    exact hsent.trans_lt (Nat.pos_of_ne_zero fun hzero => hcount (UInt16.toNat_inj.mp hzero))

theorem inv_packet {p : Pbuf} {addr now : UInt32} (h : Inv s) (hf : Fits s (.packet p addr now)) :
    Inv (rawInput s.rawPcbs s p addr now).1 := by
  cases hflag : s.pingFlag with
  | false =>
    rw [(h.idle hflag).1]
    exact h
  | true =>
    obtain ⟨pcb, -, hraw⟩ := h.running hflag
    rw [hraw, rawInput_singleton, pingRecv_eq]
    have hf := hf (by rw [hraw]; exact List.cons_ne_nil _ _)
    split
    · exact h
    · next hlong =>
      obtain ⟨hreply, hone, hnew⟩ := hf.resolve_left hlong
      rw [if_pos hreply]
      exact inv_counted h hone hnew

theorem inv_step {e : Event} (h : Inv s) (hf : Fits s e) : Inv (step s e) := by
  cases e with
  | request count dstipaddr now room timer => exact inv_request h
  | timeout now room timer =>
    unfold step
    cases htimeouts : s.timeouts with
    | nil => exact h
    | cons arg timeouts => exact inv_timeout h htimeouts
  | packet p addr now => exact inv_packet h hf

theorem untouched_of_fits {e : Event} (h : Inv s) (hf : Fits s e) : Untouched s e := by
  cases e with
  | request => trivial
  | timeout => trivial
  | packet p addr now =>
    intro hkept
    cases hflag : s.pingFlag with
    | false => rw [(h.idle hflag).1]; rfl
    | true =>
      obtain ⟨pcb, -, hraw⟩ := h.running hflag
      have hf := hf (by rw [hraw]; exact List.cons_ne_nil _ _)
      rw [hraw, rawInput_singleton, pingRecv_eq] at hkept ⊢
      by_cases hshort : Short p
      · rw [if_pos hshort]
      · obtain ⟨hreply, -⟩ := hf.resolve_left hshort
        rw [if_neg hshort, if_pos hreply] at hkept
        cases hkept

/-- Any other packet is counted twice or handed on without its IP header. -/
theorem fits_of_kept {e : Event} (h : Inv s) (hbooks : Books (step s e)) (hkept : Untouched s e) : Fits s e := by
  cases e with
  | request => trivial
  | timeout => trivial
  | packet p addr now =>
    intro hopen
    by_cases hshort : Short p
    · exact .inl hshort
    · right
      cases hflag : s.pingFlag with
      | false => exact absurd (h.idle hflag).1 hopen
      | true =>
        obtain ⟨pcb, -, hraw⟩ := h.running hflag
        simp only [step, Untouched] at hbooks hkept
        rw [hraw, rawInput_singleton, pingRecv_eq, if_neg hshort] at hbooks hkept
        by_cases hreply : isReply s (p.move (-20)) = true
        · rw [if_pos hreply] at hbooks
          have hone := (hbooks.requested s.sent (List.mem_append_right _ (List.mem_singleton.mpr rfl))).1
          have hnew := List.disjoint_of_nodup_append hbooks.once
          exact ⟨hreply, hone, fun hin => hnew hin (List.mem_singleton.mpr rfl)⟩
        · rw [if_neg hreply] at hkept
          have hmoved : ((p.payload : Int) - -20).toNat = p.payload := congrArg Pbuf.payload (hkept rfl)
          omega

end

/-- **Ping bookkeeping.** In every state of a run there is at most one pcb and
one timeout, no request is counted twice and the statistics add up, and packets
that are not eaten are handed back as they came, exactly if every long packet is
the first answer to the last request. -/
theorem ping_books (es : List Event) :
    ((∀ front, front <+: es → Books (run step .start front)) ∧ Meets step Untouched .start es) ↔
      Meets step Fits .start es := by
  rw [prefix_iff_meets]
  have hiff : Meets step (fun s e => Books (step s e) ∧ Untouched s e) .start es ↔ Meets step Fits .start es :=
    meets_iff_of_inv (I := Inv) (fun _ _ h hf => inv_step h hf)
      (fun _ _ h => ⟨fun hpost => fits_of_kept h hpost.1 hpost.2,
        fun hf => ⟨(inv_step h hf).books, untouched_of_fits h hf⟩⟩) inv_start es
  rw [← hiff, meets_and]
  exact ⟨fun h => ⟨h.1.2, h.2⟩, fun h => ⟨⟨inv_start.books, h.1⟩, h.2⟩⟩

def foreignEcho : Pbuf := ⟨.pool, 0, 60, 60, fun _ => 0⟩

/-- A packet that is not ours comes back without its IP header. -/
theorem foreign_packet_cut :
    ¬∀ es, (∀ front, front <+: es → Books (run step .start front)) ∧ Meets step Untouched .start es := by
  intro hall
  have hkept := (hall [.request 4 1 0 true true, .packet foreignEcho 2 1]).2.2.1
  exact absurd (congrArg Pbuf.payload (hkept (by decide))) (by decide)

end SerialNet.Ping
