import Mathlib.Data.List.TakeWhile
import SerialNet.Dns.Walk
import SerialNet.Lib.Patch

/-!
# What the DNS server replies

The reply buffer while `_DNSAnswerGenAndSend` and `_DNSNameErrGenAndSend` fill
it, the bytes of the message that `DNSS_RecvCb` reads, and when the replies are
the ones a query asks for.
-/

namespace SerialNet.Dns

open Patch

/-! ## The reply buffer -/

/-- `pDnsReply` of `size` bytes, the pointer `Body` as an offset, `Len`, and the offsets written. -/
structure Draft where
  mem : Mem
  size : Nat
  body : Nat
  len : Nat
  stored : List Nat

def Draft.fresh (buf : Mem) (size : Nat) : Draft := ⟨buf, size, 0, 0, []⟩

/-- `NST_MOVE_MEM(Body, src, ..)`, whose length is an `INT16U`, with the moves of `Body` and `Len`. -/
def Draft.put (src : List UInt8) (d : Draft) : Draft :=
  let n := src.length % 2 ^ 16
  { d with
    mem := patch d.mem d.body (src.take n)
    body := d.body + src.length
    len := d.len + src.length
    stored := d.stored ++ List.range' d.body n }

/-- `pbuf_take` of `Len` bytes, an `u16_t`. -/
def Draft.sent (d : Draft) : List UInt8 := read d.mem 0 (d.len % 2 ^ 16)

def roundUp (len : Nat) : Nat := (len + 3) / 4 * 4

/-- The query type and class, as `DnsQuery` holds them. -/
def queryBytes (m : Mem) (len : Nat) : List UInt8 := read m (headerSize + len + 1) 4

def draftNameErr (buf m : Mem) (len : Nat) : Draft :=
  (Draft.fresh buf (roundUp (headerSize + (len + 1) + 4))).put (replyHeader m flag2ErrName 0)
    |>.put (read m headerSize (len + 1)) |>.put (queryBytes m len)

/-- The buffer of `_DNSAnswerGenAndSend`: name, type and class, time to live, length, address. -/
def draftAnswer (srv : DnsServer) (buf m : Mem) (len : Nat) : Draft :=
  (Draft.fresh buf (roundUp (headerSize + (len + 1) + 4 + 2 + 8 + 2 + 4))).put (replyHeader m flag2ErrNone 1)
    |>.put (read m headerSize (len + 1)) |>.put (queryBytes m len)
    |>.put [0xc0, 12] |>.put [0, 1, 0, 1, 0, 0, 0x0e, 0x10] |>.put [0, 4] |>.put srv.hostIp.toList

/-! ## The callback -/

section
variable (srv : DnsServer) (msg : List UInt8) (alloc : Alloc) (outMsg outSrv : Mem)

/-- The offsets of the message that the callback and the functions it calls read, those of the comparison apart. -/
def dnssRecvReads : List Nat :=
  if alloc.message = false then []
  else
    2 :: if ¬headerOk (messageMem msg outMsg) then []
    else
      let len := nameLen msg outMsg
      strlenReads headerSize len ++ List.range' (headerSize + len + 1) 4 ++
        if ¬questionOk (messageMem msg outMsg) len then []
        else
          match compared srv msg outMsg outSrv with
          | none => []
          | some _ => [0, 1] ++ strlenReads headerSize len

/-- The buffer that is filled once it is allocated, and whether it is an address answer. -/
def dnssRecvDraft (buf : Mem) : Option (Bool × Draft) :=
  if alloc.message = false then none
  else if ¬headerOk (messageMem msg outMsg) then none
  else if ¬questionOk (messageMem msg outMsg) (nameLen msg outMsg) then none
  else
    match compared srv msg outMsg outSrv with
    | none => none
    | some (ret, _) =>
      some (if ret ≠ 0 then (false, draftNameErr buf (messageMem msg outMsg) (nameLen msg outMsg))
        else (true, draftAnswer srv buf (messageMem msg outMsg) (nameLen msg outMsg)))

end

/-! ## What a reply has to be -/

def questionName (msg : List UInt8) : List UInt8 := (msg.drop headerSize).takeWhile (· != 0)

/-- The name with its zero, the type and the class. -/
def questionBytes (msg : List UInt8) : List UInt8 := (msg.drop headerSize).take ((questionName msg).length + 1 + 4)

def AsksAddress (msg : List UInt8) : Prop := (msg.drop (headerSize + (questionName msg).length + 1)).take 4 = [0, 1, 0, 1]

def expectedReply (srv : DnsServer) (msg : List UInt8) (answer : Bool) : List UInt8 :=
  msg.take 2 ++ [0x80, if answer then 0 else 3, 0, 1, 0, if answer then 1 else 0, 0, 0, 0, 0] ++ questionBytes msg ++
    if answer then [0xC0, 0x0C, 0, 1, 0, 1, 0, 0, 0x0e, 0x10, 0, 4] ++ srv.hostIp.toList else []

section
variable (srv : DnsServer) (msg : List UInt8) (alloc : Alloc) (outMsg outSrv buf : Mem)

/-- The callback stays inside the message and the reply buffer, and replies what the query asks for. -/
structure RepliesWell : Prop where
  reads : ∀ a ∈ dnssRecvReads srv msg alloc outMsg outSrv, a < msg.length
  compared : ∀ o, (dnssRecvCb srv msg alloc outMsg outSrv).2 = some o →
    ∃ ret s, o = some (ret, s) ∧ ∀ a ∈ s.queryReads, a < msg.length
  inside : ∀ answer d, dnssRecvDraft srv msg alloc outMsg outSrv buf = some (answer, d) → ∀ i ∈ d.stored, i < d.size
  complete : ∀ answer d, dnssRecvDraft srv msg alloc outMsg outSrv buf = some (answer, d) →
    ∀ i, i ∈ d.stored ↔ i < d.sent.length
  question : ∀ r, dnssRecvDraft srv msg alloc outMsg outSrv buf = some r →
    headerSize + (questionName msg).length + 4 < msg.length
  bytes : ∀ answer d, dnssRecvDraft srv msg alloc outMsg outSrv buf = some (answer, d) → d.sent = expectedReply srv msg answer
  address : ∀ d, alloc.reply = true → dnssRecvDraft srv msg alloc outMsg outSrv buf = some (true, d) → AsksAddress msg

end

/-! ## The messages that are handled well -/

def countedName (msg : List UInt8) : List UInt8 := (questionName msg).take Util.strlenMax

/-- The labels of a standard query are followed: its type or class is served, and its name has a length that may match. -/
structure Walked (msg : List UInt8) (m : Mem) : Prop where
  query : headerOk m
  served : questionOk m (questionName msg).length
  nonempty : questionName msg ≠ []
  short : (questionName msg).length ≤ maxName + 1

/-- The messages that reach no byte behind their end, whose name `strlen` counts
whole when they are served, and that ask for an address where their name is the
configured one. -/
structure Decodable (srv : DnsServer) (msg : List UInt8) (alloc : Alloc) (outMsg outSrv : Mem) : Prop where
  flags : 2 < msg.length
  question : headerOk (messageMem msg outMsg) → headerSize + (countedName msg).length + 4 < msg.length
  whole : headerOk (messageMem msg outMsg) → questionOk (messageMem msg outMsg) (countedName msg).length →
    (questionName msg).length ≤ Util.strlenMax
  stops : Walked msg (messageMem msg outMsg) → ∃ equal, StopsFirst (srv.mem outSrv) (msg.drop headerSize) equal
  address : Walked msg (messageMem msg outMsg) → alloc.reply = true →
    StopsFirst (srv.mem outSrv) (msg.drop headerSize) true → AsksAddress msg

/-! ## Filling the buffer -/

structure Draft.Built (d : Draft) (l : List UInt8) : Prop where
  mem : read d.mem 0 l.length = l
  body : d.body = l.length
  len : d.len = l.length
  stored : ∀ i, i ∈ d.stored ↔ i < l.length

section
variable {d : Draft} {l src : List UInt8} {buf m : Mem} {size len : Nat}

theorem built_fresh : (Draft.fresh buf size).Built [] :=
  ⟨rfl, rfl, rfl, fun _ => iff_of_false List.not_mem_nil (Nat.not_lt_zero _)⟩

theorem Draft.Built.put (h : d.Built l) (hlen : src.length < 2 ^ 16) : (d.put src).Built (l ++ src) := by
  have hn : src.length % 2 ^ 16 = src.length := Nat.mod_eq_of_lt hlen
  refine ⟨?_, ?_, ?_, fun i => ?_⟩
  · simp only [Draft.put, hn, List.take_length, List.length_append, read_add, h.body]
    have hbelow : read (patch d.mem l.length src) 0 l.length = read d.mem 0 l.length :=
      read_congr fun i hi => patch_below (by omega)
    rw [Nat.zero_add, read_patch, hbelow, h.mem]
  · simp only [Draft.put, List.length_append, h.body]
  · simp only [Draft.put, List.length_append, h.len]
  · simp only [Draft.put, hn, List.mem_append, h.stored, List.mem_range'_1, List.length_append, h.body]
    omega

theorem Draft.Built.sent (h : d.Built l) (hlen : l.length < 2 ^ 16) : d.sent = l := by
  rw [Draft.sent, h.len, Nat.mod_eq_of_lt hlen, h.mem]

theorem question_eq : question m len = read m headerSize (len + 1) ++ queryBytes m len := by
  have hread : question m len = read m headerSize (len + 1 + 4) := by
    refine List.ext_getElem (by simp [question]) fun i h1 h2 => ?_
    rw [getElem_read]
    simp [question]
  rw [hread, read_add]
  rfl

theorem built_question {flag2 answers : UInt8} (hlen : len ≤ Util.strlenMax) :
    ((((Draft.fresh buf size).put (replyHeader m flag2 answers)).put (read m headerSize (len + 1))).put
      (queryBytes m len)).Built (replyHeader m flag2 answers ++ question m len) := by
  have hhead : (replyHeader m flag2 answers).length < 2 ^ 16 := show 12 < 2 ^ 16 by decide
  have hname : (read m headerSize (len + 1)).length < 2 ^ 16 := by
    rw [length_read]
    exact Nat.lt_of_le_of_lt (Nat.succ_le_succ hlen) (by decide)
  have hquery : (queryBytes m len).length < 2 ^ 16 := by
    rw [queryBytes, length_read]
    decide
  rw [question_eq, ← List.append_assoc]
  exact ((built_fresh.put hhead).put hname).put hquery

theorem draftNameErr_built (hlen : len ≤ Util.strlenMax) : (draftNameErr buf m len).Built (dnsNameErrGen m len) :=
  built_question hlen

theorem draftAnswer_built {srv : DnsServer} (hlen : len ≤ Util.strlenMax) :
    (draftAnswer srv buf m len).Built (dnsAnswerGen srv m len) := by
  have hip : srv.hostIp.toList.length < 2 ^ 16 := by
    rw [Vector.length_toList]
    decide
  have hname : ([0xc0, 12] : List UInt8).length < 2 ^ 16 := by decide
  have hfields : ([0, 1, 0, 1, 0, 0, 0x0e, 0x10] : List UInt8).length < 2 ^ 16 := by decide
  have haddrLen : ([0, 4] : List UInt8).length < 2 ^ 16 := by decide
  have hquestion := @built_question buf m (roundUp (headerSize + (len + 1) + 4 + 2 + 8 + 2 + 4)) len flag2ErrNone 1 hlen
  have h := (((hquestion.put hname).put hfields).put haddrLen).put hip
  rw [List.append_assoc (_ ++ question m len), List.append_assoc (_ ++ question m len)] at h
  exact h

theorem length_dnsNameErrGen : (dnsNameErrGen m len).length = len + 17 := by
  simp [dnsNameErrGen, replyHeader, question]

theorem length_dnsAnswerGen {srv : DnsServer} : (dnsAnswerGen srv m len).length = len + 33 := by
  simp [dnsAnswerGen, replyHeader, question]

end

/-! ## The question -/

theorem getElem_takeWhile_length {l : List UInt8} (h : (l.takeWhile (· != 0)).length < l.length) :
    l[(l.takeWhile (· != 0)).length] = 0 := by
  induction l with
  | nil => cases h
  | cons c l ih =>
    by_cases hc : c = 0
    · subst hc
      rfl
    · have htake : (c :: l).takeWhile (· != 0) = c :: l.takeWhile (· != 0) :=
        List.takeWhile_cons_of_pos (bne_iff_ne.mpr hc)
      simp only [htake, List.length_cons, List.getElem_cons_succ]
      rw [htake, List.length_cons, List.length_cons] at h
      exact ih (Nat.lt_of_succ_lt_succ h)

section
variable {srv : DnsServer} {msg : List UInt8} {alloc : Alloc} {outMsg outSrv buf : Mem} {len : Nat}

theorem messageMem_eq {i : Nat} (h : i < msg.length) : messageMem msg outMsg i = msg[i] := by
  rw [messageMem, List.getD_eq_getElem?_getD, List.getElem?_eq_getElem h, Option.getD_some]

theorem read_message {a n : Nat} (h : a + n ≤ msg.length) : read (messageMem msg outMsg) a n = (msg.drop a).take n := by
  refine List.ext_getElem (by simp; omega) fun i h1 h2 => ?_
  rw [length_read] at h1
  rw [getElem_read, messageMem_eq (by omega)]
  simp

theorem messageMem_question {k : Nat} (hk : k < (msg.drop headerSize).length) :
    messageMem msg outMsg (headerSize + k) = (msg.drop headerSize)[k] := by
  rw [List.length_drop] at hk
  rw [messageMem_eq (by omega), List.getElem_drop]

theorem questionName_ne_zero {k : Nat} (hk : k < (questionName msg).length) : messageMem msg outMsg (headerSize + k) ≠ 0 := by
  have hfront : questionName msg <+: msg.drop headerSize := List.takeWhile_prefix _
  rw [messageMem_question (Nat.lt_of_lt_of_le hk hfront.length_le), ← hfront.getElem hk]
  have hmem : (questionName msg)[k] ∈ questionName msg := List.getElem_mem hk
  simpa using List.mem_takeWhile_imp hmem

/-- Behind the name is its zero, if the message goes on there. -/
theorem questionName_ended (h : headerSize + (questionName msg).length < msg.length) :
    messageMem msg outMsg (headerSize + (questionName msg).length) = 0 := by
  have hlt : (questionName msg).length < (msg.drop headerSize).length := by
    rw [List.length_drop]
    omega
  rw [messageMem_question hlt]
  exact getElem_takeWhile_length hlt

theorem length_countedName : (countedName msg).length = min Util.strlenMax (questionName msg).length := List.length_take

/-- Where either stays in the message, `strlen` counts the name as far as it can. -/
theorem nameLen_eq (h : headerSize + nameLen msg outMsg < msg.length ∨ headerSize + (countedName msg).length < msg.length) :
    nameLen msg outMsg = (countedName msg).length := by
  have hle : (questionName msg).length ≤ (msg.drop headerSize).length := (List.takeWhile_sublist _).length_le
  rw [List.length_drop] at hle
  rw [length_countedName] at h ⊢
  refine Util.strlen_eq (fun i hi => questionName_ne_zero (by omega)) (Nat.min_le_left _ _) ?_
  rcases Nat.lt_or_ge (questionName msg).length Util.strlenMax with hlt | hge
  · rw [Nat.min_eq_right (Nat.le_of_lt hlt)] at h ⊢
    refine .inl (questionName_ended (h.elim (fun h => ?_) id))
    have hmax : nameLen msg outMsg ≤ Util.strlenMax := Util.strlen_le
    rcases Nat.lt_or_eq_of_le hmax with hmax | hmax
    · refine Nat.lt_of_le_of_lt (Nat.add_le_add_left (Nat.le_of_not_lt fun hin => ?_) _) h
      exact questionName_ne_zero hin (Util.strlen_zero hmax)
    · omega
  · exact .inr (Nat.min_eq_left hge)

/-! ## The comparison -/

theorem within_firstCmp (hend : headerSize + nameLen msg outMsg < msg.length) :
    Within (msg.drop headerSize).length (firstCmp (nameLen msg outMsg)) := by
  intro a ha
  obtain ⟨k, hk, rfl⟩ := List.mem_map.mp ha
  have := List.mem_range.mp hk
  rw [List.length_drop]
  omega

/-- A name that is too short or too long ends the comparison at once. -/
theorem ends_short (hend : headerSize + nameLen msg outMsg < msg.length)
    (hshort : nameLen msg outMsg = 0 ∨ maxName + 1 < nameLen msg outMsg) :
    Ends (msg.drop headerSize).length (compared srv msg outMsg outSrv) false := by
  rw [compared_short hshort, ends_some]
  exact ⟨by decide, within_firstCmp hend⟩

theorem ends_compared (hend : headerSize + nameLen msg outMsg < msg.length) (h0 : nameLen msg outMsg ≠ 0)
    (hle : nameLen msg outMsg ≤ maxName + 1) {equal : Bool} :
    Ends (msg.drop headerSize).length (compared srv msg outMsg outSrv) equal ↔
      StopsFirst (srv.mem outSrv) (msg.drop headerSize) equal := by
  have hlt : nameLen msg outMsg < (msg.drop headerSize).length := by
    rw [List.length_drop]
    omega
  rw [compared_eq h0 hle, compareLabels_succ]
  obtain ⟨b, q, hq⟩ : ∃ b q, msg.drop headerSize = b :: q := List.exists_cons_of_length_pos (by omega)
  obtain ⟨hpos, hb, hq₁⟩ := of_drop_eq_cons (k := 0) hq
  have hread : messageMem msg outMsg (firstCmp (nameLen msg outMsg)).query = b := by
    rw [← hb]
    exact messageMem_question hpos
  have henter : Within (msg.drop headerSize).length (firstCmp (nameLen msg outMsg)).enter :=
    within_enter.mpr ⟨Nat.lt_add_of_pos_right hpos, within_firstCmp hend⟩
  have hstops : StopsFirst (srv.mem outSrv) (msg.drop headerSize) equal ↔
      (isPointer b ∧ (equal = true ↔ srv.mem outSrv (nameAt - 1) = 0)) ∨
        (¬isPointer b ∧ Stops (srv.mem outSrv) nameAt b.toNat q equal) := by rw [hq]; rfl
  rw [hread, hstops]
  by_cases hp : isPointer b
  · rw [if_pos hp, ends_compareEnd]
    exact ⟨fun h => .inl ⟨hp, h.1⟩, fun h => ⟨(h.resolve_right fun h => h.1 hp).2, henter⟩⟩
  · have hwalk := @ends_compareFrom (srv.mem outSrv) (messageMem msg outMsg) equal _ (fun k hk => messageMem_question hk)
      msg.length b.toNat nameAt 1 _ rfl rfl henter (by rw [List.length_drop]; omega)
    rw [if_neg hp, hwalk, hq₁]
    exact ⟨fun h => .inr ⟨hp, h⟩, fun h => (h.resolve_left fun h => hp h.1).2⟩

/-- The reads of the comparison, counted from the start of the message. -/
theorem ends_iff (hlen : headerSize ≤ msg.length) {o : Option (Int × Cmp)} :
    (∃ equal, Ends (msg.drop headerSize).length o equal) ↔ ∃ ret s, o = some (ret, s) ∧ ∀ a ∈ s.queryReads, a < msg.length := by
  have hadd : headerSize + (msg.drop headerSize).length = msg.length := by
    rw [List.length_drop]
    omega
  simp only [Ends, Within, hadd]
  constructor
  · rintro ⟨equal, ret, s, ho, -, hw⟩
    exact ⟨ret, s, ho, hw⟩
  · rintro ⟨ret, s, ho, hw⟩
    exact ⟨decide (ret = 0), ret, s, ho, decide_eq_true_iff, hw⟩

theorem nameLen_of_equal {s : Cmp} (h : compared srv msg outMsg outSrv = some (0, s)) :
    nameLen msg outMsg ≠ 0 ∧ nameLen msg outMsg ≤ maxName + 1 := by
  by_contra hno
  rw [compared_short (by omega)] at h
  cases h

/-! ## Well-formed replies -/

/-- The draft of a reply, once the comparison returned `ret`. -/
def draftFor (srv : DnsServer) (buf m : Mem) (len : Nat) (ret : Int) : Bool × Draft :=
  if ret ≠ 0 then (false, draftNameErr buf m len) else (true, draftAnswer srv buf m len)

def replyBytes (srv : DnsServer) (m : Mem) (len : Nat) (answer : Bool) : List UInt8 :=
  if answer then dnsAnswerGen srv m len else dnsNameErrGen m len

theorem dnssRecvDraft_eq_some {r : Bool × Draft} (h : dnssRecvDraft srv msg alloc outMsg outSrv buf = some r) :
    alloc.message = true ∧ headerOk (messageMem msg outMsg) ∧ questionOk (messageMem msg outMsg) (nameLen msg outMsg) ∧
      ∃ ret s, compared srv msg outMsg outSrv = some (ret, s) ∧
        r = draftFor srv buf (messageMem msg outMsg) (nameLen msg outMsg) ret := by
  unfold dnssRecvDraft at h
  split at h
  · cases h
  · rename_i hmsg
    split at h
    · cases h
    · rename_i hok
      split at h
      · cases h
      · rename_i hq
        split at h
        · cases h
        · rename_i ret s hc
          refine ⟨by simpa using hmsg, Decidable.not_not.mp hok, Decidable.not_not.mp hq, ret, s, hc, ?_⟩
          exact (Option.some.inj h).symm

theorem dnssRecvDraft_of {ret : Int} {s : Cmp} (hmsg : alloc.message = true) (hok : headerOk (messageMem msg outMsg))
    (hq : questionOk (messageMem msg outMsg) (nameLen msg outMsg)) (hc : compared srv msg outMsg outSrv = some (ret, s)) :
    dnssRecvDraft srv msg alloc outMsg outSrv buf =
      some (draftFor srv buf (messageMem msg outMsg) (nameLen msg outMsg) ret) := by
  rw [dnssRecvDraft, if_neg (by simp [hmsg]), if_neg (not_not_intro hok), if_neg (not_not_intro hq), hc]
  rfl

theorem Draft.Built.right {d : Draft} {l : List UInt8} (h : d.Built l) (hlen : l.length < 2 ^ 16) (hsize : l.length ≤ d.size) :
    (∀ i ∈ d.stored, i < d.size) ∧ (∀ i, i ∈ d.stored ↔ i < d.sent.length) ∧ d.sent = l := by
  rw [h.sent hlen]
  exact ⟨fun i hi => Nat.lt_of_lt_of_le ((h.stored i).mp hi) hsize, h.stored, rfl⟩

theorem le_roundUp (n : Nat) : n ≤ roundUp n := by
  unfold roundUp
  omega

/-- A draft stays in its buffer and holds the bytes of its reply. -/
theorem draftFor_right {m : Mem} {ret : Int} (hlen : len ≤ Util.strlenMax) {answer : Bool} {d : Draft}
    (hd : draftFor srv buf m len ret = (answer, d)) :
    (∀ i ∈ d.stored, i < d.size) ∧ (∀ i, i ∈ d.stored ↔ i < d.sent.length) ∧ d.sent = replyBytes srv m len answer := by
  have hmax : Util.strlenMax = 4095 := rfl
  have hhead : headerSize = 12 := rfl
  unfold draftFor at hd
  split at hd
  · obtain ⟨rfl, rfl⟩ := Prod.mk.inj hd
    refine (draftNameErr_built hlen).right (by rw [length_dnsNameErrGen]; omega) ?_
    rw [length_dnsNameErrGen]
    have hsize : (draftNameErr buf m len).size = roundUp (headerSize + (len + 1) + 4) := rfl
    have := le_roundUp (headerSize + (len + 1) + 4)
    omega
  · obtain ⟨rfl, rfl⟩ := Prod.mk.inj hd
    refine (draftAnswer_built hlen).right (by rw [length_dnsAnswerGen]; omega) ?_
    rw [length_dnsAnswerGen]
    have hsize : (draftAnswer srv buf m len).size = roundUp (headerSize + (len + 1) + 4 + 2 + 8 + 2 + 4) := rfl
    have := le_roundUp (headerSize + (len + 1) + 4 + 2 + 8 + 2 + 4)
    omega

theorem draft_right {answer : Bool} {d : Draft} (h : dnssRecvDraft srv msg alloc outMsg outSrv buf = some (answer, d)) :
    (∀ i ∈ d.stored, i < d.size) ∧ (∀ i, i ∈ d.stored ↔ i < d.sent.length) ∧
      d.sent = replyBytes srv (messageMem msg outMsg) (nameLen msg outMsg) answer := by
  obtain ⟨-, -, -, ret, s, -, hr⟩ := dnssRecvDraft_eq_some h
  exact draftFor_right Util.strlen_le hr.symm

/-- The draft of an address answer comes from a name that compared equal. -/
theorem answer_compared {d : Draft} (h : dnssRecvDraft srv msg alloc outMsg outSrv buf = some (true, d)) :
    ∃ s, compared srv msg outMsg outSrv = some (0, s) := by
  obtain ⟨-, -, -, ret, s, hc, hr⟩ := dnssRecvDraft_eq_some h
  have h0 : ret = 0 := by
    by_contra h0
    rw [draftFor, if_pos h0] at hr
    cases hr
  exact ⟨s, h0 ▸ hc⟩

theorem dnssRecvCb_sent : (dnssRecvCb srv msg alloc outMsg outSrv).1 =
      if alloc.reply then
        (dnssRecvDraft srv msg alloc outMsg outSrv buf).map fun r =>
          if r.1 then .answer r.2.sent else .nameErr r.2.sent
      else none := by
  by_cases hserved : alloc.message = true ∧ headerOk (messageMem msg outMsg) ∧
      questionOk (messageMem msg outMsg) (nameLen msg outMsg)
  · obtain ⟨hm, hok, hq⟩ := hserved
    rw [dnssRecvCb_eq srv outSrv hm hok hq]
    cases hc : compared srv msg outMsg outSrv with
    | none =>
      have hdraft : dnssRecvDraft srv msg alloc outMsg outSrv buf = none := by
        simp only [dnssRecvDraft, hm, hok, hq, hc, not_true_eq_false, if_false, Bool.true_eq_false]
      rw [hdraft]
      exact (ite_self none).symm
    | some o =>
      obtain ⟨ret, s⟩ := o
      obtain ⟨answer, d, hr⟩ : ∃ answer d, draftFor srv buf (messageMem msg outMsg) (nameLen msg outMsg) ret = (answer, d) :=
        ⟨_, _, rfl⟩
      obtain ⟨-, -, hsent⟩ := draftFor_right Util.strlen_le hr
      rw [dnssRecvDraft_of hm hok hq hc, hr, Option.map_some, hsent, replyAfter, replyTo]
      unfold draftFor at hr
      split at hr
      · rename_i h0
        rw [← (Prod.mk.inj hr).1, if_pos h0]
        rfl
      · rename_i h0
        rw [← (Prod.mk.inj hr).1, if_neg h0]
        rfl
  · have hdraft : dnssRecvDraft srv msg alloc outMsg outSrv buf = none := by
      refine Option.eq_none_iff_forall_ne_some.mpr fun r hr => hserved ?_
      obtain ⟨hm, hok, hq, -⟩ := dnssRecvDraft_eq_some hr
      exact ⟨hm, hok, hq⟩
    have hreply : (dnssRecvCb srv msg alloc outMsg outSrv).1 = none := by
      unfold dnssRecvCb
      split
      · rfl
      · rename_i hm
        dsimp only
        split
        · rfl
        · rename_i hok
          split
          · rfl
          · rename_i hq
            exact absurd ⟨by simpa using hm, Decidable.not_not.mp hok, Decidable.not_not.mp hq⟩ hserved
    rw [hdraft, hreply]
    exact (ite_self none).symm

/-- The bytes of a reply to a name that is counted whole are those asked for. -/
theorem replyBytes_eq (hname : nameLen msg outMsg = (questionName msg).length)
    (hend : headerSize + (questionName msg).length + 4 < msg.length) (answer : Bool) :
    replyBytes srv (messageMem msg outMsg) (nameLen msg outMsg) answer = expectedReply srv msg answer := by
  have hid : msg.take 2 = [messageMem msg outMsg 0, messageMem msg outMsg 1] := by
    have h2 := @read_message msg outMsg 0 2 (by omega)
    rw [List.drop_zero] at h2
    exact h2.symm
  have hquestion : question (messageMem msg outMsg) (nameLen msg outMsg) = questionBytes msg := by
    have hread := @read_message msg outMsg headerSize (nameLen msg outMsg + 1 + 4) (by omega)
    rw [read_add] at hread
    rw [question_eq, questionBytes, ← hname, ← hread]
    rfl
  cases answer with
  | true =>
    rw [replyBytes, if_pos rfl, dnsAnswerGen, hquestion, expectedReply, hid, List.append_assoc _ _ srv.hostIp.toList]
    rfl
  | false =>
    rw [replyBytes, if_neg Bool.false_ne_true, dnsNameErrGen, hquestion, expectedReply, hid]
    exact (List.append_nil _).symm

/-- A reply as long as the one asked for repeats the whole name. -/
theorem whole_of_sent (hend : headerSize + (questionName msg).length + 4 < msg.length) {answer : Bool}
    (h : replyBytes srv (messageMem msg outMsg) (nameLen msg outMsg) answer = expectedReply srv msg answer) :
    nameLen msg outMsg = (questionName msg).length := by
  have hlen := congrArg List.length h
  have hquestion : (questionBytes msg).length = (questionName msg).length + 1 + 4 := by
    rw [questionBytes, List.length_take, List.length_drop]
    omega
  have hid : (msg.take 2).length = 2 := by
    rw [List.length_take]
    omega
  cases answer with
  | true =>
    rw [replyBytes, if_pos rfl, length_dnsAnswerGen] at hlen
    simp only [expectedReply, List.length_append, hquestion, hid, List.length_cons, List.length_nil, if_true,
      Vector.length_toList] at hlen
    omega
  | false =>
    rw [replyBytes, if_neg Bool.false_ne_true, length_dnsNameErrGen] at hlen
    simp only [expectedReply, List.length_append, hquestion, hid, List.length_cons, List.length_nil, Bool.false_eq_true,
      if_false] at hlen
    omega

/-! ## When the replies are well formed -/

theorem dnssRecvCb_compared (hmsg : alloc.message = true) (hok : headerOk (messageMem msg outMsg))
    (hq : questionOk (messageMem msg outMsg) (nameLen msg outMsg)) :
    (dnssRecvCb srv msg alloc outMsg outSrv).2 = some (compared srv msg outMsg outSrv) := by
  rw [dnssRecvCb_eq srv outSrv hmsg hok hq]

theorem dnssRecvReads_served (hmsg : alloc.message = true) (hok : headerOk (messageMem msg outMsg)) :
    dnssRecvReads srv msg alloc outMsg outSrv = 2 :: (strlenReads headerSize (nameLen msg outMsg) ++
      List.range' (headerSize + nameLen msg outMsg + 1) 4 ++
        if ¬questionOk (messageMem msg outMsg) (nameLen msg outMsg) then []
        else
          match compared srv msg outMsg outSrv with
          | none => []
          | some _ => [0, 1] ++ strlenReads headerSize (nameLen msg outMsg)) := by
  rw [dnssRecvReads, if_neg (by simp [hmsg]), if_neg (not_not_intro hok)]

theorem Walked.counted {m : Mem} (h : Walked msg m) : (countedName msg).length = (questionName msg).length := by
  rw [length_countedName]
  exact Nat.min_eq_right (Nat.le_trans h.short (by decide))

theorem Walked.length_ne {m : Mem} (h : Walked msg m) : (questionName msg).length ≠ 0 :=
  Nat.ne_of_gt (List.length_pos_iff.mpr h.nonempty)

theorem decodable_of_well (hmsg : alloc.message = true)
    (h : RepliesWell srv msg alloc outMsg outSrv buf) : Decodable srv msg alloc outMsg outSrv := by
  have hend : headerOk (messageMem msg outMsg) → headerSize + nameLen msg outMsg + 4 < msg.length := by
    intro hok
    refine h.reads _ ?_
    rw [dnssRecvReads_served hmsg hok]
    refine List.mem_cons_of_mem _ (List.mem_append_left _ (List.mem_append_right _ ?_))
    rw [List.mem_range'_1]
    omega
  have hname : headerOk (messageMem msg outMsg) → nameLen msg outMsg = (countedName msg).length := fun hok =>
    nameLen_eq (.inl (by have := hend hok; omega))
  -- a served query has its comparison end, and a draft built
  have hdraft : headerOk (messageMem msg outMsg) → questionOk (messageMem msg outMsg) (nameLen msg outMsg) →
      ∃ ret s, compared srv msg outMsg outSrv = some (ret, s) ∧ dnssRecvDraft srv msg alloc outMsg outSrv buf =
        some (draftFor srv buf (messageMem msg outMsg) (nameLen msg outMsg) ret) := by
    intro hok hq
    obtain ⟨ret, s, hc, -⟩ := h.compared _ (dnssRecvCb_compared hmsg hok hq)
    exact ⟨ret, s, hc, dnssRecvDraft_of hmsg hok hq hc⟩
  refine ⟨?_, fun hok => ?_, fun hok hq => ?_, fun hw => ?_, fun hw hreply hequal => ?_⟩
  · refine h.reads 2 ?_
    rw [dnssRecvReads, if_neg (by simp [hmsg])]
    exact List.mem_cons_self
  · rw [← hname hok]
    exact hend hok
  · rw [← hname hok] at hq
    obtain ⟨ret, s, -, hd⟩ := hdraft hok hq
    obtain ⟨answer, d, hr⟩ : ∃ answer d, draftFor srv buf (messageMem msg outMsg) (nameLen msg outMsg) ret = (answer, d) :=
      ⟨_, _, rfl⟩
    rw [hr] at hd
    obtain ⟨-, -, hsent⟩ := draft_right hd
    rw [← whole_of_sent (h.question _ hd) (hsent.symm.trans (h.bytes _ _ hd))]
    exact Util.strlen_le
  · have hcount := (hname hw.query).trans hw.counted
    have hq := hw.served
    rw [← hcount] at hq
    have hin := hend hw.query
    obtain ⟨equal, hends⟩ := (ends_iff (by omega)).mpr (h.compared _ (dnssRecvCb_compared hmsg hw.query hq))
    exact ⟨equal, (ends_compared (by omega) (hcount ▸ hw.length_ne) (hcount ▸ hw.short)).mp hends⟩
  · have hcount := (hname hw.query).trans hw.counted
    have hq := hw.served
    rw [← hcount] at hq
    have hin := hend hw.query
    obtain ⟨ret, s, hc, hret, -⟩ :=
      (ends_compared (by omega) (hcount ▸ hw.length_ne) (hcount ▸ hw.short)).mpr hequal
    obtain rfl := hret.mp rfl
    exact h.address _ hreply (dnssRecvDraft_of hmsg hw.query hq hc)

theorem of_compared {o : Option (Int × Cmp)} (h : (dnssRecvCb srv msg alloc outMsg outSrv).2 = some o) :
    alloc.message = true ∧ headerOk (messageMem msg outMsg) ∧ questionOk (messageMem msg outMsg) (nameLen msg outMsg) := by
  unfold dnssRecvCb at h
  split at h
  · cases h
  · rename_i hmsg
    dsimp only at h
    split at h
    · cases h
    · rename_i hok
      split at h
      · cases h
      · rename_i hq
        exact ⟨by simpa using hmsg, Decidable.not_not.mp hok, Decidable.not_not.mp hq⟩

theorem Decodable.ended (h : Decodable srv msg alloc outMsg outSrv) (hok : headerOk (messageMem msg outMsg)) :
    nameLen msg outMsg = (countedName msg).length ∧ headerSize + nameLen msg outMsg + 4 < msg.length := by
  have hend := h.question hok
  have hname : nameLen msg outMsg = (countedName msg).length := nameLen_eq (.inr (by omega))
  exact ⟨hname, hname ▸ hend⟩

theorem Decodable.counted (h : Decodable srv msg alloc outMsg outSrv) (hok : headerOk (messageMem msg outMsg))
    (hq : questionOk (messageMem msg outMsg) (nameLen msg outMsg)) : nameLen msg outMsg = (questionName msg).length := by
  have hname := (h.ended hok).1
  have hwhole := h.whole hok (hname ▸ hq)
  rw [hname, length_countedName]
  exact Nat.min_eq_right hwhole

theorem Decodable.walked (h : Decodable srv msg alloc outMsg outSrv) (hok : headerOk (messageMem msg outMsg))
    (hq : questionOk (messageMem msg outMsg) (nameLen msg outMsg)) (h0 : nameLen msg outMsg ≠ 0)
    (hle : nameLen msg outMsg ≤ maxName + 1) : Walked msg (messageMem msg outMsg) := by
  have hname := h.counted hok hq
  rw [hname] at hq h0 hle
  exact ⟨hok, hq, fun he => h0 (by rw [he]; rfl), hle⟩

theorem Decodable.reads (h : Decodable srv msg alloc outMsg outSrv) (hmsg : alloc.message = true) :
    ∀ a ∈ dnssRecvReads srv msg alloc outMsg outSrv, a < msg.length := by
  by_cases hok : headerOk (messageMem msg outMsg)
  · obtain ⟨-, hend⟩ := h.ended hok
    have hstrlen : ∀ a ∈ strlenReads headerSize (nameLen msg outMsg), a < msg.length := by
      intro a ha
      obtain ⟨k, hk, rfl⟩ := List.mem_map.mp ha
      have := List.mem_range.mp hk
      omega
    intro a ha
    rw [dnssRecvReads_served hmsg hok] at ha
    rcases List.mem_cons.mp ha with rfl | ha
    · exact h.flags
    · rcases List.mem_append.mp ha with ha | ha
      · rcases List.mem_append.mp ha with ha | ha
        · exact hstrlen a ha
        · rw [List.mem_range'_1] at ha
          omega
      · split at ha
        · cases ha
        · split at ha
          · cases ha
          · rcases List.mem_append.mp ha with ha | ha
            · have hflags := h.flags
              simp only [List.mem_cons, List.not_mem_nil, or_false] at ha
              omega
            · exact hstrlen a ha
  · intro a ha
    rw [dnssRecvReads, if_neg (by simp [hmsg]), if_pos hok] at ha
    rw [List.mem_singleton.mp ha]
    exact h.flags

theorem well_of_decodable (h : alloc.message = true → Decodable srv msg alloc outMsg outSrv) :
    RepliesWell srv msg alloc outMsg outSrv buf := by
  have hquestion : ∀ r, dnssRecvDraft srv msg alloc outMsg outSrv buf = some r →
      nameLen msg outMsg = (questionName msg).length ∧ headerSize + (questionName msg).length + 4 < msg.length := by
    intro r hr
    obtain ⟨hmsg, hok, hq, -⟩ := dnssRecvDraft_eq_some hr
    have hname := (h hmsg).counted hok hq
    exact ⟨hname, hname ▸ ((h hmsg).ended hok).2⟩
  refine ⟨fun a ha => ?_, fun o ho => ?_, fun answer d hd => (draft_right hd).1,
    fun answer d hd => (draft_right hd).2.1, fun r hr => (hquestion r hr).2, fun answer d hd => ?_, fun d hreply hd => ?_⟩
  · by_cases hmsg : alloc.message = false
    · rw [dnssRecvReads, if_pos hmsg] at ha
      cases ha
    · have hmsg := (Bool.not_eq_false _).mp hmsg
      exact (h hmsg).reads hmsg a ha
  · obtain ⟨hmsg, hok, hq⟩ := of_compared ho
    rw [dnssRecvCb_compared hmsg hok hq] at ho
    obtain rfl := Option.some.inj ho
    obtain ⟨-, hend⟩ := (h hmsg).ended hok
    refine (ends_iff (by omega)).mp ?_
    by_cases hshort : nameLen msg outMsg = 0 ∨ maxName + 1 < nameLen msg outMsg
    · exact ⟨false, ends_short (by omega) hshort⟩
    · obtain ⟨h0, hle⟩ := not_or.mp hshort
      obtain ⟨equal, hstops⟩ := (h hmsg).stops ((h hmsg).walked hok hq h0 (Nat.not_lt.mp hle))
      exact ⟨equal, (ends_compared (by omega) h0 (Nat.not_lt.mp hle)).mpr hstops⟩
  · obtain ⟨hname, hend⟩ := hquestion _ hd
    rw [(draft_right hd).2.2, replyBytes_eq hname hend]
  · obtain ⟨hmsg, hok, hq, -⟩ := dnssRecvDraft_eq_some hd
    obtain ⟨s, hc⟩ := answer_compared hd
    obtain ⟨h0, hle⟩ := nameLen_of_equal hc
    have hw := (h hmsg).walked hok hq h0 hle
    have hend := ((h hmsg).ended hok).2
    obtain ⟨equal, hstops⟩ := (h hmsg).stops hw
    have hends := (@ends_compared srv msg outMsg outSrv (by omega) h0 hle equal).mpr hstops
    rw [hc, ends_some] at hends
    obtain rfl := hends.1.mpr rfl
    exact (h hmsg).address hw hreply hstops

end

/-- The callback keeps to the message and its buffer and replies what is asked for, on exactly the
messages that are decodable. -/
theorem dns_replies (srv : DnsServer) (msg : List UInt8) (alloc : Alloc) (outMsg outSrv buf : Mem) :
    RepliesWell srv msg alloc outMsg outSrv buf ↔ (alloc.message = true → Decodable srv msg alloc outMsg outSrv) :=
  ⟨fun h hmsg => decodable_of_well hmsg h, well_of_decodable⟩

/-- A query for `nz`, which the walk refuses at its second byte. -/
theorem dns_replies_refused : RepliesWell sampleServer (queryFor [2, 110, 122, 0]) ⟨true, true⟩ (fun _ => 7) (fun _ => 7) (fun _ => 0) := by
  have hdiffers : Stops (sampleServer.mem fun _ => 7) (nameAt + 1) 1 [122, 0, 0, 1, 0, 1] false := .differs (by decide)
  refine (dns_replies _ _ _ _ _ _).mpr fun _ => ⟨by decide, fun _ => by decide, fun _ _ => by decide, fun _ => ?_, fun _ _ _ => rfl⟩
  exact ⟨false, .inr ⟨by decide, .same (by decide) hdiffers⟩⟩

/-- A question for the type AAAA is answered with an address of type A. -/
theorem other_type_answered : ¬∀ srv msg alloc outMsg outSrv buf, RepliesWell srv msg alloc outMsg outSrv buf := by
  intro h
  have hwell := h sampleServer ([0, 1, 1, 0, 0, 1, 0, 0, 0, 0, 0, 0] ++ [7, 110, 117, 102, 114, 111, 110, 116, 0] ++ [0, 28, 0, 1])
    ⟨true, true⟩ (fun _ => 0) (fun _ => 0) (fun _ => 0)
  have hanswer : (dnssRecvDraft sampleServer
      ([0, 1, 1, 0, 0, 1, 0, 0, 0, 0, 0, 0] ++ [7, 110, 117, 102, 114, 111, 110, 116, 0] ++ [0, 28, 0, 1])
      ⟨true, true⟩ (fun _ => 0) (fun _ => 0) (fun _ => 0)).map Prod.fst = some true := by decide
  obtain ⟨⟨answer, d⟩, hd, rfl⟩ := Option.map_eq_some_iff.mp hanswer
  have haddress := hwell.address d rfl hd
  revert haddress
  unfold AsksAddress
  decide

end SerialNet.Dns
