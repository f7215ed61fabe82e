import SerialNet.Dhcp.Message
import Mathlib.Tactic.IntervalCases

/-!
# Options

What `_ParseDhcpOptions` reads and returns, for arbitrary memories and for
well-formed option areas, and that the replies parse back.
-/

namespace SerialNet.Dhcp

open Patch

/-! ## The loop ends -/

theorem parseLoop_some (m : Mem) : ∀ (fuel cur : Nat) (r : Parsed), msgSize - cur < fuel →
    ∃ r', parseLoop m fuel cur r = some r'
  | 0, _, _, h => absurd h (Nat.not_lt_zero _)
  | fuel + 1, cur, r, h => by
    simp only [parseLoop]
    split
    · rename_i hc
      split
      · exact parseLoop_some m fuel _ _ (by omega)
      · exact parseLoop_some m fuel _ _ (by omega)
    · exact ⟨_, rfl⟩

theorem parseDhcpOptions_some (m : Mem) : ∃ r, parseDhcpOptions m = some r :=
  parseLoop_some m _ _ _ (by decide)

/-! ## What is read -/

def taken (code : UInt8) : Nat :=
  if code = optionMsgType then 1 else if code = optionReqIpAddr ∨ code = optionServerId then 4 else 0

/-- From `cur` on the options reach an END below `lim`, and what is read of
each of them lies below `lim`. -/
inductive Delimited (m : Mem) (lim : Nat) : Nat → Prop
  | stop {cur : Nat} : cur < lim → m cur = optionEnd → Delimited m lim cur
  | pad {cur : Nat} : cur < lim → m cur = optionPad → Delimited m lim (cur + 1) → Delimited m lim cur
  | opt {cur : Nat} : cur + 2 + taken (m cur) ≤ lim → m cur ≠ optionEnd → m cur ≠ optionPad →
      Delimited m lim (cur + 2 + (m (cur + 1)).toNat) → Delimited m lim cur

def Below (lim : Nat) (reads : List Nat) : Prop := ∀ a ∈ reads, a < lim

theorem below_cons {lim a : Nat} {reads : List Nat} : Below lim (a :: reads) ↔ a < lim ∧ Below lim reads := by
  simp [Below]

section
variable {m : Mem} {cur : Nat} {r : Parsed}

theorem takeOption_msgType (h : m cur = optionMsgType) : takeOption m cur r =
    { r with msgType := m (cur + 2), ret := r.ret ||| 1, reads := (cur + 2) :: (cur + 1) :: r.reads } := by
  simp [takeOption, h]

theorem takeOption_reqIpAddr (h : m cur = optionReqIpAddr) : takeOption m cur r =
    { r with
      reqIpAddr := word m (cur + 2), ret := r.ret ||| 2
      reads := (cur + 2) :: (cur + 3) :: (cur + 4) :: (cur + 5) :: (cur + 1) :: r.reads } := by
  simp [takeOption, h, show optionReqIpAddr ≠ optionMsgType by decide]

theorem takeOption_serverId (h : m cur = optionServerId) : takeOption m cur r =
    { r with
      serverId := word m (cur + 2), ret := r.ret ||| 4
      reads := (cur + 2) :: (cur + 3) :: (cur + 4) :: (cur + 5) :: (cur + 1) :: r.reads } := by
  simp [takeOption, h, show optionServerId ≠ optionMsgType by decide, show optionServerId ≠ optionReqIpAddr by decide]

theorem takeOption_other (h1 : m cur ≠ optionMsgType) (h2 : m cur ≠ optionReqIpAddr) (h3 : m cur ≠ optionServerId) :
    takeOption m cur r = { r with reads := (cur + 1) :: r.reads } := by
  simp [takeOption, h1, h2, h3]

theorem taken_msgType : taken optionMsgType = 1 := rfl
theorem taken_reqIpAddr : taken optionReqIpAddr = 4 := rfl
theorem taken_serverId : taken optionServerId = 4 := rfl

theorem taken_other {code : UInt8} (h1 : code ≠ optionMsgType) (h2 : code ≠ optionReqIpAddr)
    (h3 : code ≠ optionServerId) : taken code = 0 := by
  simp [taken, h1, h2, h3]

theorem below_takeOption {lim : Nat} :
    Below lim (takeOption m cur r).reads ↔ cur + 2 + taken (m cur) ≤ lim ∧ Below lim r.reads := by
  by_cases h1 : m cur = optionMsgType
  · rw [takeOption_msgType h1, h1, taken_msgType]
    simp only [below_cons]
    exact ⟨fun ⟨_, _, h⟩ => ⟨by omega, h⟩, fun ⟨_, h⟩ => ⟨by omega, by omega, h⟩⟩
  by_cases h2 : m cur = optionReqIpAddr
  · rw [takeOption_reqIpAddr h2, h2, taken_reqIpAddr]
    simp only [below_cons]
    exact ⟨fun ⟨_, _, _, _, _, h⟩ => ⟨by omega, h⟩, fun ⟨_, h⟩ => ⟨by omega, by omega, by omega, by omega, by omega, h⟩⟩
  by_cases h3 : m cur = optionServerId
  · rw [takeOption_serverId h3, h3, taken_serverId]
    simp only [below_cons]
    exact ⟨fun ⟨_, _, _, _, _, h⟩ => ⟨by omega, h⟩, fun ⟨_, h⟩ => ⟨by omega, by omega, by omega, by omega, by omega, h⟩⟩
  rw [takeOption_other h1 h2 h3, taken_other h1 h2 h3]
  simp only [below_cons]
  exact ⟨fun ⟨_, h⟩ => ⟨by omega, h⟩, fun ⟨_, h⟩ => ⟨by omega, h⟩⟩

end

theorem delimited_iff {m : Mem} {cur : Nat} : Delimited m msgSize cur ↔ cur < msgSize ∧
    (m cur = optionEnd ∨ (m cur = optionPad ∧ Delimited m msgSize (cur + 1)) ∨
      (m cur ≠ optionEnd ∧ m cur ≠ optionPad ∧ cur + 2 + taken (m cur) ≤ msgSize ∧
        Delimited m msgSize (cur + 2 + (m (cur + 1)).toNat))) := by
  constructor
  · rintro (⟨h, he⟩ | ⟨h, hp, hd⟩ | ⟨h, he, hp, hd⟩)
    · exact ⟨h, .inl he⟩
    · exact ⟨h, .inr (.inl ⟨hp, hd⟩)⟩
    · exact ⟨by omega, .inr (.inr ⟨he, hp, h, hd⟩)⟩
  · rintro ⟨h, he | ⟨hp, hd⟩ | ⟨he, hp, h', hd⟩⟩
    · exact .stop h he
    · exact .pad h hp hd
    · exact .opt h' he hp hd

/-- The reads stay inside the message exactly when an END ends the options
there. -/
theorem parseLoop_reads {m : Mem} : ∀ {fuel cur : Nat} {r r' : Parsed}, parseLoop m fuel cur r = some r' →
    (Below msgSize r'.reads ↔ Below msgSize r.reads ∧ Delimited m msgSize cur)
  | 0, _, _, _, h => by cases h
  | fuel + 1, cur, r, r', h => by
    simp only [parseLoop] at h
    rw [delimited_iff]
    split at h
    · rename_i hc
      split at h
      · rename_i hp
        rw [parseLoop_reads h, below_cons]
        have : m cur ≠ optionEnd := hc.1
        simp [hp, hc.2, and_comm, show optionPad ≠ optionEnd by decide]
      · rename_i hp
        rw [parseLoop_reads h, below_takeOption, below_cons]
        simp only [hc.1, hp, hc.2, false_and, false_or, ne_eq, not_false_eq_true, true_and]
        tauto
    · rename_i hc
      cases h
      rw [below_cons]
      push Not at hc
      by_cases he : m cur = optionEnd
      · simp [he, and_comm]
      · have := hc he
        simp [Nat.not_lt.mpr this]

/-! ## Well-formed option areas -/

/-- The length an option of this type has, where one is prescribed. -/
def prescribed (code : UInt8) : Option Nat :=
  if code = optionMsgType then some 1
  else if code = optionReqIpAddr ∨ code = optionServerId then some 4
  else none

structure TlvOption where
  code : UInt8
  value : List UInt8
  notPad : code ≠ optionPad
  notEnd : code ≠ optionEnd
  fits : value.length < 256
  sized : ∀ n ∈ prescribed code, value.length = n

inductive Item
  | pad
  | opt (o : TlvOption)

def TlvOption.bytes (o : TlvOption) : List UInt8 := o.code :: UInt8.ofNat o.value.length :: o.value

def Item.bytes : Item → List UInt8
  | .pad => [optionPad]
  | .opt o => o.bytes

def encode (items : List Item) : List UInt8 := items.flatMap Item.bytes

/-- The value of the item if it is an option of type `code`. -/
def Item.value (code : UInt8) : Item → Option (List UInt8)
  | .pad => none
  | .opt o => if o.code = code then some o.value else none

def lastValue (code : UInt8) (items : List Item) : Option (List UInt8) := (items.filterMap (Item.value code)).getLast?

def bytesWord (l : List UInt8) : UInt32 := word (fun i => l.getD i 0) 0

def presence (items : List Item) (code bit : UInt8) : UInt8 := if (lastValue code items).isSome then bit else 0

/-- `r` is what the items say: the presence bits, and the last values or what
the outputs were before. -/
structure Says (items : List Item) (r : Parsed) : Prop where
  ret : r.ret = presence items optionMsgType 1 ||| presence items optionReqIpAddr 2 ||| presence items optionServerId 4
  msgType : r.msgType = ((lastValue optionMsgType items).map fun v => v.headD 0).getD 0xff
  reqIpAddr : r.reqIpAddr = ((lastValue optionReqIpAddr items).map bytesWord).getD 0
  serverId : r.serverId = ((lastValue optionServerId items).map bytesWord).getD 0

theorem lastValue_snoc (code : UInt8) (items : List Item) (x : Item) :
    lastValue code (items ++ [x]) = (x.value code).or (lastValue code items) := by
  unfold lastValue
  cases h : x.value code <;> simp [h]

theorem Says.nil : Says [] Parsed.start := by constructor <;> rfl

theorem Says.read {items : List Item} {r : Parsed} (h : Says items r) (l : List Nat) :
    Says items { r with reads := l } :=
  ⟨h.ret, h.msgType, h.reqIpAddr, h.serverId⟩

theorem says_pad {items : List Item} {r : Parsed} (h : Says items r) : Says (items ++ [.pad]) r := by
  have hl (code : UInt8) : lastValue code (items ++ [.pad]) = lastValue code items := by
    rw [lastValue_snoc]; rfl
  constructor <;> simp only [presence, hl]
  · exact h.ret
  · exact h.msgType
  · exact h.reqIpAddr
  · exact h.serverId

theorem lastValue_opt (code : UInt8) (items : List Item) (o : TlvOption) : lastValue code (items ++ [.opt o]) =
    if o.code = code then some o.value else lastValue code items := by
  rw [lastValue_snoc, Item.value]
  split <;> rfl

/-- The bits of an option that is set again do not change the others. -/
theorem or_presence (a b c x : UInt8) : (a ||| b ||| c) ||| x = (a ||| x) ||| b ||| c ∧
    (a ||| b ||| c) ||| x = a ||| (b ||| x) ||| c ∧ (a ||| b ||| c) ||| x = a ||| b ||| (c ||| x) := by
  refine ⟨?_, ?_, ?_⟩ <;> (apply UInt8.toBitVec_inj.mp; simp only [UInt8.toBitVec_or]; ac_rfl)

theorem presence_or (items : List Item) (code bit : UInt8) : presence items code bit ||| bit = bit := by
  unfold presence
  split
  · exact UInt8.or_self
  · exact UInt8.zero_or

theorem word_holds {m : Mem} {a : Nat} {l : List UInt8} (h : Holds m a l) (h4 : l.length = 4) : word m a = bytesWord l := by
  have hb (i : Nat) (hi : i < 4) : m (a + i) = l.getD i 0 := by
    rw [h i (by omega), ← List.getElem_eq_getD]
  simp only [word, bytesWord, Nat.zero_add, ← hb 0 (by omega), ← hb 1 (by omega), ← hb 2 (by omega), ← hb 3 (by omega),
    Nat.add_zero]

theorem says_opt {items : List Item} {r : Parsed} (h : Says items r) {m : Mem} {cur : Nat} {o : TlvOption}
    (hm : Holds m cur o.bytes) : Says (items ++ [.opt o]) (takeOption m cur r) := by
  obtain ⟨hcode, _, hval⟩ : m cur = o.code ∧ m (cur + 1) = UInt8.ofNat o.value.length ∧ Holds m (cur + 2) o.value := by
    simpa [TlvOption.bytes, holds_cons] using hm
  have hret := h.ret
  by_cases h1 : o.code = optionMsgType
  · have hv : m (cur + 2) = o.value.headD 0 := by
      have hlen : o.value.length = 1 := o.sized 1 (by simp [prescribed, h1])
      obtain ⟨v, hv⟩ := List.length_eq_one_iff.mp hlen
      have := hval 0 (by omega)
      simpa [hv] using this
    rw [takeOption_msgType (hcode.trans h1)]
    constructor <;> simp only [presence, lastValue_opt, h1, if_true, Option.isSome_some, Option.map_some, Option.getD_some,
      if_neg (show optionMsgType ≠ optionReqIpAddr by decide), if_neg (show optionMsgType ≠ optionServerId by decide)]
    · rw [hret, (or_presence _ _ _ 1).1, presence_or]
      rfl
    · exact hv
    · exact h.reqIpAddr
    · exact h.serverId
  by_cases h2 : o.code = optionReqIpAddr
  · have hw := word_holds hval (o.sized 4 (by simp [prescribed, h2, show optionReqIpAddr ≠ optionMsgType by decide]))
    rw [takeOption_reqIpAddr (hcode.trans h2)]
    constructor <;> simp only [presence, lastValue_opt, h2, if_true, Option.isSome_some, Option.map_some, Option.getD_some,
      if_neg (show optionReqIpAddr ≠ optionMsgType by decide), if_neg (show optionReqIpAddr ≠ optionServerId by decide)]
    · rw [hret, (or_presence _ _ _ 2).2.1, presence_or]
      rfl
    · exact h.msgType
    · exact hw
    · exact h.serverId
  by_cases h3 : o.code = optionServerId
  · have hw := word_holds hval (o.sized 4 (by simp [prescribed, h3, show optionServerId ≠ optionMsgType by decide]))
    rw [takeOption_serverId (hcode.trans h3)]
    constructor <;> simp only [presence, lastValue_opt, h3, if_true, Option.isSome_some, Option.map_some, Option.getD_some,
      if_neg (show optionServerId ≠ optionMsgType by decide), if_neg (show optionServerId ≠ optionReqIpAddr by decide)]
    · rw [hret, (or_presence _ _ _ 4).2.2, presence_or]
      rfl
    · exact h.msgType
    · exact h.reqIpAddr
    · exact hw
  rw [takeOption_other (hcode ▸ h1) (hcode ▸ h2) (hcode ▸ h3)]
  have hl (code : UInt8) (hne : o.code ≠ code) : lastValue code (items ++ [.opt o]) = lastValue code items := by
    rw [lastValue_opt, if_neg hne]
  constructor <;> simp only [presence, hl _ h1, hl _ h2, hl _ h3]
  · exact h.ret
  · exact h.msgType
  · exact h.reqIpAddr
  · exact h.serverId

theorem parseLoop_items {m : Mem} : ∀ (items seen : List Item) (fuel cur : Nat) (r : Parsed), Says seen r →
    Holds m cur (encode items ++ [optionEnd]) → cur + (encode items).length < msgSize → msgSize - cur < fuel →
    ∃ r', parseLoop m fuel cur r = some r' ∧ Says (seen ++ items) r'
  | _, _, 0, _, _, _, _, _, hf => absurd hf (Nat.not_lt_zero _)
  | [], seen, fuel + 1, cur, r, h, hm, _, _ => by
    have he : m cur = optionEnd := (holds_cons.mp hm).1
    refine ⟨{ r with reads := cur :: r.reads }, by simp [parseLoop, he], ?_⟩
    rw [List.append_nil]
    exact h.read _
  | .pad :: items, seen, fuel + 1, cur, r, h, hm, hfit, hf => by
    obtain ⟨hp, hm⟩ : m cur = optionPad ∧ Holds m (cur + 1) (encode items ++ [optionEnd]) := by
      simpa [encode, Item.bytes, holds_cons] using hm
    simp only [encode, List.flatMap_cons, Item.bytes, List.length_append, List.length_cons, List.length_nil] at hfit
    obtain ⟨r', hr', hs⟩ := parseLoop_items items (seen ++ [.pad]) fuel (cur + 1) { r with reads := cur :: r.reads }
      ((says_pad h).read _) hm (by simp only [encode]; omega) (by omega)
    refine ⟨r', ?_, by simpa using hs⟩
    have hne : m cur ≠ optionEnd := by rw [hp]; decide
    simp only [parseLoop]
    rw [if_pos ⟨hne, by omega⟩, if_pos hp]
    exact hr'
  | .opt o :: items, seen, fuel + 1, cur, r, h, hm, hfit, hf => by
    have hm' : Holds m cur (o.bytes ++ (encode items ++ [optionEnd])) := by
      simpa [encode, Item.bytes, List.append_assoc] using hm
    obtain ⟨ho, hrest⟩ := holds_append.mp hm'
    obtain ⟨hcode, hlen, _⟩ : m cur = o.code ∧ m (cur + 1) = UInt8.ofNat o.value.length ∧ Holds m (cur + 2) o.value := by
      simpa [TlvOption.bytes, holds_cons] using ho
    have hlen' : (m (cur + 1)).toNat = o.value.length := by
      rw [hlen, UInt8.toNat_ofNat_of_lt' o.fits]
    have hnext : cur + o.bytes.length = cur + 2 + (m (cur + 1)).toNat := by
      simp only [TlvOption.bytes, List.length_cons, hlen']
      omega
    simp only [encode, List.flatMap_cons, Item.bytes, List.length_append] at hfit
    rw [hnext] at hrest
    obtain ⟨r', hr', hs⟩ := parseLoop_items items (seen ++ [.opt o]) fuel (cur + 2 + (m (cur + 1)).toNat)
      (takeOption m cur { r with reads := cur :: r.reads })
      (says_opt (h.read _) ho) hrest (by simp only [encode]; omega) (by omega)
    refine ⟨r', ?_, by simpa using hs⟩
    have he : m cur ≠ optionEnd := by rw [hcode]; exact o.notEnd
    have hp : m cur ≠ optionPad := by rw [hcode]; exact o.notPad
    simp only [parseLoop]
    rw [if_pos ⟨he, by omega⟩, if_neg hp]
    exact hr'

/-- The option area holds the items and an END inside the message. -/
structure Area (m : Mem) (items : List Item) : Prop where
  holds : Holds m optionsAt (encode items ++ [optionEnd])
  fits : optionsAt + (encode items).length < msgSize

theorem parse_area {m : Mem} {items : List Item} (h : Area m items) :
    ∃ r, parseDhcpOptions m = some r ∧ Says items r := by
  have := parseLoop_items items [] (msgSize - optionsAt + 1) optionsAt Parsed.start Says.nil h.holds h.fits (by decide)
  simpa [parseDhcpOptions] using this

/-! ## Replies -/

theorem bytesWord_wordBytes (x : UInt32) : bytesWord (wordBytes x) = x := by
  apply UInt32.toBitVec_inj.mp
  apply BitVec.eq_of_getLsbD_eq
  intro i hi
  simp only [bytesWord, word, wordBytes, Nat.zero_add, List.getD_cons_zero, List.getD_cons_succ, UInt32.toBitVec_or,
    UInt32.toBitVec_shiftLeft, UInt32.toBitVec_shiftRight, UInt8.toBitVec_toUInt32, UInt32.toBitVec_toUInt8,
    BitVec.getLsbD_or]
  interval_cases i <;> simp

/-- `s'` is `s` after the bytes `l` were written at `Body` and counted. -/
structure Build.Wrote (s : Build) (l : List UInt8) (s' : Build) : Prop where
  mem : s'.mem = patch s.mem s.body l
  body : s'.body = s.body + l.length
  len : s'.len = s.len + l.length

theorem Build.Wrote.trans {s s' s'' : Build} {l r : List UInt8} (h : s.Wrote l s') (h' : s'.Wrote r s'') :
    s.Wrote (l ++ r) s'' where
  mem := by rw [h'.mem, h.mem, h.body, patch_append]
  body := by rw [h'.body, h.body, List.length_append, Nat.add_assoc]
  len := by rw [h'.len, h.len, List.length_append, Nat.add_assoc]

def msgTypeOption (type : UInt8) : TlvOption where
  code := optionMsgType
  value := [type]
  notPad := by decide
  notEnd := by decide
  fits := by simp
  sized := by rintro n ⟨⟩; rfl

def wordOption (code : UInt8) (x : UInt32) (hp : code ≠ optionPad) (he : code ≠ optionEnd)
    (ht : code ≠ optionMsgType) : TlvOption where
  code := code
  value := wordBytes x
  notPad := hp
  notEnd := he
  fits := by simp [wordBytes]
  sized := by
    intro n hn
    simp only [prescribed, if_neg ht] at hn
    split at hn
    · cases hn; rfl
    · cases hn

theorem setOptionMsgType_wrote (type : UInt8) (s : Build) : s.Wrote (msgTypeOption type).bytes (setOptionMsgType type s) where
  mem := by
    simp only [setOptionMsgType, Build.put, Build.count, TlvOption.bytes, msgTypeOption]
    rw [show [optionMsgType, UInt8.ofNat [type].length, type] = [optionMsgType] ++ ([1] ++ [type]) from rfl, patch_append,
      patch_append]
    rfl
  body := rfl
  len := rfl

theorem setOptionWord_wrote (id : UInt8) (x : UInt32) (hp : id ≠ optionPad) (he : id ≠ optionEnd) (ht : id ≠ optionMsgType)
    (s : Build) : s.Wrote (wordOption id x hp he ht).bytes (setOptionWord id x s) where
  mem := by
    simp only [setOptionWord, Build.put, Build.putWord, Build.count, TlvOption.bytes, wordOption]
    rw [show id :: UInt8.ofNat (wordBytes x).length :: wordBytes x = [id] ++ ([4] ++ wordBytes x) from rfl, patch_append,
      patch_append]
    rfl
  body := rfl
  len := rfl

theorem setOptionEnd_wrote (s : Build) : s.Wrote [optionEnd] (setOptionEnd s) := ⟨rfl, rfl, rfl⟩

def leaseItems (type : UInt8) (srv : DhcpServer) : List Item :=
  [.opt (msgTypeOption type), .opt (wordOption optionLeaseTime (htonl defaultLeaseTime) (by decide) (by decide) (by decide)),
    .opt (wordOption optionServerId srv.serverIpAddr (by decide) (by decide) (by decide)),
    .opt (wordOption optionSubnetMask srv.subnetMask (by decide) (by decide) (by decide)),
    .opt (wordOption optionDefGw srv.gateWay (by decide) (by decide) (by decide)),
    .opt (wordOption optionDnsServer srv.dns1 (by decide) (by decide) (by decide))]

def replyItems (srv : DhcpServer) : Reply → List Item
  | .offer _ _ _ => leaseItems msgOffer srv
  | .ack _ _ _ => leaseItems msgAck srv
  | .nak _ _ => [.opt (msgTypeOption msgNak)]

def headerOf (srv : DhcpServer) (m : Mem) : Reply → Build
  | .offer ip mac xid => replyHeader m ip 0 mac xid
  | .ack ip mac xid => replyHeader m ip 0 mac xid
  | .nak mac xid => replyHeader m 0 srv.serverIpAddr mac xid

theorem leaseGen_wrote (type : UInt8) (srv : DhcpServer) (m : Mem) (ip : UInt32) (mac : Mac) (xid : UInt32) :
    (replyHeader m ip 0 mac xid).Wrote (encode (leaseItems type srv) ++ [optionEnd]) (leaseGen type srv m ip mac xid) := by
  have h := (((((setOptionMsgType_wrote type (replyHeader m ip 0 mac xid)).trans
    (setOptionWord_wrote optionLeaseTime (htonl defaultLeaseTime) (by decide) (by decide) (by decide) _)).trans
    (setOptionWord_wrote optionServerId srv.serverIpAddr (by decide) (by decide) (by decide) _)).trans
    (setOptionWord_wrote optionSubnetMask srv.subnetMask (by decide) (by decide) (by decide) _)).trans
    (setOptionWord_wrote optionDefGw srv.gateWay (by decide) (by decide) (by decide) _)).trans
    (setOptionWord_wrote optionDnsServer srv.dns1 (by decide) (by decide) (by decide) _)
  simpa only [encode, leaseItems, List.flatMap_cons, List.flatMap_nil, Item.bytes, List.append_nil, List.append_assoc,
    leaseGen, setOptionLeaseTime, setOptionServerId, setOptionSubnetMask, setOptionGw, setOptionDns] using
    h.trans (setOptionEnd_wrote _)

theorem genReply_wrote (srv : DhcpServer) (m : Mem) (reply : Reply) :
    (headerOf srv m reply).Wrote (encode (replyItems srv reply) ++ [optionEnd]) (genReply srv m reply) := by
  cases reply with
  | offer ip mac xid => exact leaseGen_wrote msgOffer srv m ip mac xid
  | ack ip mac xid => exact leaseGen_wrote msgAck srv m ip mac xid
  | nak mac xid => exact (setOptionMsgType_wrote msgNak _).trans (setOptionEnd_wrote _)

theorem replyItems_length (srv : DhcpServer) (reply : Reply) : (encode (replyItems srv reply)).length ≤ 33 := by
  cases reply <;> simp [replyItems, leaseItems, encode, Item.bytes, TlvOption.bytes, msgTypeOption, wordOption, wordBytes]

theorem replyHeader_outside (m : Mem) (yiaddr siaddr : UInt32) (mac : Mac) (xid : UInt32) {a : Nat} (h : msgSize ≤ a) :
    (replyHeader m yiaddr siaddr mac xid).mem a = m a := by
  unfold msgSize at h
  have hw (x : UInt32) : (wordBytes x).length = 4 := rfl
  have hmac : mac.toList.length = 6 := by simp
  simp only [replyHeader]
  rw [patch_above (by rw [hw]; simp only [magicAt]; omega), patch_above (by rw [hmac]; simp only [chaddrAt]; omega),
    patch_above (by rw [hw]; simp only [siaddrAt]; omega), patch_above (by rw [hw]; simp only [yiaddrAt]; omega),
    patch_above (by rw [hw]; simp only [xidAt]; omega), patch_above (by simp only [hlenAt, List.length_singleton]; omega),
    patch_above (by simp only [htypeAt, List.length_singleton]; omega),
    patch_above (by simp only [opAt, List.length_singleton]; omega), clearMsg, if_neg (by unfold msgSize; omega)]

def Reply.type : Reply → UInt8
  | .offer _ _ _ => msgOffer
  | .ack _ _ _ => msgAck
  | .nak _ _ => msgNak

def Reply.serverId (srv : DhcpServer) : Reply → Option UInt32
  | .offer _ _ _ => some srv.serverIpAddr
  | .ack _ _ _ => some srv.serverIpAddr
  | .nak _ _ => none

theorem lastValue_msgType (srv : DhcpServer) (reply : Reply) :
    lastValue optionMsgType (replyItems srv reply) = some [reply.type] := by
  cases reply <;> rfl

theorem lastValue_reqIpAddr (srv : DhcpServer) (reply : Reply) :
    lastValue optionReqIpAddr (replyItems srv reply) = none := by
  cases reply <;> rfl

theorem lastValue_serverId (srv : DhcpServer) (reply : Reply) :
    lastValue optionServerId (replyItems srv reply) = (reply.serverId srv).map wordBytes := by
  cases reply <;> rfl

/-- What is built for a reply stays inside `DHCP_MSG` with `Body` and `Len` in
step, the bytes that are sent end with END, and parse back. -/
structure ReplyOk (srv : DhcpServer) (m : Mem) (reply : Reply) : Prop where
  inside : ∀ a, msgSize ≤ a → (genReply srv m reply).mem a = m a
  inStep : (genReply srv m reply).body = (genReply srv m reply).len
  fits : (genReply srv m reply).len ≤ msgSize
  ends : (genReply srv m reply).sent.getLast? = some optionEnd
  parses : ∀ m' : Mem, Holds m' 0 (genReply srv m reply).sent → ∃ r, parseDhcpOptions m' = some r ∧
    r.msgType = reply.type ∧ r.ret = (if (reply.serverId srv).isSome then 5 else 1) ∧
    r.serverId = (reply.serverId srv).getD 0

theorem replyOk (srv : DhcpServer) (m : Mem) (reply : Reply) : ReplyOk srv m reply := by
  have hw := genReply_wrote srv m reply
  have hbody : (headerOf srv m reply).body = optionsAt := by cases reply <;> rfl
  have hlen : (headerOf srv m reply).len = optionsAt := by cases reply <;> rfl
  have hout : ∀ a, msgSize ≤ a → (headerOf srv m reply).mem a = m a := fun a ha => by
    cases reply <;> exact replyHeader_outside _ _ _ _ _ ha
  have hitems := replyItems_length srv reply
  obtain ⟨s, hs⟩ : ∃ s, genReply srv m reply = s := ⟨_, rfl⟩
  rw [hs] at hw
  have hslen : s.len = optionsAt + ((encode (replyItems srv reply)).length + 1) := by
    rw [hw.len, hlen, List.length_append, List.length_singleton]
  have hsent : s.sent = read s.mem 0 optionsAt ++ (encode (replyItems srv reply) ++ [optionEnd]) := by
    rw [Build.sent, hslen, read_add, Nat.zero_add]
    congr 1
    rw [hw.mem, hbody, ← List.length_singleton (a := optionEnd), ← List.length_append, read_patch]
  constructor
  · intro a ha
    rw [hs, hw.mem, patch_above, hout a ha]
    rw [hbody, List.length_append, List.length_singleton]
    unfold msgSize at ha
    unfold optionsAt
    omega
  · rw [hs, hw.body, hw.len, hbody, hlen]
  · rw [hs, hslen]
    unfold msgSize optionsAt
    omega
  · rw [hs, hsent, ← List.append_assoc]
    exact List.getLast?_concat ..
  · intro m' hm'
    rw [hs, hsent, holds_append, length_read, Nat.zero_add] at hm'
    obtain ⟨r, hr, hr'⟩ := @parse_area m' (replyItems srv reply)
      ⟨hm'.2, by unfold msgSize optionsAt; omega⟩
    refine ⟨r, hr, ?_, ?_, ?_⟩
    · rw [hr'.msgType, lastValue_msgType]
      rfl
    · rw [hr'.ret]
      simp only [presence, lastValue_msgType, lastValue_reqIpAddr, lastValue_serverId]
      cases reply.serverId srv <;>
        (simp only [Option.isSome_some, Option.isSome_none, Option.map_some, Option.map_none, if_true]; decide)
    · rw [hr'.serverId, lastValue_serverId]
      cases reply.serverId srv with
      | none => rfl
      | some x => exact bytesWord_wordBytes x

/-- What is asked of the parser on one message. -/
structure ParsesWell (m : Mem) : Prop where
  area : ∀ items, Area m items → ∃ r, parseDhcpOptions m = some r ∧ Says items r
  inside : ∃ r, parseDhcpOptions m = some r ∧ Below msgSize r.reads

theorem reads_inside_iff (m : Mem) :
    (∃ r, parseDhcpOptions m = some r ∧ Below msgSize r.reads) ↔ Delimited m msgSize optionsAt := by
  have hstart : Below msgSize Parsed.start.reads := fun a ha => by cases ha
  constructor
  · rintro ⟨r, hr, hb⟩
    exact ((parseLoop_reads hr).mp hb).2
  · intro hd
    obtain ⟨r, hr⟩ := parseDhcpOptions_some m
    exact ⟨r, hr, (parseLoop_reads hr).mpr ⟨hstart, hd⟩⟩

/-- **Options.** The parser always ends and says what a well-formed area
holds; it reads inside the message exactly when an END ends the options there;
and every reply stays inside the message and parses back. -/
theorem options_spec (m : Mem) :
    (∃ r, parseDhcpOptions m = some r) ∧ (ParsesWell m ↔ Delimited m msgSize optionsAt) ∧
      ∀ srv reply, ReplyOk srv m reply := by
  refine ⟨parseDhcpOptions_some m, ?_, fun srv reply => replyOk srv m reply⟩
  constructor
  · exact fun h => (reads_inside_iff m).mp h.inside
  · exact fun h => ⟨fun items ha => parse_area ha, (reads_inside_iff m).mpr h⟩

def longOptions : Mem := fun a => if a = 241 ∨ a = 498 then 255 else 1

theorem longOptions_outside : ¬ParsesWell longOptions := by
  intro h
  obtain ⟨r, hr, hb⟩ := h.inside
  have : (parseDhcpOptions longOptions).map (fun r => decide (754 ∈ r.reads)) = some true := by decide
  rw [hr] at this
  exact absurd (hb 754 (by simpa using this)) (by decide)

end SerialNet.Dhcp
