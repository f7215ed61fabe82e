import SerialNet.Dhcp.Device

/-!
# The walk over a message's options

`Met` lists the options that `_ParseDhcpOptions` meets when the bytes below a
limit lead it; `request_met` says what the callback takes out of such a
message. Where the bytes below the limit do not lead to the end, those behind
it can make the message any type.
-/

namespace SerialNet.Dhcp

open Patch

/-- From `cur` on the loop meets the options at `os`, and reads no type or
length from `lim` on but a length that ends the walk whatever it is. -/
inductive Met (m : Mem) (lim : Nat) : Nat → List Nat → Prop
  | stop {cur : Nat} : cur < lim → m cur = optionEnd → Met m lim cur []
  | past {cur : Nat} : msgSize ≤ cur → Met m lim cur []
  | pad {cur : Nat} {os : List Nat} : cur < lim → m cur = optionPad → Met m lim (cur + 1) os → Met m lim cur os
  | opt {cur : Nat} {os : List Nat} : cur + 1 < lim → m cur ≠ optionEnd → m cur ≠ optionPad →
      Met m lim (cur + 2 + (m (cur + 1)).toNat) os → Met m lim cur (cur :: os)
  | last {cur : Nat} : cur < lim → m cur ≠ optionEnd → m cur ≠ optionPad → msgSize ≤ cur + 2 → Met m lim cur [cur]

def lastAt (m : Mem) (code : UInt8) (os : List Nat) : Option Nat := (os.filter fun o => m o = code).getLast?

section
variable {m m' : Mem} {lim cur o : Nat} {os : List Nat} {code : UInt8}

theorem Met.congr (h : Met m lim cur os) (hm : ∀ a, a < lim → m' a = m a) : Met m' lim cur os := by
  induction h with
  | stop hlt he => exact .stop hlt ((hm _ hlt).trans he)
  | past hs => exact .past hs
  | pad hlt hp _ ih => exact .pad hlt ((hm _ hlt).trans hp) ih
  | @opt cur os hlt he hp _ ih =>
    have hcode := hm cur (by omega)
    exact .opt hlt (hcode ▸ he) (hcode ▸ hp) (by rw [hm _ hlt]; exact ih)
  | last hlt he hp hs => exact .last hlt (hm _ hlt ▸ he) (hm _ hlt ▸ hp) hs

theorem Met.lt (h : Met m lim cur os) : ∀ o ∈ os, o < lim := by
  induction h with
  | stop | past => exact fun o ho => absurd ho List.not_mem_nil
  | pad _ _ _ ih => exact ih
  | opt hlt _ _ _ ih =>
    intro o ho
    rcases List.mem_cons.mp ho with rfl | ho
    · omega
    · exact ih o ho
  | last hlt _ _ _ =>
    intro o ho
    rw [List.mem_singleton.mp ho]
    exact hlt

theorem Met.start_lt (h : Met m lim cur os) (hs : cur < msgSize) : cur < lim := by
  cases h with
  | past h => omega
  | stop h | pad h | last h => exact h
  | opt h => omega

theorem lastAt_congr (h : ∀ o ∈ os, m' o = m o) (code : UInt8) : lastAt m' code os = lastAt m code os := by
  rw [lastAt, lastAt, List.filter_congr fun o ho => by rw [h o ho]]

theorem lastAt_snoc (m : Mem) (code : UInt8) (os : List Nat) (o : Nat) :
    lastAt m code (os ++ [o]) = if m o = code then some o else lastAt m code os := by
  rw [lastAt, List.filter_append]
  by_cases h : m o = code
  · rw [if_pos h, List.filter_cons_of_pos (by simpa using h), List.filter_nil, List.getLast?_append]
    rfl
  · rw [if_neg h, List.filter_cons_of_neg (by simpa using h), List.filter_nil, List.append_nil, lastAt]

theorem lastAt_cons (h : lastAt m code os = some o) (a : Nat) : lastAt m code (a :: os) = some o := by
  rw [lastAt, List.filter_cons]
  split
  · rw [List.getLast?_cons, ← lastAt, h]
    rfl
  · exact h

end

/-! ## What the parser makes of the options met -/

/-- `r` is what the last option of each kind says. -/
structure Found (m : Mem) (os : List Nat) (r : Parsed) : Prop where
  ret : r.ret &&& 1 = 0 ↔ lastAt m optionMsgType os = none
  msgType : ∀ o ∈ lastAt m optionMsgType os, r.msgType = m (o + 2)
  reqIpAddr : r.reqIpAddr = ((lastAt m optionReqIpAddr os).map fun o => word m (o + 2)).getD 0
  serverId : r.serverId = ((lastAt m optionServerId os).map fun o => word m (o + 2)).getD 0

theorem Found.start (m : Mem) : Found m [] Parsed.start where
  ret := ⟨fun _ => rfl, fun _ => rfl⟩
  msgType := by rintro o ⟨⟩
  reqIpAddr := rfl
  serverId := rfl

theorem or_even_and (x : UInt8) : (x ||| 2) &&& 1 = x &&& 1 ∧ (x ||| 4) &&& 1 = x &&& 1 := by
  constructor <;>
  · apply UInt8.toBitVec_inj.mp
    simp only [UInt8.toBitVec_and, UInt8.toBitVec_or, BitVec.and_or_distrib_right]
    apply BitVec.eq_of_getLsbD_eq
    intro i hi
    interval_cases i <;> simp

section
variable {m : Mem} {lim cur : Nat} {os seen : List Nat} {r : Parsed}

theorem Found.read (h : Found m os r) (l : List Nat) : Found m os { r with reads := l } :=
  ⟨h.ret, h.msgType, h.reqIpAddr, h.serverId⟩

theorem Found.take (h : Found m seen r) (cur : Nat) : Found m (seen ++ [cur]) (takeOption m cur r) := by
  have other {code : UInt8} (hne : m cur ≠ code) : lastAt m code (seen ++ [cur]) = lastAt m code seen := by
    rw [lastAt_snoc, if_neg hne]
  have here {code : UInt8} (he : m cur = code) : lastAt m code (seen ++ [cur]) = some cur := by
    rw [lastAt_snoc, if_pos he]
  by_cases h1 : m cur = optionMsgType
  · rw [takeOption_msgType h1]
    constructor
    · rw [here h1, or_one_and]
      exact ⟨fun h0 => absurd h0 (by decide), fun h0 => by cases h0⟩
    · rw [here h1]
      rintro o ⟨⟩
      rfl
    · rw [other (by rw [h1]; decide)]
      exact h.reqIpAddr
    · rw [other (by rw [h1]; decide)]
      exact h.serverId
  by_cases h2 : m cur = optionReqIpAddr
  · rw [takeOption_reqIpAddr h2]
    constructor
    · rw [other h1, (or_even_and r.ret).1]
      exact h.ret
    · rw [other h1]
      exact h.msgType
    · rw [here h2]
      rfl
    · rw [other (by rw [h2]; decide)]
      exact h.serverId
  by_cases h3 : m cur = optionServerId
  · rw [takeOption_serverId h3]
    constructor
    · rw [other h1, (or_even_and r.ret).2]
      exact h.ret
    · rw [other h1]
      exact h.msgType
    · rw [other h2]
      exact h.reqIpAddr
    · rw [here h3]
      rfl
  rw [takeOption_other h1 h2 h3]
  constructor
  · rw [other h1]
    exact h.ret
  · rw [other h1]
    exact h.msgType
  · rw [other h2]
    exact h.reqIpAddr
  · rw [other h3]
    exact h.serverId

theorem parseLoop_met (h : Met m lim cur os) (hl : lim ≤ msgSize) : ∀ {seen : List Nat} {fuel : Nat} {r : Parsed},
    Found m seen r → msgSize - cur < fuel → ∃ r', parseLoop m fuel cur r = some r' ∧ Found m (seen ++ os) r' := by
  induction h with
  | @stop cur _ he =>
    rintro seen (_ | fuel) r hr hf
    · omega
    · refine ⟨_, by rw [parseLoop, if_neg fun h => h.1 he], ?_⟩
      rw [List.append_nil]
      exact hr.read _
  | @past cur hs =>
    rintro seen (_ | fuel) r hr hf
    · omega
    · refine ⟨_, by rw [parseLoop, if_neg fun h => Nat.not_lt.mpr hs h.2], ?_⟩
      rw [List.append_nil]
      exact hr.read _
  | @pad cur os hlt hp _ ih =>
    rintro seen (_ | fuel) r hr hf
    · omega
    · have hne : m cur ≠ optionEnd := by rw [hp]; decide
      obtain ⟨r', hr', hd⟩ := ih (hr.read (cur :: r.reads)) (show msgSize - (cur + 1) < fuel by omega)
      exact ⟨r', by rw [parseLoop, if_pos ⟨hne, by omega⟩, if_pos hp]; exact hr', hd⟩
  | @opt cur os hlt he hp _ ih =>
    rintro seen (_ | fuel) r hr hf
    · omega
    · obtain ⟨r', hr', hd⟩ := ih ((hr.read (cur :: r.reads)).take cur)
        (show msgSize - (cur + 2 + (m (cur + 1)).toNat) < fuel by omega)
      refine ⟨r', by rw [parseLoop, if_pos ⟨he, by omega⟩, if_neg hp]; exact hr', ?_⟩
      rwa [List.append_assoc] at hd
  | @last cur hlt he hp hs =>
    rintro seen (_ | _ | fuel) r hr hf
    · omega
    · omega
    · -- whatever the length is, the pointer is behind the message
      refine ⟨_, ?_, ((hr.read (cur :: r.reads)).take cur).read
        ((cur + 2 + (m (cur + 1)).toNat) :: (takeOption m cur { r with reads := cur :: r.reads }).reads)⟩
      rw [parseLoop, if_pos ⟨he, by omega⟩, if_neg hp, parseLoop, if_neg fun h => by have := h.2; omega]

def requestAt (m : Mem) (os : List Nat) (o : Nat) : Request where
  mac := macAt m chaddrAt
  msgType := m (o + 2)
  reqIpAddr := ((lastAt m optionReqIpAddr os).map fun a => word m (a + 2)).getD 0
  serverId := ((lastAt m optionServerId os).map fun a => word m (a + 2)).getD 0
  xid := htonl (word m xidAt)

theorem request_met (hok : headerOk m) (h : Met m lim optionsAt os) (hl : lim ≤ msgSize) :
    request m = (lastAt m optionMsgType os).map (requestAt m os) := by
  obtain ⟨r, hr, hf⟩ := parseLoop_met h hl (Found.start m) (show msgSize - optionsAt < msgSize - optionsAt + 1 by omega)
  rw [List.nil_append] at hf
  rw [request, if_pos hok, parseDhcpOptions, hr, Option.bind_some]
  cases ho : lastAt m optionMsgType os with
  | none => rw [if_pos (hf.ret.mpr ho), Option.map_none]
  | some o =>
    have hne : ¬(r.ret &&& 1 = 0) := fun h0 => by rw [hf.ret.mp h0] at ho; cases ho
    rw [if_neg hne, Option.map_some, requestAt, hf.msgType o ho, hf.reqIpAddr, hf.serverId]

end

/-! ## Messages that can be any type -/

/-- With other bytes from `lim` on, the last type option says `type`. -/
def CanBe (m : Mem) (lim cur : Nat) (type : UInt8) : Prop :=
  ∃ m' : Mem, (∀ a, a < lim → m' a = m a) ∧
    ∃ os o, Met m' msgSize cur os ∧ lastAt m' optionMsgType os = some o ∧ m' (o + 2) = type

def typeOption (m : Mem) (cur : Nat) (type : UInt8) : Mem := patch m cur [optionMsgType, 1, type, optionEnd]

section
variable {m : Mem} {lim cur : Nat} {type : UInt8}

theorem canBe_here (hl : lim ≤ cur) (hs : cur < msgSize) : CanBe m lim cur type := by
  have hhold : Holds (typeOption m cur type) cur [optionMsgType, 1, type, optionEnd] :=
    fun _ hi => patch_inside hi
  have hcode : typeOption m cur type cur = optionMsgType := hhold 0 (by simp)
  have hlen : typeOption m cur type (cur + 1) = 1 := hhold 1 (by simp)
  have hend : typeOption m cur type (cur + 3) = optionEnd := hhold 3 (by simp)
  have he : typeOption m cur type cur ≠ optionEnd := by rw [hcode]; decide
  have hp : typeOption m cur type cur ≠ optionPad := by rw [hcode]; decide
  refine ⟨typeOption m cur type, fun a ha => patch_below (by omega), [cur], cur, ?_, ?_, hhold 2 (by simp)⟩
  · rcases Nat.lt_or_ge (cur + 3) msgSize with h3 | h3
    · refine .opt (by omega) he hp ?_
      rw [hlen]
      exact .stop h3 hend
    · rcases Nat.lt_or_ge (cur + 1) msgSize with h1 | h1
      · refine .opt h1 he hp ?_
        rw [hlen]
        exact .past h3
      · exact .last hs he hp (by omega)
  · rw [← List.nil_append [cur], lastAt_snoc, if_pos hcode]

theorem CanBe.mono {lim' : Nat} {m' : Mem} (h : CanBe m' lim' cur type) (hl : lim ≤ lim') (hm : ∀ a, a < lim → m' a = m a) :
    CanBe m lim cur type := by
  obtain ⟨M, hM, hmet⟩ := h
  exact ⟨M, fun a ha => (hM a (by omega)).trans (hm a ha), hmet⟩

theorem CanBe.pad (h : CanBe m lim (cur + 1) type) (hlt : cur < lim) (hl : lim ≤ msgSize) (hp : m cur = optionPad) :
    CanBe m lim cur type := by
  obtain ⟨M, hM, os, o, hmet, ho, ht⟩ := h
  exact ⟨M, hM, os, o, .pad (by omega) ((hM _ hlt).trans hp) hmet, ho, ht⟩

theorem CanBe.opt (hlt : cur + 1 < lim) (hl : lim ≤ msgSize) (h : CanBe m lim (cur + 2 + (m (cur + 1)).toNat) type)
    (he : m cur ≠ optionEnd) (hp : m cur ≠ optionPad) : CanBe m lim cur type := by
  obtain ⟨M, hM, os, o, hmet, ho, ht⟩ := h
  have hcode := hM cur (by omega)
  refine ⟨M, hM, cur :: os, o, .opt (by omega) (hcode ▸ he) (hcode ▸ hp) ?_, lastAt_cons ho cur, ht⟩
  rwa [hM _ hlt]

/-- Where the bytes below the limit do not lead the walk to its end, those
behind it choose the type. -/
theorem canBe_of_not_met (hl : lim ≤ msgSize) (type : UInt8) (cur : Nat) (h : ¬∃ os, Met m lim cur os) : CanBe m lim cur type := by
  rcases Nat.lt_or_ge cur msgSize with hs | hs
  swap
  · exact absurd ⟨[], .past hs⟩ h
  rcases Nat.lt_or_ge cur lim with hlt | hge
  swap
  · exact canBe_here hge hs
  by_cases he : m cur = optionEnd
  · exact absurd ⟨[], .stop hlt he⟩ h
  by_cases hp : m cur = optionPad
  · have hnext : ¬∃ os, Met m lim (cur + 1) os := fun ⟨os, hmet⟩ => h ⟨os, .pad hlt hp hmet⟩
    exact (canBe_of_not_met hl type _ hnext).pad hlt hl hp
  rcases Nat.lt_or_ge (cur + 1) lim with hlen | hlen
  · have hnext : ¬∃ os, Met m lim (cur + 2 + (m (cur + 1)).toNat) os := fun ⟨os, hmet⟩ => h ⟨_, .opt hlen he hp hmet⟩
    exact .opt hlen hl (canBe_of_not_met hl type _ hnext) he hp
  · -- the length is behind the limit: 0 leaves room for a type option
    have hroom : cur + 2 < msgSize := Nat.lt_of_not_le fun hs' => h ⟨_, .last hlt he hp hs'⟩
    have hzero : Function.update m (cur + 1) 0 cur = m cur := Function.update_of_ne (by omega) _ _
    have hnext : CanBe (Function.update m (cur + 1) 0) (cur + 2)
        (cur + 2 + (Function.update m (cur + 1) 0 (cur + 1)).toNat) type := by
      rw [Function.update_self]
      exact canBe_here (Nat.le_refl _) hroom
    refine (CanBe.opt (by omega) (by omega) hnext (hzero ▸ he) (hzero ▸ hp)).mono (by omega) fun a ha => ?_
    exact Function.update_of_ne (by omega) _ _
termination_by msgSize - cur

end

end SerialNet.Dhcp
