import SerialNet.Dns.Name

/-!
# When the DNS server answers right

The receive callback on every message and every accepted name: the address
answer on exactly the questions that match, the name error on the others, and
no read of the comparison outside the name and the message.
-/

namespace SerialNet.Dns

inductive Accepted (name : CString) : DnsServer → Prop
  | config (srv : DnsServer) : (dnssConfig srv (some name)).2 = errSuccess → Accepted name (dnssConfig srv (some name)).1
  | start (srv : DnsServer) (isUp : Bool) (ip : Vector UInt8 4) (udpNew : Option Nat) :
    (dnssStart srv isUp ip name udpNew).2 = errSuccess → Accepted name (dnssStart srv isUp ip name udpNew).1

theorem Accepted.stored {name : CString} {srv : DnsServer} (h : Accepted name srv) :
    srv.dnsName = storeName name ∧ name.chars.length ≤ maxName := by
  cases h with
  | config srv hok =>
    unfold dnssConfig at *
    dsimp only at *
    split at hok
    · cases hok
    · rename_i hle
      simp only [hle, if_false]
      exact ⟨trivial, by omega⟩
  | start srv isUp ip udpNew hok =>
    unfold dnssStart at *
    split at hok
    · cases hok
    · rename_i hle
      split at hok
      · cases hok
      · rename_i hup
        simp only [hle, hup, if_false]
        exact ⟨by simp, by omega⟩

/-- What the callback reads of its own accord: whether it called the comparison,
whether that ended, and where it read. -/
def ReadsInside (msg : List UInt8) : Option (Option (Int × Cmp)) → Prop
  | none => True
  | some none => False
  | some (some (_, s)) => (∀ a ∈ s.myReads, nameAt ≤ a ∧ a < nameEnd) ∧ ∀ a ∈ s.queryReads, a < msg.length

section
variable (name : CString) (srv : DnsServer) (msg : List UInt8) (alloc : Alloc) (outMsg outSrv : Mem)

/-- A query is answered by the address or by the name error, as its name says. -/
structure AnswersRight : Prop where
  answer : headerOk (messageMem msg outMsg) → Matches name msg →
    ∃ bytes, (dnssRecvCb srv msg alloc outMsg outSrv).1 = some (.answer bytes)
  nameErr : headerOk (messageMem msg outMsg) → ¬Matches name msg →
    ∃ bytes, (dnssRecvCb srv msg alloc outMsg outSrv).1 = some (.nameErr bytes)
  reads : ReadsInside msg (dnssRecvCb srv msg alloc outMsg outSrv).2

def nameLen : Nat := Util.strlen (messageMem msg outMsg) headerSize

/-- The queries on which the comparison decides right: memory is left, the type or
class behind what `strlen` counts is the one served, `strlen` stops inside the
message, and the name is too short or too long, differs from the configured name
where both have bytes, or matches a name that leaves room for its terminator. -/
structure Answerable : Prop where
  message : alloc.message = true
  reply : alloc.reply = true
  question : questionOk (messageMem msg outMsg) (nameLen msg outMsg)
  ended : headerSize + nameLen msg outMsg < msg.length
  name : nameLen msg outMsg = 0 ∨ maxName + 1 < nameLen msg outMsg ∨
    DiffersFirst (storeName name).toList (msg.drop headerSize) ∨ (Matches name msg ∧ name.chars.length < maxName)

end

/-! ## Lengths -/

theorem toUpper_eq_zero {c : UInt8} (h : toUpper c = 0) : c = 0 := by
  unfold toUpper at h
  split at h
  · rename_i hc
    have h0 := congrArg UInt8.toNat h
    simp only [UInt8.le_iff_toNat_le, UInt8.toNat_add, UInt8.toNat_sub, UInt8.reduceToNat] at hc h0
    omega
  · exact h

theorem SameName.noNul {a b : List UInt8} (h : SameName a b) (hb : 0 ∉ b) : 0 ∉ a := by
  intro ha
  have h0 : toUpper 0 ∈ b.map toUpper := by
    rw [← h]
    exact List.mem_map_of_mem ha
  obtain ⟨c, hc, hcz⟩ := List.mem_map.mp h0
  rw [toUpper_eq_zero hcz] at hc
  exact hb hc

/-- The labels of a name without zero bytes: their bytes on the wire, and how many. -/
theorem encodeLabels_dotted {l : List UInt8} {ls : List (List UInt8)} (hl : IsLabel l) (hls : ∀ l ∈ ls, IsLabel l)
    (hz : 0 ∉ dottedFrom l ls) :
    0 ∉ encodeLabels (l :: ls) ∧ (encodeLabels (l :: ls)).length = (dottedFrom l ls).length + 1 := by
  have hpos : ∀ {l : List UInt8}, IsLabel l → UInt8.ofNat l.length ≠ 0 := by
    intro l hl h
    have := hl.toNat_length
    rw [h] at this
    exact hl.nonempty (List.length_eq_zero_iff.mp this.symm)
  induction ls generalizing l with
  | nil =>
    rw [dottedFrom] at hz ⊢
    simp only [encodeLabels, List.append_nil, List.mem_cons, not_or, List.length_cons, and_true]
    exact ⟨(hpos hl).symm, hz⟩
  | cons l' ls ih =>
    obtain ⟨hl', hls⟩ := List.forall_mem_cons.mp hls
    rw [dottedFrom] at hz ⊢
    simp only [List.mem_append, List.mem_cons, not_or] at hz
    obtain ⟨hnz, hlen⟩ := ih hl' hls hz.2.2
    rw [encodeLabels]
    simp only [List.mem_cons, List.mem_append, not_or, List.length_cons, List.length_append, hlen]
    exact ⟨⟨(hpos hl).symm, hz.1, hnz⟩, trivial⟩

/-! ## Questions that match -/

structure Labels (name : CString) (msg : List UInt8) (l : List UInt8) (ls : List (List UInt8)) : Prop where
  first : IsLabel l
  rest : ∀ l ∈ ls, IsLabel l
  same : SameName (dottedFrom l ls) name.chars
  wire : ∃ q, msg.drop headerSize = UInt8.ofNat l.length :: (l ++ (encodeLabels ls ++ 0 :: q))

theorem Matches.labels {name : CString} {msg : List UInt8} (hne : name.chars ≠ []) (h : Matches name msg) :
    ∃ l ls, Labels name msg l ls := by
  obtain ⟨labels, hall, ⟨q, hq⟩, hsame⟩ := h
  cases labels with
  | nil =>
    exact absurd (List.map_eq_nil_iff.mp hsame.symm) hne
  | cons l ls =>
    obtain ⟨hl, hls⟩ := List.forall_mem_cons.mp hall
    refine ⟨l, ls, hl, hls, hsame, q, ?_⟩
    rw [← hq]
    simp [encodeLabels]

theorem Labels.nameLen {name : CString} {msg : List UInt8} {l : List UInt8} {ls : List (List UInt8)}
    (h : Labels name msg l ls) (hlen : name.chars.length ≤ maxName) (out : Mem) :
    nameLen msg out = name.chars.length + 1 := by
  obtain ⟨hnz, hwire⟩ := encodeLabels_dotted h.first h.rest (h.same.noNul name.noNul)
  have hchars : (dottedFrom l ls).length = name.chars.length := by simpa using congrArg List.length h.same
  obtain ⟨q, hq⟩ := h.wire
  have hq' : msg.drop headerSize = encodeLabels (l :: ls) ++ 0 :: q := by
    rw [hq]
    simp [encodeLabels]
  have hget : ∀ k, k < (encodeLabels (l :: ls) ++ 0 :: q).length →
      messageMem msg out (headerSize + k) = (encodeLabels (l :: ls) ++ 0 :: q).getD k 0 := by
    intro k hk
    have : headerSize + k < msg.length := by
      rw [← hq', List.length_drop] at hk
      omega
    rw [← hq', messageMem, List.getD_eq_getElem?_getD, List.getD_eq_getElem?_getD, List.getElem?_drop,
      List.getElem?_eq_getElem this, Option.getD_some, Option.getD_some]
  rw [← hchars, ← hwire]
  refine Util.strlen_eq (fun k hk => ?_) ?_ (.inl ?_)
  · rw [hget k (by simp; omega), List.getD_eq_getElem?_getD, List.getElem?_append_left hk,
      List.getElem?_eq_getElem hk, Option.getD_some]
    exact fun h0 => hnz (h0 ▸ List.getElem_mem hk)
  · rw [hwire, hchars]
    exact Nat.le_trans (Nat.succ_le_succ hlen) (by decide)
  · rw [hget _ (by simp), List.getD_eq_getElem?_getD, List.getElem?_append_right (Nat.le_refl _)]
    simp

/-! ## The comparison on a question -/

theorem storeName_getElem {name : CString} {k : Nat} (hk : k < (storeName name).toList.length) :
    (storeName name).toList[k] = name.chars.getD k 0 := by
  simp [storeName]

theorem storeName_toList {name : CString} (h : name.chars.length ≤ maxName) :
    (storeName name).toList = name.chars ++ List.replicate (maxName - name.chars.length) 0 := by
  refine List.ext_getElem ?_ fun k h₁ h₂ => ?_
  · simp only [Vector.length_toList, List.length_append, List.length_replicate]
    unfold maxName at *
    omega
  · rw [storeName_getElem, List.getD_eq_getElem?_getD, List.getElem_append]
    by_cases hk : k < name.chars.length
    · rw [dif_pos hk, List.getElem?_eq_getElem hk, Option.getD_some]
    · rw [dif_neg hk, List.getElem?_eq_none (by omega), List.getElem_replicate, Option.getD_none]

section
variable {name : CString} {srv : DnsServer} {msg : List UInt8} {outMsg outSrv : Mem}

theorem lies (outMsg outSrv : Mem) (hsrv : srv.dnsName = storeName name) (hmsg : headerSize ≤ msg.length) :
    Lies (storeName name).toList (msg.drop headerSize) (srv.mem outSrv) (messageMem msg outMsg) where
  my k hk := by
    have hk' : k < 32 := by simpa using hk
    have h₁ : ¬nameAt + k < nameAt := by omega
    have h₂ : nameAt + k < nameEnd := by unfold nameEnd; omega
    have h₃ : nameAt + k - nameAt = k := by omega
    rw [DnsServer.mem, if_neg h₁, if_pos h₂, h₃, hsrv, List.getD_eq_getElem?_getD, List.getElem?_eq_getElem hk,
      Option.getD_some]
  query k hk := by
    have hk' : headerSize + k < msg.length := by
      rw [List.length_drop] at hk
      omega
    rw [messageMem, List.getD_eq_getElem?_getD, List.getElem?_eq_getElem hk', Option.getD_some, List.getElem_drop]

def compared (srv : DnsServer) (msg : List UInt8) (outMsg outSrv : Mem) : Option (Int × Cmp) :=
  dnsCompareName (srv.mem outSrv) (messageMem msg outMsg) headerSize (nameLen msg outMsg) (msg.length + 1)

/-- The pointers at the start, `strlen` having read the question. -/
def firstCmp (len : Nat) : Cmp :=
  { my := nameAt, query := headerSize, myReads := [], queryReads := strlenReads headerSize len }

theorem inside_firstCmp {dl ql len : Nat} : Inside dl ql (firstCmp len) ↔ len < ql := by
  simp only [Inside, firstCmp, strlenReads, List.not_mem_nil, false_implies, implies_true, true_and, List.mem_map,
    List.mem_range, forall_exists_index, and_imp]
  constructor
  · intro h
    have := h _ len (by omega) rfl
    omega
  · rintro h _ k hk rfl
    omega

theorem compared_eq (hlen : nameLen msg outMsg ≠ 0) (hmax : nameLen msg outMsg ≤ maxName + 1) :
    compared srv msg outMsg outSrv =
      compareLabels (srv.mem outSrv) (messageMem msg outMsg) (msg.length + 1) (firstCmp (nameLen msg outMsg)) := by
  rw [compared, dnsCompareName, if_neg (by omega)]
  rfl

variable (outSrv) (hsrv : srv.dnsName = storeName name)
  (hend : headerSize + nameLen msg outMsg < msg.length)
include hend

theorem nameLen_lt_drop : nameLen msg outMsg < (msg.drop headerSize).length := by
  rw [List.length_drop]
  omega

theorem inside_first_enter : Inside 32 (msg.drop headerSize).length (firstCmp (nameLen msg outMsg)).enter := by
  have hlt := nameLen_lt_drop hend
  rw [inside_enter, inside_firstCmp]
  exact ⟨by unfold firstCmp; dsimp only; omega, hlt⟩

include hsrv

theorem refuses_compared (hlen : nameLen msg outMsg ≠ 0) (hmax : nameLen msg outMsg ≤ maxName + 1) :
    Refuses 32 (msg.drop headerSize).length (compared srv msg outMsg outSrv) ↔
      DiffersFirst (storeName name).toList (msg.drop headerSize) := by
  have hm := lies outMsg outSrv hsrv (show headerSize ≤ msg.length by omega)
  have hlt := nameLen_lt_drop hend
  have hin := inside_first_enter hend
  have hdl : (storeName name).toList.length = 32 := by simp
  obtain ⟨b, q, hq⟩ : ∃ b q, msg.drop headerSize = b :: q := List.exists_cons_of_length_pos (by omega)
  obtain ⟨_, hb, hq₁⟩ := of_drop_eq_cons (k := 0) hq
  have hread : messageMem msg outMsg (firstCmp (nameLen msg outMsg)).query = b := by
    rw [← hb]
    exact hm.query 0 (by omega)
  rw [compared_eq hlen hmax, compareLabels_succ, hread]
  by_cases hp : isPointer b
  · rw [if_pos hp, hq]
    refine iff_of_false (fun h => ?_) (fun h => h.1 hp)
    obtain ⟨_, _, he, _, hin⟩ := h
    cases he
    have := (inside_compareEnd (s := (firstCmp (nameLen msg outMsg)).enter) (srv.mem outSrv)).mp hin
    exact absurd this.1.1 (show ¬nameAt ≤ nameAt - 1 by decide)
  · have hs : PointsAt 0 1 (firstCmp (nameLen msg outMsg)).enter := ⟨rfl, rfl⟩
    have hf := refuses_compareFrom hm msg.length b.toNat hs (by rw [hdl]; exact hin)
      (by rw [List.length_drop]; omega)
    rw [hdl] at hf
    rw [if_neg hp, hf, hq₁, List.drop_zero, hq]
    exact ⟨fun h => ⟨hp, h⟩, fun h => h.2⟩

/-- A question that matches is walked to the byte behind the name. -/
theorem matched_compared (hmax : name.chars.length ≤ maxName) {l : List UInt8} {ls : List (List UInt8)}
    (h : Labels name msg l ls) :
    ∃ s, compared srv msg outMsg outSrv = some (compareEnd (srv.mem outSrv) s) ∧
      s.my = nameAt + name.chars.length + 1 ∧ Inside 32 (msg.drop headerSize).length s := by
  have hm := lies outMsg outSrv hsrv (show headerSize ≤ msg.length by omega)
  have hlt := nameLen_lt_drop hend
  have hin := inside_first_enter hend
  have hdl : (storeName name).toList.length = 32 := by simp
  have hlen := h.nameLen hmax outMsg
  obtain ⟨q, hq⟩ := h.wire
  obtain ⟨_, hb, hq₁⟩ := of_drop_eq_cons (k := 0) hq
  have hread : messageMem msg outMsg (firstCmp (nameLen msg outMsg)).query = UInt8.ofNat l.length := by
    rw [← hb]
    exact hm.query 0 (by omega)
  have hs : PointsAt 0 1 (firstCmp (nameLen msg outMsg)).enter := ⟨rfl, rfl⟩
  have hD : (storeName name).toList.drop 0 = name.chars ++ List.replicate (maxName - name.chars.length) 0 :=
    storeName_toList hmax
  obtain ⟨s, he, hmy, hin'⟩ := compareFrom_match hm h.rest h.same hq₁ hD hs (by rw [hdl]; exact hin)
    (show _ ≤ 1 + msg.length by rw [List.length_drop]; omega)
  refine ⟨s, ?_, ?_, ?_⟩
  · rw [compared_eq (by omega) (by omega), compareLabels_succ, hread, if_neg h.first.not_pointer,
      h.first.toNat_length, he]
  · rw [hmy, Nat.zero_add]
  · rw [hdl] at hin'
    exact hin'

end

/-! ## The callback -/

section
variable {name : CString} {srv : DnsServer} {msg : List UInt8} {alloc : Alloc} {outMsg outSrv : Mem}

/-- The reply to a comparison that has ended. -/
def replyTo (srv : DnsServer) (m : Mem) (len : Nat) (ret : Int) : Reply :=
  if ret ≠ 0 then .nameErr (dnsNameErrGen m len) else .answer (dnsAnswerGen srv m len)

/-- What the callback sends after the comparison. -/
def replyAfter (srv : DnsServer) (m : Mem) (len : Nat) (alloc : Alloc) : Option (Int × Cmp) → Option Reply
  | none => none
  | some (ret, _) => if alloc.reply then some (replyTo srv m len ret) else none

theorem dnssRecvCb_eq (srv : DnsServer) (outSrv : Mem) (hmsg : alloc.message = true) (hok : headerOk (messageMem msg outMsg))
    (hq : questionOk (messageMem msg outMsg) (nameLen msg outMsg)) :
    dnssRecvCb srv msg alloc outMsg outSrv =
      (replyAfter srv (messageMem msg outMsg) (nameLen msg outMsg) alloc (compared srv msg outMsg outSrv),
        some (compared srv msg outMsg outSrv)) := by
  have hq' : ¬¬questionOk (messageMem msg outMsg) (Util.strlen (messageMem msg outMsg) headerSize) :=
    not_not_intro hq
  rw [dnssRecvCb, if_neg (by simp [hmsg])]
  dsimp only
  rw [if_neg (not_not_intro hok), if_neg hq']
  unfold replyAfter compared nameLen replyTo
  rfl

theorem of_replied {r : Reply} (h : (dnssRecvCb srv msg alloc outMsg outSrv).1 = some r) :
    alloc.message = true ∧ questionOk (messageMem msg outMsg) (nameLen msg outMsg) := by
  unfold dnssRecvCb at h
  split at h
  · cases h
  · rename_i hmsg
    dsimp only at h
    split at h
    · cases h
    · split at h
      · cases h
      · rename_i hq
        exact ⟨by simpa using hmsg, Decidable.not_not.mp hq⟩

theorem AnswersRight.replied (h : AnswersRight name srv msg alloc outMsg outSrv)
    (hok : headerOk (messageMem msg outMsg)) : ∃ r, (dnssRecvCb srv msg alloc outMsg outSrv).1 = some r := by
  by_cases hm : Matches name msg
  · obtain ⟨b, hb⟩ := h.answer hok hm
    exact ⟨_, hb⟩
  · obtain ⟨b, hb⟩ := h.nameErr hok hm
    exact ⟨_, hb⟩

theorem inside_of_readsInside {ret : Int} {s : Cmp} (h : ReadsInside msg (some (some (ret, s)))) :
    Inside 32 (msg.drop headerSize).length s := by
  refine ⟨h.1, fun a ha => ?_⟩
  have := h.2 a ha
  rw [List.length_drop]
  omega

theorem readsInside_of_inside (hlen : headerSize ≤ msg.length) {ret : Int} {s : Cmp}
    (h : Inside 32 (msg.drop headerSize).length s) : ReadsInside msg (some (some (ret, s))) := by
  refine ⟨h.1, fun a ha => ?_⟩
  have := h.2 a ha
  rw [List.length_drop] at this
  omega

/-- Reads that end inside leave `strlen` inside the message. -/
theorem ended_of_inside {ret : Int} {s : Cmp} (he : compared srv msg outMsg outSrv = some (ret, s))
    (h : Inside 32 (msg.drop headerSize).length s) : headerSize + nameLen msg outMsg < msg.length := by
  have hfirst : Inside 32 (msg.drop headerSize).length (firstCmp (nameLen msg outMsg)) := by
    unfold compared dnsCompareName at he
    dsimp only at he
    split at he
    · cases he
      exact h
    · exact inside_compareLabels h _ _ he
  rw [inside_firstCmp, List.length_drop] at hfirst
  omega

theorem compared_short (h : nameLen msg outMsg = 0 ∨ maxName + 1 < nameLen msg outMsg) :
    compared srv msg outMsg outSrv = some (1, firstCmp (nameLen msg outMsg)) := by
  rw [compared, dnsCompareName, if_pos (by omega)]
  rfl

theorem terminator (hsrv : srv.dnsName = storeName name) (hlen : name.chars.length < maxName) :
    srv.mem outSrv (nameAt + name.chars.length) = 0 := by
  have hk : name.chars.length < (storeName name).toList.length := by
    rw [Vector.length_toList]
    exact hlen
  have hm := lies (fun _ => 0) outSrv hsrv (show headerSize ≤ (List.replicate headerSize (0 : UInt8)).length by simp)
  rw [hm.my _ hk, storeName_getElem, List.getD_eq_getElem?_getD, List.getElem?_eq_none (Nat.le_refl _)]
  rfl

section
variable (hacc : Accepted name srv) (hne : name.chars ≠ [])
include hacc hne

/-- A comparison that ended with a difference, the name fitting the limits. -/
theorem not_matches_of_refuses (hend : headerSize + nameLen msg outMsg < msg.length)
    (h : Refuses 32 (msg.drop headerSize).length (compared srv msg outMsg outSrv)) : ¬Matches name msg := by
  intro hmatch
  obtain ⟨hsrv, hmax⟩ := hacc.stored
  obtain ⟨l, ls, hl⟩ := hmatch.labels hne
  obtain ⟨s, he, hmy, hin⟩ := matched_compared outSrv hsrv hend hmax hl
  obtain ⟨ret, s', he', hret, hin'⟩ := h
  rw [he] at he'
  cases he'
  have hread := ((inside_compareEnd (s := s) (srv.mem outSrv)).mp hin').1.2
  have hlt : name.chars.length < maxName := by
    unfold maxName
    omega
  refine hret ?_
  have hmy' : s.my - 1 = nameAt + name.chars.length := by omega
  rw [hmy', terminator hsrv hlt]
  rfl

theorem answerable_of_right (hok : headerOk (messageMem msg outMsg))
    (h : AnswersRight name srv msg alloc outMsg outSrv) : Answerable name msg alloc outMsg := by
  obtain ⟨hsrv, hmax⟩ := hacc.stored
  obtain ⟨r, hr⟩ := h.replied hok
  obtain ⟨hmsg, hq⟩ := of_replied hr
  have heq := dnssRecvCb_eq srv outSrv hmsg hok hq
  obtain ⟨ret, s, hc⟩ : ∃ ret s, compared srv msg outMsg outSrv = some (ret, s) := by
    rw [heq] at hr
    cases hc : compared srv msg outMsg outSrv with
    | none =>
      rw [hc] at hr
      cases hr
    | some o => exact ⟨o.1, o.2, rfl⟩
  have hreply : alloc.reply = true := by
    rw [heq, hc] at hr
    unfold replyAfter at hr
    dsimp only at hr
    split at hr
    · assumption
    · cases hr
  have hin : Inside 32 (msg.drop headerSize).length s := by
    have := h.reads
    rw [heq, hc] at this
    exact inside_of_readsInside this
  have hend := ended_of_inside hc hin
  refine ⟨hmsg, hreply, hq, hend, ?_⟩
  by_cases hshort : nameLen msg outMsg = 0 ∨ maxName + 1 < nameLen msg outMsg
  · exact hshort.elim .inl (.inr ∘ .inl)
  · refine .inr (.inr ?_)
    by_cases hmatch : Matches name msg
    · obtain ⟨l, ls, hl⟩ := hmatch.labels hne
      obtain ⟨s', he, hmy, _⟩ := matched_compared outSrv hsrv hend hmax hl
      rw [hc] at he
      cases he
      have hread := ((inside_compareEnd (s := s') (srv.mem outSrv)).mp hin).1.2
      refine .inr ⟨hmatch, ?_⟩
      unfold maxName
      omega
    · refine .inl ((refuses_compared outSrv hsrv hend (by omega) (by omega)).mp ?_)
      obtain ⟨bytes, hb⟩ := h.nameErr hok hmatch
      rw [heq, hc] at hb
      rw [hc, refuses_some]
      refine ⟨fun h0 => ?_, hin⟩
      simp [replyAfter, hreply, replyTo, h0] at hb

theorem right_of_answerable (hok : headerOk (messageMem msg outMsg)) (h : Answerable name msg alloc outMsg) :
    AnswersRight name srv msg alloc outMsg outSrv := by
  obtain ⟨hsrv, hmax⟩ := hacc.stored
  have heq := dnssRecvCb_eq srv outSrv h.message hok h.question
  have hend := h.ended
  -- a comparison that ended inside, with the result the name asks for
  have right : ∀ ret s, compared srv msg outMsg outSrv = some (ret, s) → Inside 32 (msg.drop headerSize).length s →
      (ret = 0 ↔ Matches name msg) → AnswersRight name srv msg alloc outMsg outSrv := by
    intro ret s hc hin hiff
    rw [hc] at heq
    refine ⟨fun _ hmatch => ?_, fun _ hmatch => ?_, ?_⟩
    · rw [heq]
      simp [replyAfter, h.reply, replyTo, hiff.mpr hmatch]
    · rw [heq]
      simp [replyAfter, h.reply, replyTo, mt hiff.mp hmatch]
    · rw [heq]
      exact readsInside_of_inside (by omega) hin
  by_cases hshort : nameLen msg outMsg = 0 ∨ maxName + 1 < nameLen msg outMsg
  · have hlt := nameLen_lt_drop hend
    refine right _ _ (compared_short hshort) (inside_firstCmp.mpr hlt) (iff_of_false (by decide) fun hmatch => ?_)
    obtain ⟨l, ls, hl⟩ := hmatch.labels hne
    have := hl.nameLen hmax outMsg
    omega
  · have hrefuses := refuses_compared outSrv hsrv hend (by omega) (by omega)
    rcases h.name with h0 | h1 | hdiff | ⟨hmatch, hlt⟩
    · exact absurd (.inl h0) hshort
    · exact absurd (.inr h1) hshort
    · have href := hrefuses.mpr hdiff
      have hno := not_matches_of_refuses hacc hne hend href
      obtain ⟨ret, s, hc, hret, hin⟩ := href
      exact right ret s hc hin (iff_of_false hret hno)
    · obtain ⟨l, ls, hl⟩ := hmatch.labels hne
      obtain ⟨s, he, hmy, hin⟩ := matched_compared outSrv hsrv hend hmax hl
      have hmy' : s.my - 1 = nameAt + name.chars.length := by omega
      refine right _ _ he ((inside_compareEnd (s := s) (srv.mem outSrv)).mpr ⟨?_, hin⟩) (iff_of_true ?_ hmatch)
      · unfold maxName at hlt
        omega
      · rw [hmy', terminator hsrv hlt]
        rfl

end

/-- The server answers a query as its name says, and reads only inside the name
and the message, exactly when the query is one the comparison decides right. -/
theorem name_match (name : CString) (srv : DnsServer) (hacc : Accepted name srv) (hne : name.chars ≠ [])
    (msg : List UInt8) (alloc : Alloc) (outMsg outSrv : Mem) :
    AnswersRight name srv msg alloc outMsg outSrv ↔
      (headerOk (messageMem msg outMsg) → Answerable name msg alloc outMsg) := by
  by_cases hok : headerOk (messageMem msg outMsg)
  · exact ⟨fun h _ => answerable_of_right hacc hne hok h, fun h => right_of_answerable hacc hne hok (h hok)⟩
  · refine iff_of_true ⟨fun h => absurd h hok, fun h => absurd h hok, ?_⟩ (fun h => absurd h hok)
    have : dnssRecvCb srv msg alloc outMsg outSrv = (none, none) := by
      unfold dnssRecvCb
      split
      · rfl
      · exact if_pos hok
    rw [this]
    trivial

end

def sampleName : CString := ⟨[110, 117, 102, 114, 111, 110, 116], by decide⟩

def sampleServer : DnsServer := (dnssStart DnsServer.zero true (.replicate 4 10) sampleName (some 1)).1

theorem sampleServer_accepted : Accepted sampleName sampleServer := .start DnsServer.zero true (.replicate 4 10) (some 1) rfl

def queryFor (question : List UInt8) : List UInt8 := [0, 1, 1, 0, 0, 1, 0, 0, 0, 0, 0, 0] ++ question ++ [0, 1, 0, 1]

theorem name_match_sample :
    Accepted sampleName sampleServer ∧ sampleName.chars ≠ [] ∧
      (AnswersRight sampleName sampleServer (queryFor [2, 110, 122, 0]) ⟨true, true⟩ (fun _ => 7) (fun _ => 7) ↔
        (headerOk (messageMem (queryFor [2, 110, 122, 0]) (fun _ => 7)) →
          Answerable sampleName (queryFor [2, 110, 122, 0]) ⟨true, true⟩ (fun _ => 7))) :=
  ⟨sampleServer_accepted, by decide, name_match sampleName sampleServer sampleServer_accepted (by decide) _ _ _ _⟩

/-- The labels `nuf` and `ont`: the walk steps over the `r` between them. -/
def splitLabels : List UInt8 := [3, 110, 117, 102, 3, 111, 110, 116, 0]

theorem not_matches_splitLabels : ¬Matches sampleName (queryFor splitLabels) := by
  intro h
  obtain ⟨l, ls, hl, _, hsame, q, hq⟩ := h.labels (by decide)
  have hlen : l.length = 3 := by
    have hb : (3 : UInt8) = UInt8.ofNat l.length := (List.cons.inj hq).1
    have := hl.toNat_length
    rw [← hb] at this
    exact this.symm
  cases ls with
  | nil =>
    have := congrArg List.length hsame
    simp [dottedFrom, hlen, sampleName] at this
  | cons l' ls =>
    have := congrArg (·[3]?) hsame
    simp only [dottedFrom, List.map_append, List.map_cons] at this
    rw [List.getElem?_append_right (by simp [hlen])] at this
    simp [hlen, sampleName] at this
    exact absurd this (by decide)

theorem splitLabels_answered :
    ¬AnswersRight sampleName sampleServer (queryFor splitLabels) ⟨true, true⟩ (fun _ => 0) (fun _ => 0) := by
  intro h
  obtain ⟨bytes, hb⟩ := h.nameErr (by decide) not_matches_splitLabels
  have hsent : (dnssRecvCb sampleServer (queryFor splitLabels) ⟨true, true⟩ (fun _ => 0) (fun _ => 0)).1 =
      some (.answer (dnsAnswerGen sampleServer (messageMem (queryFor splitLabels) fun _ => 0) 8)) := by
    decide
  rw [hsent] at hb
  cases hb

end SerialNet.Dns
