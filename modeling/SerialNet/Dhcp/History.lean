import SerialNet.Dhcp.Device

/-!
# The history of a client's address

An entry that was bound to a client stays that client's history until another
client is given the entry or the client is bound elsewhere. `hist` records
this beside the server; `history_run` says along which runs of the device the
table agrees with it.
-/

namespace SerialNet.Dhcp

open Run

/-- The server with, for each entry, the client whose history it is. -/
structure HState where
  srv : DhcpServer
  hist : Slot → Option Mac

/-- The history of `m` in `i` is over in `t`: another client is given the
entry, or `m` is bound elsewhere. -/
def Ended (t : Table) (m : Mac) (i : Slot) : Prop :=
  (Active (t i) ∧ (t i).macAddr ≠ m) ∨ ∃ j, j ≠ i ∧ (t j).state = .bind ∧ (t j).macAddr = m

instance (t : Table) (m : Mac) (i : Slot) : Decidable (Ended t m i) := inferInstanceAs (Decidable (_ ∨ _))

def record (hist : Slot → Option Mac) (t : Table) : Slot → Option Mac := fun i =>
  if (t i).state = .bind then some (t i).macAddr
  else match hist i with
  | none => none
  | some m => if Ended t m i then none else some m

def hstep (s : HState) (op : Op) : HState :=
  { srv := step s.srv op, hist := record s.hist (step s.srv op).clients }

theorem hstep_srv (s : HState) (op : Op) : (hstep s op).srv = step s.srv op := rfl

theorem record_bind {hist : Slot → Option Mac} {t : Table} {i : Slot} (h : (t i).state = .bind) :
    record hist t i = some (t i).macAddr := by
  simp [record, h]

theorem record_some {hist : Slot → Option Mac} {t : Table} {i : Slot} {m : Mac} (h : record hist t i = some m) :
    ((t i).state = .bind ∧ (t i).macAddr = m) ∨ (hist i = some m ∧ ¬Ended t m i) := by
  unfold record at h
  by_cases hb : (t i).state = .bind
  · rw [if_pos hb] at h
    exact .inl ⟨hb, Option.some.inj h⟩
  · rw [if_neg hb] at h
    cases hh : hist i with
    | none => rw [hh] at h; cases h
    | some m' =>
      rw [hh] at h
      dsimp only at h
      split at h
      · cases h
      · rename_i hno
        cases h
        exact .inr ⟨rfl, hno⟩

/-! ## What a message may not do -/

def NoExpiry (s : HState) : Prop :=
  s.srv.enable = true → ∀ i, (s.hist i).isSome = true →
    ¬((s.srv.clients i).state = .request ∧ (s.srv.clients i).timeout = 1)

def Binds (srv : DhcpServer) (mac : Mac) (ip sid : UInt32) : Prop :=
  takenByOther srv.clients mac ip = false ∧ Ours srv sid ∧ (reqEntry srv.clients ip ≠ none ∨ ¬Stranger srv.clients mac)

instance (srv : DhcpServer) (mac : Mac) (ip sid : UInt32) : Decidable (Binds srv mac ip sid) :=
  inferInstanceAs (Decidable (_ ∧ _ ∧ _))

/-- What the server is given takes no history from its client: a DISCOVER of a
client with a history names no other idle entry; while its entry waits for a
REQUEST after a new offer, the client does not release, decline or refuse it,
and the wait does not end; and the zero MAC is not bound. -/
def KeepsServed (s : HState) : Op → Prop
  | .message mac msgType ip sid _ =>
    (msgType = msgRequest → mac = zeroMac → ¬Binds s.srv mac ip sid) ∧ ∀ i, s.hist i = some mac →
      (msgType = msgDiscover → ∀ req, reqEntry s.srv.clients ip = some req → req = i) ∧
      ((s.srv.clients i).state = .request →
        (msgType = msgRequest → takenByOther s.srv.clients mac ip = false ∧
          (reqEntry s.srv.clients ip ≠ none → Ours s.srv sid)) ∧
        msgType ≠ msgRelease ∧ msgType ≠ msgDecline)
  | .tick _ => NoExpiry s
  | .clientDelete _ => True

instance (s : HState) : DecidablePred (KeepsServed s)
  | .message _ _ _ _ _ => inferInstanceAs (Decidable (_ ∧ ∀ _, _))
  | .tick _ => inferInstanceAs (Decidable (_ → ∀ _, _))
  | .clientDelete _ => inferInstanceAs (Decidable True)

/-! ## The invariant -/

structure HistInv (s : HState) : Prop where
  lease : LeaseInv s.srv.clients
  ip : ∀ i, (s.srv.clients i).ipAddr ≠ 0
  bound : ∀ i, (s.srv.clients i).state = .bind → (s.srv.clients i).macAddr ≠ zeroMac ∧
    s.hist i = some (s.srv.clients i).macAddr
  kept : ∀ i m, s.hist i = some m → m ≠ zeroMac ∧ (s.srv.clients i).macAddr = m
  alone : ∀ i m, s.hist i = some m → ∀ j, Mine s.srv.clients m j → j = i

/-- The entry `i` still belongs to the history of `m` in `t'`. -/
def Carried (t' : Table) (m : Mac) (i : Slot) : Prop := (t' i).macAddr = m ∧ ∀ j, Mine t' m j → j = i

/-- A client's only history is what the lookup finds. -/
theorem available_history {t : Table} (h : LeaseInv t) {m : Mac} {i : Slot} {ip : UInt32} (hz : m ≠ zeroMac)
    (hs : Stranger t m) (hm : (t i).macAddr = m) (hreq : ∀ req, reqEntry t ip = some req → req = i) :
    available t m ip = some i := by
  have hidle : (t i).state = .idle := by
    by_contra ha
    exact hs i ⟨ha, hm⟩
  unfold available
  cases hr : reqEntry t ip with
  | some req => simp [hreq req hr]
  | none =>
    cases hh : historyEntry t m with
    | none => exact absurd hm (idleWith_none.mp hh i hidle)
    | some k =>
      obtain ⟨hk, hmk⟩ := idleWith_some hh
      have : k = i := h.uniqueHistory k i (hmk ▸ hz) hk hidle (hmk.trans hm.symm)
      simp [this]

theorem HistInv.offered {s : HState} (h : HistInv s) {i : Slot} {m : Mac} (hi : s.hist i = some m) (sid xid : UInt32) :
    (handleMessage s.srv m msgDiscover 0 sid xid).2 = some (.offer (s.srv.clients i).ipAddr m xid) := by
  obtain ⟨hz, hm⟩ := h.kept i m hi
  have hreq : reqEntry s.srv.clients 0 = none := idleWith_none.mpr fun j _ => h.ip j
  have hh := @handled s.srv m 0 sid xid h.lease.noSelect msgDiscover
  generalize (handleMessage s.srv m msgDiscover 0 sid xid).1.clients = t' at hh
  generalize (handleMessage s.srv m msgDiscover 0 sid xid).2 = reply at hh ⊢
  cases hh with
  | discoverMove my req _ _ hr => rw [hreq] at hr; cases hr
  | discoverAgain my _ hmy _ => rw [h.alone i m hi my hmy]
  | discoverNew k _ hs hk =>
    rw [available_history h.lease hz hs hm fun req hr => by rw [hreq] at hr; cases hr] at hk
    cases hk
    rfl
  | discoverFull _ hs hn => exact absurd ⟨available_none.mp hn i, hm⟩ (hs i)
  | requestTaken _ he | requestMove _ _ he | requestRefuse _ _ he | requestKeep _ he | requestNone _ he
  | requestNew _ he | requestNak he => exact absurd he (by decide)
  | release _ he | releaseNone he => exact absurd he (by decide)
  | other he => exact absurd rfl he

/-! ## One step -/

/-- What a message of `mac` can do to the entry `j`. -/
inductive Touched (t t' : Table) (mac : Mac) (j : Slot) : Prop
  | same : t' j = t j → Touched t t' mac j
  | given : Mine t' mac j → Touched t t' mac j
  | left : (t j).macAddr = mac → (t' j).state = .idle → Touched t t' mac j

theorem touched_dropped {t t' : Table} {mac : Mac} (h : Dropped t mac t') (j : Slot) : Touched t t' mac j := by
  by_cases hm : (t j).macAddr = mac
  · cases h with
    | same => exact .same rfl
    | drop my _ _ =>
      by_cases hj : j = my
      · subst hj; exact .left hm (drop_idle t j)
      · exact .same (modify_other _ _ hj)
    | dropForget my _ _ =>
      by_cases hj : j = my
      · subst hj; exact .left hm (by simp [dropForget])
      · exact .same (modify_other _ _ hj)
  · exact .same (dropped_other h hm)

theorem touched {t t' : Table} {mac : Mac} (h : MessageOutcome t mac t') (j : Slot) : Touched t t' mac j := by
  cases h with
  | dropped t' hd => exact touched_dropped hd j
  | offer t₁ i hd _ _ =>
    by_cases hj : j = i
    · subst hj
      exact .given (by simp [Mine, Active, offerTo])
    · rcases touched_dropped hd j with h | h | ⟨hm, hi⟩
      · exact .same ((offerTo_other t₁ mac hj).trans h)
      · exact .given (by rwa [Mine, offerTo_other t₁ mac hj])
      · exact .left hm (by rwa [offerTo_other t₁ mac hj])
  | bind t₁ i hd _ _ =>
    by_cases hj : j = i
    · subst hj
      exact .given (by simp [Mine, Active, bindTo_self])
    · have hs := bindTo_state t₁ mac hj
      rcases touched_dropped hd j with h | h | ⟨hm, hi⟩
      · by_cases hc : (t₁ j).state = .idle ∧ (t₁ j).macAddr = mac
        · exact .left (h ▸ hc.2) (hs.trans hc.1)
        · exact .same (by rw [bindTo_other t₁ mac hj, if_neg hc, h])
      · exact .given (by rwa [Mine, bindTo_active t₁ mac hj h.1])
      · exact .left hm (hs.trans hi)

section
variable {s : HState} (h : HistInv s) {i : Slot} {m : Mac} (hi : s.hist i = some m)
include h hi

/-- Another client's message: the history stays or the entry is given away. -/
theorem carried_other {t' : Table} {mac : Mac} (ho : MessageOutcome s.srv.clients mac t') (hne : m ≠ mac) :
    Carried t' m i ∨ Ended t' m i := by
  obtain ⟨_, hm⟩ := h.kept i m hi
  have alone : ∀ j, Mine t' m j → j = i := by
    intro j hj
    rcases touched ho j with hs | hg | ⟨_, hl⟩
    · exact h.alone i m hi j (by rwa [Mine, hs] at hj)
    · exact absurd (hj.2.symm.trans hg.2) hne
    · exact absurd hl hj.1
  rcases touched ho i with hs | hg | ⟨hl, _⟩
  · exact .inl ⟨by rw [hs]; exact hm, alone⟩
  · exact .inr (.inl ⟨hg.1, fun e => hne (e.symm.trans hg.2)⟩)
  · exact absurd (hm.symm.trans hl) hne

theorem carried_same : Carried s.srv.clients m i := ⟨(h.kept i m hi).2, h.alone i m hi⟩

theorem carried_offer : Carried (offerTo s.srv.clients i m) m i := by
  refine ⟨by simp [offerTo], fun j hj => ?_⟩
  by_contra hji
  rw [Mine, offerTo_other _ _ hji] at hj
  exact hji (h.alone i m hi j hj)

theorem carried_drop (hmy : Mine s.srv.clients m i) (hs : (s.srv.clients i).state ≠ .request) :
    Carried (drop s.srv.clients i) m i := by
  have hb : (s.srv.clients i).state = .bind := by
    cases hst : (s.srv.clients i).state with
    | idle => exact absurd hst hmy.1
    | select => exact absurd hst (h.lease.noSelect i)
    | request => exact absurd hst hs
    | bind => rfl
  refine ⟨?_, fun j hj => ?_⟩
  · simp only [drop, modify_self, goIdle, forgetUnlessBind, hb, ne_eq, not_true, if_false]
    exact hmy.2
  · by_contra hji
    rw [Mine, drop, modify_other _ _ hji] at hj
    exact hji (h.alone i m hi j hj)

/-- The client's own message, under the condition. -/
theorem carried_own {msgType : UInt8} {ip sid xid : UInt32} {t' : Table} {reply : Option Reply}
    (hh : Handled s.srv m ip sid xid msgType t' reply) (hg : KeepsServed s (.message m msgType ip sid xid)) :
    Carried t' m i ∨ Ended t' m i ∨ (t' i).state = .bind := by
  obtain ⟨hz, hm⟩ := h.kept i m hi
  obtain ⟨hdisc, hwait⟩ := hg.2 i hi
  have bound {t : Table} {req : Slot} : Carried (bindTo t req m) m i ∨ Ended (bindTo t req m) m i ∨
      (bindTo t req m i).state = .bind := by
    by_cases hr : req = i
    · subst hr; exact .inr (.inr (by rw [bindTo_self]))
    · exact .inr (.inl (.inr ⟨req, hr, by rw [bindTo_self], by rw [bindTo_self]⟩))
  have leave {my : Slot} (hmy : Mine s.srv.clients m my) (hs : (s.srv.clients i).state ≠ .request) :
      Carried (drop s.srv.clients my) m i := by
    have hmi := h.alone i m hi my hmy
    subst hmi
    exact carried_drop h hi hmy hs
  cases hh with
  | discoverMove my req he hmy hr =>
    have hri := hdisc he req hr
    have hmi := h.alone i m hi my hmy
    exact absurd (idleWith_some hr).1 (by rw [hri, ← hmi]; exact hmy.1)
  | discoverAgain my _ hmy _ =>
    rw [h.alone i m hi my hmy]
    exact .inl (carried_offer h hi)
  | discoverNew k he hs hk =>
    rw [available_history h.lease hz hs hm (hdisc he)] at hk
    cases hk
    exact .inl (carried_offer h hi)
  | discoverFull _ hs hn => exact absurd ⟨available_none.mp hn i, hm⟩ (hs i)
  | requestTaken my he hmy htaken =>
    refine .inl (leave hmy fun hs => ?_)
    rw [((hwait hs).1 he).1] at htaken
    cases htaken
  | requestMove _ _ _ _ _ _ _ => exact bound
  | requestRefuse my req he hmy _ hr hno =>
    exact .inl (leave hmy fun hs => hno (((hwait hs).1 he).2 (by rw [hr]; exact Option.some_ne_none req)))
  | requestKeep _ _ _ _ _ _ => exact bound
  | requestNone _ _ _ _ _ _ => exact .inl (carried_same h hi)
  | requestNew _ _ _ _ _ _ => exact bound
  | requestNak _ _ _ => exact .inl (carried_same h hi)
  | release my he hmy =>
    exact .inl (leave hmy fun hs => he.elim (hwait hs).2.1 (hwait hs).2.2)
  | releaseNone _ _ => exact .inl (carried_same h hi)
  | other _ _ _ _ => exact .inl (carried_same h hi)

omit hi in
/-- Entries that only age keep the history, if no wait on record ends. -/
theorem carried_aged {t' : Table} (hi : s.hist i = some m) (ha : ∀ j, Aged (s.srv.clients j) (t' j))
    (hm' : (t' i).macAddr = (s.srv.clients i).macAddr) : Carried t' m i := by
  refine ⟨hm'.trans (h.kept i m hi).2, fun j hj => ?_⟩
  obtain ⟨hs, hmj⟩ := (ha j).active hj.1
  exact h.alone i m hi j ⟨fun e => hj.1 (hs.trans e), hmj ▸ hj.2⟩

end

/-- Only the end of a wait clears a MAC. -/
theorem tickClient_mac (ap : UInt8) {c : DhcpClient} (h : ¬(c.state = .request ∧ c.timeout = 1)) :
    (tickClient ap c).macAddr = c.macAddr := by
  cases hs : c.state with
  | idle => simp [tickClient, hs]
  | select => simp [tickClient, hs]
  | request =>
    simp only [tickClient, hs, tickRequest]
    split
    · rw [if_neg]
      intro h0
      refine h ⟨hs, ?_⟩
      rw [← UInt32.sub_add_cancel c.timeout 1, h0, UInt32.zero_add]
    · rfl
  | bind =>
    simp only [tickClient, hs, tickBind, goIdle]
    (repeat' split) <;> rfl

theorem clientDelete_cases (srv : DhcpServer) (mac : Option Mac) :
    (dhcpsClientDelete srv mac).1.clients = srv.clients ∨ ∃ k, (srv.clients k).state = .bind ∧
      (dhcpsClientDelete srv mac).1.clients = modify srv.clients k goIdle := by
  unfold dhcpsClientDelete
  split
  · exact .inl rfl
  cases mac with
  | none => exact .inl rfl
  | some mac =>
    dsimp only
    split
    · exact .inl rfl
    · rename_i k _
      split
      · exact .inl rfl
      · rename_i hb
        exact .inr ⟨k, not_not.mp hb, rfl⟩

theorem aged_step (srv : DhcpServer) {op : Op} (hop : ∀ mac msgType ip sid xid, op ≠ .message mac msgType ip sid xid)
    (j : Slot) : Aged (srv.clients j) ((step srv op).clients j) := by
  cases op with
  | message mac msgType ip sid xid => exact absurd rfl (hop mac msgType ip sid xid)
  | tick ap =>
    simp only [step, dhcpTickHandle]
    split
    · exact aged_tickClient _ _
    · exact Aged.refl _
  | clientDelete mac =>
    rcases clientDelete_cases srv mac with hc | ⟨k, hb, hc⟩
    · simp only [step, hc]; exact Aged.refl _
    · simp only [step, hc]
      exact aged_modify (.inr ⟨rfl, .inr ⟨hb, rfl⟩⟩) j

theorem carried_step {s : HState} (h : HistInv s) {i : Slot} {m : Mac} (hi : s.hist i = some m) (op : Op)
    (hg : KeepsServed s op) : Carried (step s.srv op).clients m i ∨ Ended (step s.srv op).clients m i ∨
      ((step s.srv op).clients i).state = .bind := by
  cases op with
  | message mac msgType ip sid xid =>
    by_cases hne : m = mac
    · subst hne
      exact carried_own h hi (handled h.lease.noSelect msgType) hg
    · have ho := message_cases s.srv h.lease.uniqueActive h.lease.noSelect mac msgType ip sid xid
      exact (carried_other h hi ho hne).imp_right .inl
  | tick ap =>
    refine .inl (carried_aged h hi (aged_step s.srv (by simp)) ?_)
    simp only [step, dhcpTickHandle]
    split
    · rename_i hen
      exact tickClient_mac (ap i) (hg hen i (by rw [hi]; rfl))
    · rfl
  | clientDelete mac =>
    refine .inl (carried_aged h hi (aged_step s.srv (by simp)) ?_)
    rcases clientDelete_cases s.srv mac with hc | ⟨k, _, hc⟩
    · simp only [step, hc]
    · simp only [step, hc]
      by_cases hk : i = k
      · subst hk; rw [modify_self]; rfl
      · rw [modify_other _ _ hk]

/-! ## Addresses never move -/

@[simp] theorem drop_ip (t : Table) (i j : Slot) : (drop t i j).ipAddr = (t j).ipAddr := by
  by_cases h : j = i
  · subst h
    simp only [drop, modify_self, goIdle, forgetUnlessBind]
    split <;> rfl
  · rw [drop, modify_other _ _ h]

@[simp] theorem dropForget_ip (t : Table) (i j : Slot) : (dropForget t i j).ipAddr = (t j).ipAddr := by
  by_cases h : j = i
  · subst h; simp [dropForget]
  · rw [dropForget, modify_other _ _ h]

@[simp] theorem offerTo_ip (t : Table) (i j : Slot) (mac : Mac) : (offerTo t i mac j).ipAddr = (t j).ipAddr := by
  by_cases h : j = i
  · subst h; simp [offerTo]
  · rw [offerTo_other t mac h]

@[simp] theorem bindTo_ip (t : Table) (i j : Slot) (mac : Mac) : (bindTo t i mac j).ipAddr = (t j).ipAddr := by
  by_cases h : j = i
  · subst h; rw [bindTo_self]
  · rw [bindTo_other t mac h]
    split <;> rfl

theorem message_ip {t t' : Table} {mac : Mac} (h : MessageOutcome t mac t') (j : Slot) :
    (t' j).ipAddr = (t j).ipAddr := by
  have dropped : ∀ {t₁}, Dropped t mac t₁ → (t₁ j).ipAddr = (t j).ipAddr := fun hd => by
    cases hd <;> simp
  cases h with
  | dropped _ hd => exact dropped hd
  | offer _ _ hd _ _ => rw [offerTo_ip, dropped hd]
  | bind _ _ hd _ _ => rw [bindTo_ip, dropped hd]

@[simp] theorem tickClient_ip (ap : UInt8) (c : DhcpClient) : (tickClient ap c).ipAddr = c.ipAddr := by
  cases hs : c.state <;> simp only [tickClient, hs, tickRequest, tickBind, goIdle] <;> (repeat' split) <;> rfl

theorem step_ip {srv : DhcpServer} (h : LeaseInv srv.clients) (op : Op) (j : Slot) :
    ((step srv op).clients j).ipAddr = (srv.clients j).ipAddr := by
  cases op with
  | message mac msgType ip sid xid =>
    exact message_ip (message_cases srv h.uniqueActive h.noSelect mac msgType ip sid xid) j
  | tick ap =>
    simp only [step, dhcpTickHandle]
    split
    · exact tickClient_ip _ _
    · rfl
  | clientDelete mac =>
    rcases clientDelete_cases srv mac with hc | ⟨k, _, hc⟩
    · simp only [step, hc]
    · simp only [step, hc]
      by_cases hk : j = k
      · subst hk; simp [goIdle]
      · simp [modify_other _ _ hk]

/-- An entry in BIND was there before, or the message is a REQUEST that binds
it. -/
theorem message_bind {srv : DhcpServer} {mac : Mac} {msgType : UInt8} {ip sid xid : UInt32} {t' : Table}
    {reply : Option Reply} (hh : Handled srv mac ip sid xid msgType t' reply) {i : Slot} (hb : (t' i).state = .bind) :
    t' i = srv.clients i ∨ (msgType = msgRequest ∧ (t' i).macAddr = mac ∧ Binds srv mac ip sid) := by
  have dropped {my : Slot} (hb : (drop srv.clients my i).state = .bind) : drop srv.clients my i = srv.clients i := by
    by_cases hi : i = my
    · subst hi; rw [drop_idle] at hb; cases hb
    · exact modify_other _ _ hi
  have offered {t : Table} {k : Slot} (hb : (offerTo t k mac i).state = .bind) : i ≠ k := by
    rintro rfl
    simp [offerTo] at hb
  have bound {t : Table} {k : Slot} (hb : (bindTo t k mac i).state = .bind) :
      bindTo t k mac i = t i ∨ (bindTo t k mac i).macAddr = mac := by
    by_cases hi : i = k
    · subst hi; exact .inr (by rw [bindTo_self])
    · rw [bindTo_state t mac hi] at hb
      exact .inl (bindTo_active t mac hi (by simp [Active, hb]))
  cases hh with
  | discoverMove my req _ hmy hr =>
    have hi := offered hb
    rw [offerTo_other _ _ hi] at hb ⊢
    refine .inl (modify_other _ _ ?_)
    rintro rfl
    simp [dropForget] at hb
  | discoverAgain my | discoverNew my => exact .inl (offerTo_other _ _ (offered hb))
  | requestTaken my | requestRefuse my | release my => exact .inl (dropped hb)
  | requestMove my req he hmy ht hr ho =>
    rcases bound hb with hs | hm
    · exact .inl (hs.trans (dropped (hs ▸ hb)))
    · exact .inr ⟨he, hm, ht, ho, .inr fun hs => hs my hmy⟩
  | requestKeep my he hmy ht _ ho => exact (bound hb).imp_right fun hm => ⟨he, hm, ht, ho, .inr fun hs => hs my hmy⟩
  | requestNew req he _ ht hr ho => exact (bound hb).imp_right fun hm => ⟨he, hm, ht, ho, .inl (by rw [hr]; simp)⟩
  | discoverFull | requestNone | requestNak | releaseNone | other => exact .inl rfl

theorem step_bind {s : HState} (h : HistInv s) (op : Op) (hg : KeepsServed s op) {i : Slot}
    (hb : ((step s.srv op).clients i).state = .bind) : ((step s.srv op).clients i).macAddr ≠ zeroMac := by
  have aged (ha : Aged (s.srv.clients i) ((step s.srv op).clients i)) :
      ((step s.srv op).clients i).macAddr ≠ zeroMac := by
    obtain ⟨hs, hm⟩ := ha.active (by simp [Active, hb])
    rw [hm]
    exact (h.bound i (hs ▸ hb)).1
  cases op with
  | message mac msgType ip sid xid =>
    rcases message_bind (handled h.lease.noSelect msgType) hb with hs | ⟨he, hm, hbinds⟩
    · simp only [step] at hb ⊢
      rw [hs] at hb ⊢
      exact (h.bound i hb).1
    · exact fun hz => hg.1 he (hm.symm.trans hz) hbinds
  | tick ap => exact aged (aged_step s.srv (by simp) i)
  | clientDelete mac => exact aged (aged_step s.srv (by simp) i)

theorem histInv_step (s : HState) (op : Op) (h : HistInv s) (hg : KeepsServed s op) : HistInv (hstep s op) := by
  have hlease := inv_step h.lease op
  -- an entry on record after the step is bound, or carries the record on
  have cases {i : Slot} {m : Mac} (hi : record s.hist (step s.srv op).clients i = some m) :
      (((step s.srv op).clients i).state = .bind ∧ ((step s.srv op).clients i).macAddr = m) ∨
        (s.hist i = some m ∧ Carried (step s.srv op).clients m i) := by
    rcases record_some hi with hb | ⟨ho, hne⟩
    · exact .inl hb
    · rcases carried_step h ho op hg with hc | hc | hc
      · exact .inr ⟨ho, hc⟩
      · exact absurd hc hne
      · rw [record_bind hc] at hi
        exact .inl ⟨hc, Option.some.inj hi⟩
  constructor
  · exact hlease
  · intro i
    rw [hstep_srv, step_ip h.lease]
    exact h.ip i
  · exact fun i hb => ⟨step_bind h op hg hb, record_bind hb⟩
  · intro i m hi
    rcases cases hi with ⟨hb, hm⟩ | ⟨ho, hc⟩
    · exact ⟨hm ▸ step_bind h op hg hb, hm⟩
    · exact ⟨(h.kept i m ho).1, hc.1⟩
  · intro i m hi
    rcases cases hi with ⟨hb, hm⟩ | ⟨_, hc⟩
    · exact fun j hj => uniqueMine hlease ⟨by simp [Active, hb], hm⟩ hj
    · exact hc.2

/-! ## Runs -/

/-- The step takes no entry out of BIND without leaving it its MAC, unless its
client is bound elsewhere. -/
def LeavesMac (t t' : Table) : Prop :=
  ∀ i, (t i).state = .bind → (t' i).macAddr = (t i).macAddr ∨
    ∃ j, j ≠ i ∧ (t' j).state = .bind ∧ (t' j).macAddr = (t i).macAddr

instance (t t' : Table) : Decidable (LeavesMac t t') := inferInstanceAs (Decidable (∀ _, _))

theorem active_mac {srv : DhcpServer} (h : LeaseInv srv.clients) (op : Op) {i : Slot} (ha : Active (srv.clients i))
    (ha' : Active ((step srv op).clients i)) : ((step srv op).clients i).macAddr = (srv.clients i).macAddr := by
  cases op with
  | message mac msgType ip sid xid =>
    have ho := message_cases srv h.uniqueActive h.noSelect mac msgType ip sid xid
    by_cases hm : (srv.clients i).macAddr = mac
    · rcases touched ho i with hs | hg | ⟨_, hl⟩
      · exact congrArg DhcpClient.macAddr hs
      · exact hg.2.trans hm.symm
      · exact absurd hl ha'
    · exact congrArg DhcpClient.macAddr (message_other ho ha hm)
  | tick ap => exact ((aged_step srv (by simp) i).active ha').2
  | clientDelete mac => exact ((aged_step srv (by simp) i).active ha').2

theorem leavesMac_step {s : HState} (h : HistInv s) (op : Op) (hg : KeepsServed s op) :
    LeavesMac s.srv.clients (step s.srv op).clients := by
  intro i hb
  have ha : Active (s.srv.clients i) := by simp [Active, hb]
  rcases carried_step h (h.bound i hb).2 op hg with hc | (hc | hc) | hc
  · exact .inl hc.1
  · exact .inl (active_mac h.lease op ha hc.1)
  · exact .inr hc
  · exact .inl (active_mac h.lease op ha (by simp [Active, hc]))

/-! ## The device -/

/-- The device with, for each entry, the client whose history it is. -/
structure DevState where
  dev : Device
  hist : Slot → Option Mac

def DevState.server (s : DevState) : HState := { srv := s.dev.srv, hist := s.hist }

def hdevStep (s : DevState) (op : DevOp) : DevState :=
  { dev := devStep s.dev op, hist := record s.hist (devStep s.dev op).srv.clients }

/-- The step takes no history from its client. -/
def KeepsHistory (s : DevState) (op : DevOp) : Prop := ∀ op' ∈ served s.dev op, KeepsServed s.server op'

/-- The entries on record hold their client's MAC, and a DISCOVER without a
requested address gets an OFFER of that entry's address, if there is a buffer
for it. -/
def Remembered (s : DevState) : Prop :=
  ∀ i m, s.hist i = some m → (s.dev.srv.clients i).macAddr = m ∧
    ∀ p q alloc, s.dev.takes p = some q → q.mac = m → q.msgType = msgDiscover → q.reqIpAddr = 0 →
      sentReply s.dev p alloc = if alloc then some (.offer (s.dev.srv.clients i).ipAddr m q.xid) else none

theorem HistInv.remembered {s : DevState} (h : HistInv s.server) : Remembered s := by
  intro i m hi
  refine ⟨(h.kept i m hi).2, fun p q alloc hq hmac htype hip => ?_⟩
  rw [(recvCb_some hq alloc).2, Request.handle, hmac, htype, hip]
  exact congrArg (fun reply => if alloc then reply else none) (h.offered hi q.serverId q.xid)

theorem record_same {s : HState} (h : HistInv s) : record s.hist s.srv.clients = s.hist := by
  funext i
  by_cases hb : (s.srv.clients i).state = .bind
  · rw [record_bind hb]
    exact (h.bound i hb).2.symm
  · unfold record
    rw [if_neg hb]
    cases hi : s.hist i with
    | none => rfl
    | some m =>
      have hno : ¬Ended s.srv.clients m i := by
        rintro (⟨_, hne⟩ | ⟨j, hj, hbj, hmj⟩)
        · exact hne (h.kept i m hi).2
        · exact hj (h.alone i m hi j ⟨by simp [Active, hbj], hmj⟩)
      exact if_neg hno

theorem hdevStep_some {s : DevState} {op : DevOp} {op' : Op} (h : served s.dev op = some op') :
    (hdevStep s op).server = hstep s.server op' := by
  have hsrv : (devStep s.dev op).srv = step s.dev.srv op' := by rw [devStep_srv, h]; rfl
  rw [hdevStep, DevState.server, hsrv]
  rfl

theorem hdevStep_none {s : DevState} (hi : HistInv s.server) {op : DevOp} (h : served s.dev op = none) :
    (hdevStep s op).server = s.server := by
  have hsrv : (devStep s.dev op).srv = s.dev.srv := by rw [devStep_srv, h]; rfl
  rw [hdevStep, DevState.server, hsrv]
  exact congrArg (HState.mk s.dev.srv) (record_same hi)

theorem histInv_hdevStep (s : DevState) (op : DevOp) (h : HistInv s.server) (hg : KeepsHistory s op) :
    HistInv (hdevStep s op).server := by
  cases ho : served s.dev op with
  | none => rwa [hdevStep_none h ho]
  | some op' =>
    rw [hdevStep_some ho]
    exact histInv_step s.server op' h (hg op' ho)

theorem leavesMac_hdevStep {s : DevState} (h : HistInv s.server) {op : DevOp} (hg : KeepsHistory s op) :
    LeavesMac s.dev.srv.clients (hdevStep s op).dev.srv.clients := by
  rw [hdevStep, devStep_srv]
  cases ho : served s.dev op with
  | none => exact fun i _ => .inl rfl
  | some op' => exact leavesMac_step h op' (hg op' ho)

def fresh (d : Device) : DevState := { dev := d, hist := fun _ => none }

theorem histInv_fresh {srv₀ srv : DhcpServer} {netif : Netif} {udpNew : Option Nat} {rc : Int}
    (hup : netif.isUp = true) (h : dhcpsStart srv₀ netif udpNew = some (srv, rc)) (mem : Mem) :
    HistInv (fresh { srv := srv, mem := mem }).server where
  lease := inv_start hup h
  ip := start_ip hup h
  bound i hb := by
    rw [fresh, DevState.server, start_idle hup h i] at hb
    cases hb
  kept _ _ hi := by cases hi
  alone _ _ hi := by cases hi

/-- **Address history.** Along every run after `DHCPS_Start` whose steps take
no history from its client, every state remembers the recorded addresses, and
the next such step leaves the MAC in the entries it takes out of BIND. -/
theorem history_run {srv₀ srv : DhcpServer} {netif : Netif} {udpNew : Option Nat} {rc : Int}
    (hup : netif.isUp = true) (h : dhcpsStart srv₀ netif udpNew = some (srv, rc)) (mem : Mem) (ops : List DevOp)
    (hg : Meets hdevStep KeepsHistory (fresh { srv := srv, mem := mem }) ops) :
    Remembered (run hdevStep (fresh { srv := srv, mem := mem }) ops) ∧
      ∀ op, KeepsHistory (run hdevStep (fresh { srv := srv, mem := mem }) ops) op →
        LeavesMac (run hdevStep (fresh { srv := srv, mem := mem }) ops).dev.srv.clients
          (hdevStep (run hdevStep (fresh { srv := srv, mem := mem }) ops) op).dev.srv.clients := by
  have hi := inv_of_meets (I := fun s => HistInv s.server) histInv_hdevStep _ ops (histInv_fresh hup h mem) hg
  exact ⟨hi.remembered, fun op hop => leavesMac_hdevStep hi hop⟩

/-! ## Runs of packets -/

def BootRequest.op (b : BootRequest) : Op := .message b.mac b.msgType (b.reqIpAddr.getD 0) (b.serverId.getD 0) b.xid

theorem served_boot (d : Device) (b : BootRequest) (alloc : Bool) : served d (.recv b.packet alloc) = some b.op := by
  rw [served, b.takes_boot]
  rfl

theorem run_boots : ∀ (bs : List BootRequest) (s : DevState),
    (run hdevStep s (bs.map fun b => .recv b.packet true)).server = run hstep s.server (bs.map BootRequest.op)
  | [], _ => rfl
  | b :: bs, s => by
    rw [List.map_cons, run_cons, run_boots bs, List.map_cons, run_cons, hdevStep_some (served_boot s.dev b true)]

theorem meets_boots : ∀ {bs : List BootRequest} {s : DevState}, Meets hstep KeepsServed s.server (bs.map BootRequest.op) →
    Meets hdevStep KeepsHistory s (bs.map fun b => .recv b.packet true)
  | [], _, _ => trivial
  | b :: bs, s, h => by
    have ho := served_boot s.dev b true
    refine ⟨fun op' hop => ?_, meets_boots ?_⟩
    · rw [ho] at hop
      cases hop
      exact h.1
    · rw [hdevStep_some ho]
      exact h.2

def bindSample : List BootRequest := [sampleBoot msgDiscover, sampleBoot msgRequest]

theorem bindSample_op : bindSample.map BootRequest.op =
    [.message sampleMac msgDiscover 0 0 1, .message sampleMac msgRequest 0 0 1] := by
  simp only [bindSample, List.map_cons, List.map_nil, BootRequest.op, sampleBoot]
  rfl

theorem history_run_sample : ∃ srv rc, dhcpsStart noServer sampleNetif (some 1) = some (srv, rc) ∧
    Remembered (run hdevStep (fresh { srv := srv, mem := fun _ => 0 })
      ((bindSample.map fun b => .recv b.packet true) ++ [.tick fun _ => 0])) := by
  have hg : ∀ p ∈ dhcpsStart noServer sampleNetif (some 1),
      Meets hstep KeepsServed { srv := p.1, hist := fun _ => none } (bindSample.map BootRequest.op) ∧
        KeepsServed (run hstep { srv := p.1, hist := fun _ => none } (bindSample.map BootRequest.op)) (.tick fun _ => 0) := by
    rw [bindSample_op]
    decide
  cases h : dhcpsStart noServer sampleNetif (some 1) with
  | none => exact absurd h (by decide)
  | some p =>
    obtain ⟨hboots, htick⟩ := hg p h
    refine ⟨p.1, p.2, rfl, (history_run rfl h (fun _ => 0) _ (meets_append.mpr ⟨meets_boots hboots,
      meets_cons.mpr ⟨?_, meets_nil _⟩⟩)).1⟩
    rintro op ⟨⟩
    rw [run_boots]
    exact htick

/-- A DISCOVER that asks for 192.168.0.3. -/
def askSample : BootRequest :=
  bootOf sampleMac [.opt (msgTypeOption msgDiscover),
    .opt (wordOption optionReqIpAddr 0x0300a8c0 (by decide) (by decide) (by decide))] (by decide) rfl

theorem askSample_op : askSample.op = .message sampleMac msgDiscover 0x0300a8c0 0 1 := by
  simp only [BootRequest.op, askSample]
  rfl

/-- The bound client asks in a DISCOVER for the next free address: its entry
loses the MAC, though the client is bound nowhere else. -/
theorem discover_forgets : ∃ srv rc, dhcpsStart noServer sampleNetif (some 1) = some (srv, rc) ∧
    ¬LeavesMac (run hdevStep (fresh { srv := srv, mem := fun _ => 0 }) (bindSample.map fun b => .recv b.packet true)).dev.srv.clients
      (hdevStep (run hdevStep (fresh { srv := srv, mem := fun _ => 0 }) (bindSample.map fun b => .recv b.packet true))
        (.recv askSample.packet true)).dev.srv.clients := by
  have hl : ∀ p ∈ dhcpsStart noServer sampleNetif (some 1),
      ¬LeavesMac (run hstep { srv := p.1, hist := fun _ => none } (bindSample.map BootRequest.op)).srv.clients
        (hstep (run hstep { srv := p.1, hist := fun _ => none } (bindSample.map BootRequest.op)) askSample.op).srv.clients := by
    rw [bindSample_op, askSample_op]
    decide
  cases h : dhcpsStart noServer sampleNetif (some 1) with
  | none => exact absurd h (by decide)
  | some p =>
    refine ⟨p.1, p.2, rfl, fun hleaves => hl p h ?_⟩
    have clients (s : DevState) : s.dev.srv.clients = s.server.srv.clients := rfl
    rwa [clients, clients, hdevStep_some (served_boot _ askSample true), run_boots] at hleaves

end SerialNet.Dhcp
