import SerialNet.Dhcp.Determined
import SerialNet.Dhcp.History

/-!
# What a packet leaves behind in `DhcpMsg`

`DHCPS_RecvCb` copies a packet over the last message and then works on the
whole buffer. `stale_spec` says which packets have one outcome after any two
histories that lead to one lease table.
-/

namespace SerialNet.Dhcp

open Patch Run

/-- The outcome of `p` is one after any two histories with one table. -/
def Independent (d₀ : Device) (p : List UInt8) : Prop :=
  ∀ h₁ h₂ alloc, (run devStep d₀ h₁).srv.clients = (run devStep d₀ h₂).srv.clients →
    (dhcpsRecvCb (run devStep d₀ h₁) p alloc).2 = (dhcpsRecvCb (run devStep d₀ h₂) p alloc).2 ∧
    (dhcpsRecvCb (run devStep d₀ h₁) p alloc).1.srv.clients = (dhcpsRecvCb (run devStep d₀ h₂) p alloc).1.srv.clients

def Started (d : Device) : Prop :=
  ∃ srv₀ netif udpNew rc, netif.isUp = true ∧ dhcpsStart srv₀ netif udpNew = some (d.srv, rc)

/-! ## Determined packets are independent -/

theorem step_srv (srv : DhcpServer) (op : Op) : step srv op = { srv with clients := (step srv op).clients } := by
  cases op with
  | message mac msgType ip sid xid => exact handleMessage_srv srv mac msgType ip sid xid
  | tick ap =>
    simp only [step, dhcpTickHandle]
    split <;> rfl
  | clientDelete mac =>
    simp only [step, dhcpsClientDelete]
    repeat' split
    all_goals rfl

/-- A run changes the server in its entries only. -/
theorem run_srv (d₀ : Device) (ops : List DevOp) :
    (run devStep d₀ ops).srv = { d₀.srv with clients := (run devStep d₀ ops).srv.clients } := by
  refine run_inv devStep (I := fun d => d.srv = { d₀.srv with clients := d.srv.clients }) (fun d op h => ?_) rfl ops
  rw [devStep_srv]
  cases served d op with
  | none => exact h
  | some op' =>
    rw [Option.map_some, Option.getD_some, step_srv d.srv op', h]

theorem independent_of_determined {p : List UInt8} (hp : Determined p) (d₀ : Device) : Independent d₀ p := by
  intro h₁ h₂ alloc ht
  have k₁ := run_srv d₀ h₁
  have k₂ := run_srv d₀ h₂
  generalize run devStep d₀ h₁ = d₁ at *
  generalize run devStep d₀ h₂ = d₂ at *
  have hsrv : d₁.srv = d₂.srv := by rw [k₁, k₂, ht]
  have hq := takes_determined hp d₂.srv d₁.mem d₂.mem
  obtain ⟨h2, h1⟩ := recvCb_congr hsrv (p := p) (by rw [hsrv]; exact hq) alloc
  exact ⟨h2, by rw [h1]⟩

/-! ## Every memory can be left behind -/

/-- The message in `m` as a packet whose `Op` is wrong. -/
def refused (m : Mem) : List UInt8 := read (Function.update m opAt 0) 0 msgSize

theorem copy_refused (m m' : Mem) {a : Nat} (ha : a < msgSize) :
    copyPartial (refused m) m' a = Function.update m opAt 0 a := by
  have hlt : a < (refused m).length := by rw [refused, length_read]; exact ha
  rw [copyPartial_below hlt ha]
  exact (getElem_read _).trans (by rw [Nat.zero_add])

theorem devStep_refused (d : Device) (m : Mem) (alloc : Bool) :
    devStep d (.recv (refused m) alloc) = { d with mem := copyPartial (refused m) d.mem } := by
  have hop : ¬headerOk (copyPartial (refused m) d.mem) := fun h => by
    have h0 := h.1
    rw [copy_refused m d.mem (by decide), Function.update_self] at h0
    exact absurd h0 (by decide)
  have hne : refused m ≠ [] := fun h => by
    have hlen : (refused m).length = msgSize := length_read
    rw [h] at hlen
    exact absurd hlen (by decide)
  simp only [devStep, dhcpsRecvCb, if_neg hne, request, if_neg hop]

/-- A refused packet and the rest of the program leave `m`, but for `Op`. -/
def leave (m : Mem) : List DevOp := [.recv (refused m) true, .elsewhere m]

theorem run_leave (d : Device) (m : Mem) : run devStep d (leave m) = { d with mem := Function.update m opAt 0 } := by
  rw [leave, run_cons, devStep_refused, run_cons, run_nil, devStep]
  congr 1
  funext a
  by_cases ha : a < msgSize
  · simp only [if_pos ha, copy_refused m d.mem ha]
  · have h0 : a ≠ opAt := fun e => ha (by rw [e]; unfold opAt msgSize; omega)
    rw [if_neg ha, Function.update_of_ne h0]

section
variable {p : List UInt8} {m m' : Mem} {q q' : Request}

theorem copy_leave (hne : p ≠ []) (h : Completes p m) : copyPartial p (Function.update m opAt 0) = m := by
  have hpos := List.length_pos_iff.mpr hne
  funext a
  by_cases ha : a < limit p
  · rw [completes_copy p _ a ha, h a ha]
  · unfold limit at ha
    have h0 : a ≠ opAt := fun e => ha (by rw [e, opAt, msgSize]; omega)
    rw [copyPartial_above _ _ (by omega), Function.update_of_ne h0]

theorem takes_leave (d : Device) (hne : p ≠ []) (h : Completes p m) (hq : request m = some q) :
    (run devStep d (leave m)).takes p = some q := by
  rw [run_leave, Device.takes, if_neg hne, copy_leave hne h, hq]

theorem Independent.same {d₀ : Device} (hi : Independent d₀ p) (hne : p ≠ []) (hs : List DevOp)
    (h : Completes p m) (h' : Completes p m') (hq : request m = some q) (hq' : request m' = some q') :
    (q.handle (run devStep d₀ hs).srv).2 = (q'.handle (run devStep d₀ hs).srv).2 ∧
      (q.handle (run devStep d₀ hs).srv).1.clients = (q'.handle (run devStep d₀ hs).srv).1.clients := by
  have hout := hi (hs ++ leave m) (hs ++ leave m') true (by rw [run_append, run_append, run_leave, run_leave])
  rw [run_append, run_append] at hout
  generalize run devStep d₀ hs = d at *
  obtain ⟨hsrv, hsent⟩ := recvCb_some (takes_leave d hne h hq) true
  obtain ⟨hsrv', hsent'⟩ := recvCb_some (takes_leave d hne h' hq') true
  rw [hsrv, hsrv'] at hout
  rw [sentReply, hout.1, ← sentReply, hsent'] at hsent
  rw [run_leave] at hout hsent
  rw [run_leave] at hout hsent
  exact ⟨hsent.symm, hout.2⟩

/-- A packet that can be any type is no INFORM and no RELEASE alike. -/
theorem not_any_type {d₀ : Device} (hi : Independent d₀ p) (hne : p ≠ [])
    (h : ∀ type, ∃ m q, Completes p m ∧ request m = some q ∧ q.msgType = type) : False := by
  obtain ⟨m, q, hc, hq, ht⟩ := h 8
  obtain ⟨m', q', hc', hq', ht'⟩ := h msgRelease
  have hsame := (hi.same hne [] hc hc' hq hq').1
  rw [Request.handle, Request.handle, ht, ht', reply_inform, reply_release] at hsame
  cases hsame

end

/-! ## The type -/

/-- The packet, and a header that passes where the packet has none. -/
def fitting (p : List UInt8) : Mem := fun a => if a < p.length then packetMem p a else (wanted a).getD 0

section
variable {d₀ : Device} {p : List UInt8} {os : List Nat} {o : Nat}

theorem headerOk_fitting (hf : HeaderFits p) {m : Mem} (hm : ∀ a, a < optionsAt → m a = fitting p a) : headerOk m := by
  refine (headerOk_iff m).mpr fun a ha => ?_
  rw [hm a (wanted_lt ha), fitting]
  split
  · rename_i h
    rw [packetMem, ← List.getElem_eq_getD (h := h)]
    exact hf a ha h
  · simp only [List.mem_cons, List.not_mem_nil, or_false] at ha
    rcases ha with rfl | rfl | rfl | rfl | rfl | rfl <;> rfl

/-- The bytes of an independent packet lead through its options. -/
theorem met_of_independent (hi : Independent d₀ p) (hne : p ≠ []) (hf : HeaderFits p) :
    ∃ os, Met (packetMem p) (limit p) optionsAt os := by
  by_contra hnot
  refine not_any_type hi hne fun type => ?_
  have hle := limit_le p
  have hfit : Completes p (fitting p) := fun a ha => if_pos (by unfold limit at ha; omega)
  have hno : ¬∃ os, Met (fitting p) (max (limit p) optionsAt) optionsAt os := by
    rintro ⟨os, hmet⟩
    have hlt := hmet.start_lt (by decide)
    rw [Nat.max_eq_left (by omega)] at hmet
    exact hnot ⟨os, hmet.congr fun a ha => (hfit a ha).symm⟩
  obtain ⟨m, hm, os, o, hmet, ho, ht⟩ :=
    canBe_of_not_met (Nat.max_le.mpr ⟨hle, by decide⟩) type optionsAt hno
  refine ⟨m, requestAt m os o, fun a ha => (hm a (by omega)).trans (hfit a ha), ?_, ht⟩
  rw [request_met (headerOk_fitting hf fun a ha => hm a (by omega)) hmet (Nat.le_refl _), ho, Option.map_some]

theorem completes_update (p : List UInt8) {a : Nat} (ha : limit p ≤ a) (b : UInt8) :
    Completes p (Function.update (packetMem p) a b) :=
  fun _ hx => Function.update_of_ne (by omega) _ _

theorem request_update (hf : HeaderFits p) (hmet : Met (packetMem p) (limit p) optionsAt os)
    (ho : lastAt (packetMem p) optionMsgType os = some o) {a : Nat} (ha : limit p ≤ a) (b : UInt8) :
    request (Function.update (packetMem p) a b) = some (requestAt (Function.update (packetMem p) a b) os o) := by
  rw [request_completes hf hmet (completes_update p ha b), ho, Option.map_some]

theorem msgType_of_independent (hi : Independent d₀ p) (hne : p ≠ []) (hf : HeaderFits p)
    (hmet : Met (packetMem p) (limit p) optionsAt os) (ho : lastAt (packetMem p) optionMsgType os = some o) :
    o + 2 < limit p := by
  by_contra hlt
  have hge := Nat.not_lt.mp hlt
  exact not_any_type hi hne fun type => ⟨_, _, completes_update p hge type, request_update hf hmet ho hge type,
    Function.update_self ..⟩

end

/-! ## The last byte of an address -/

theorem word_bit (m : Mem) (a : Nat) {i : Nat} (hi : i < 32) :
    (word m a).toBitVec.getLsbD i = (m (a + i / 8)).toBitVec.getLsbD (i % 8) := by
  simp only [word, UInt32.toBitVec_or, UInt32.toBitVec_shiftLeft, UInt8.toBitVec_toUInt32, BitVec.getLsbD_or]
  interval_cases i <;> simp

theorem word_last {m : Mem} {a : Nat} {x : UInt32}
    (h : ∀ i, i < 24 → x.toBitVec.getLsbD i = (word m a).toBitVec.getLsbD i) :
    word (Function.update m (a + 3) (x >>> 24).toUInt8) a = x := by
  apply UInt32.toBitVec_inj.mp
  apply BitVec.eq_of_getLsbD_eq
  intro i hi
  rw [word_bit _ _ hi]
  rcases Nat.lt_or_ge i 24 with hl | hl
  · rw [Function.update_of_ne (by omega), ← word_bit _ _ hi, h i hl]
  · rw [show a + i / 8 = a + 3 by omega, Function.update_self]
    interval_cases i <;> simp

def byteMask : UInt32 := 0x00ffffff

theorem byteMask_bit {i : Nat} (hi : i < 32) : byteMask.toBitVec.getLsbD i = decide (i < 24) := by
  interval_cases i <;> rfl

theorem bits_of_subnet {x y : UInt32} (h : htonl x &&& htonl byteMask = htonl y &&& htonl byteMask) {i : Nat} (hi : i < 24) :
    x.toBitVec.getLsbD i = y.toBitVec.getLsbD i := by
  have hb := congrArg (fun z : UInt32 => z.toBitVec.getLsbD (24 - 8 * (i / 8) + i % 8)) h
  simp only [UInt32.toBitVec_and, BitVec.getLsbD_and] at hb
  rw [htonl_bit _ (by omega), htonl_bit _ (by omega), htonl_bit _ (by omega),
    show 24 - 8 * ((24 - 8 * (i / 8) + i % 8) / 8) + (24 - 8 * (i / 8) + i % 8) % 8 = i by omega,
    byteMask_bit (by omega), decide_eq_true hi, Bool.and_true, Bool.and_true] at hb
  exact hb

theorem host_word (m : Mem) (a : Nat) : htonl (word m a) &&& ~~~(htonl byteMask) = (m (a + 3)).toUInt32 := by
  apply UInt32.toBitVec_inj.mp
  apply BitVec.eq_of_getLsbD_eq
  intro i hi
  simp only [UInt32.toBitVec_and, UInt32.toBitVec_not, BitVec.getLsbD_and, BitVec.getLsbD_not, UInt8.toBitVec_toUInt32]
  rw [htonl_bit _ hi, htonl_bit _ hi, byteMask_bit (by omega), word_bit _ _ (by omega)]
  rcases Nat.lt_or_ge i 8 with hl | hl
  · rw [show a + (24 - 8 * (i / 8) + i % 8) / 8 = a + 3 by omega, show (24 - 8 * (i / 8) + i % 8) % 8 = i by omega]
    simp [hi, show ¬ 24 - 8 * (i / 8) + i % 8 < 24 by omega]
  · simp [show 24 - 8 * (i / 8) + i % 8 < 24 by omega, show 8 ≤ i from hl]

/-! ## A server whose pool the packet can name -/

def lastNetif (m : Mem) (a : Nat) : Netif where
  isUp := true
  ipAddr := word (Function.update m (a + 3) 1) a
  netmask := byteMask

theorem lastNetif_start (m : Mem) (a : Nat) : ∃ srv rc, dhcpsStart noServer (lastNetif m a) (some 1) = some (srv, rc) ∧
    PoolOk srv.clients (htonl (lastNetif m a).ipAddr) (htonl byteMask) := by
  have hmask : (~~~(htonl byteMask)).toNat = 2 ^ 8 - 1 := by decide
  obtain ⟨srv, rc, hstart, haddr⟩ := @dhcpsStart_clients noServer (lastNetif m a) (some 1) rfl
    ⟨8, by decide, hmask⟩ (show ~~~(htonl byteMask) ≠ 0 by decide)
  refine ⟨srv, rc, hstart, (poolOk_iff hmask (by decide) haddr).mpr (.inl ?_)⟩
  rw [lastNetif, host_word, Function.update_self]
  decide

/-- `mac` holds the only active entry, and the addresses of the pool differ
from the one in `m` at `a` in the last byte. -/
structure Stage (m : Mem) (a : Nat) (mac : Mac) (srv : DhcpServer) (e : Slot) : Prop where
  lease : LeaseInv srv.clients
  mine : Mine srv.clients mac e
  idle : ∀ j, j ≠ e → (srv.clients j).state = .idle
  server : srv.serverIpAddr = word (Function.update m (a + 3) 1) a
  pool : ∀ i, ∃ b, (srv.clients i).ipAddr = word (Function.update m (a + 3) b) a
  outside : ∀ i, (srv.clients i).ipAddr ≠ srv.serverIpAddr

theorem stage (m : Mem) (a : Nat) (mac : Mac) : ∃ d₀ hs e, Started d₀ ∧ Stage m a mac (run devStep d₀ hs).srv e := by
  obtain ⟨srv, rc, hstart, hpool⟩ := lastNetif_start m a
  have hup : (lastNetif m a).isUp = true := rfl
  have hidle := start_idle hup hstart
  have hserver := start_server hup hstart
  obtain ⟨b, hmac, htype⟩ : ∃ b : BootRequest, b.mac = mac ∧ b.msgType = msgDiscover :=
    ⟨bootOf mac [.opt (msgTypeOption msgDiscover)] (by decide) rfl, bootOf_mac .., rfl⟩
  have hrun : (run devStep { srv := srv, mem := fun _ => 0 } [.recv b.packet true]).srv = (b.request.handle srv).1 :=
    (recvCb_some (b.takes_boot { srv := srv, mem := fun _ => 0 }) true).1
  rw [Request.handle, show b.request.mac = mac from hmac, show b.request.msgType = msgDiscover from htype] at hrun
  have hframe := handleMessage_srv srv mac msgDiscover b.request.reqIpAddr b.request.serverId b.request.xid
  have hlease := inv_step (inv_start hup hstart) (.message mac msgDiscover b.request.reqIpAddr b.request.serverId b.request.xid)
  rcases @discover_stranger srv mac b.request.reqIpAddr b.request.serverId b.request.xid (inv_start hup hstart).noSelect
    (fun i hi => hi.1 (hidle i)) with ⟨e, _, hclients, _⟩ | ⟨hnone, _⟩
  swap
  · exact absurd (hidle 0) (available_none.mp hnone 0)
  refine ⟨{ srv := srv, mem := fun _ => 0 }, [.recv b.packet true], e, ⟨_, _, _, _, hup, hstart⟩, ?_⟩
  have hip (i : Slot) : ((handleMessage srv mac msgDiscover b.request.reqIpAddr b.request.serverId b.request.xid).1.clients i).ipAddr =
      (srv.clients i).ipAddr := by
    rw [hclients, offerTo_ip]
  have hsrv : (handleMessage srv mac msgDiscover b.request.reqIpAddr b.request.serverId b.request.xid).1.serverIpAddr =
      (lastNetif m a).ipAddr := by
    rw [hframe, hserver]
  rw [hrun]
  constructor
  · exact hlease
  · rw [hclients]
    exact ⟨by simp [Active, offerTo], by simp [offerTo]⟩
  · intro j hj
    rw [hclients, offerTo_other _ _ hj]
    exact hidle j
  · exact hsrv
  · intro i
    rw [hip]
    refine ⟨((srv.clients i).ipAddr >>> 24).toUInt8, ?_⟩
    have hbits := fun {i'} (hi' : i' < 24) => bits_of_subnet (hpool.subnet i) hi'
    rw [← Function.update_idem (1 : UInt8), word_last fun i' hi' => hbits hi']
  · intro i he
    rw [hip, hsrv] at he
    exact hpool.notServer i (by rw [he])

section
variable {srv : DhcpServer} {mac : Mac} {ip sid xid : UInt32} {msgType : UInt8} {e : Slot}

/-- A client that asks for another idle entry's address gives its own up. -/
theorem moved (hl : LeaseInv srv.clients) (hm : Mine srv.clients mac e) (ht : msgType = msgDiscover ∨ msgType = msgRequest)
    {k : Slot} (hk : reqEntry srv.clients ip = some k) :
    ((handleMessage srv mac msgType ip sid xid).1.clients e).state = .idle := by
  have hne : e ≠ k := fun h => hm.1 (h ▸ (idleWith_some hk).1)
  have hh := @handled srv mac ip sid xid hl.noSelect msgType
  generalize (handleMessage srv mac msgType ip sid xid).1.clients = t' at hh ⊢
  generalize (handleMessage srv mac msgType ip sid xid).2 = reply at hh
  cases hh with
  | discoverMove my req _ hmy hr =>
    rw [hk] at hr
    cases hr
    rw [offerTo_other _ _ hne, uniqueMine hl hm hmy]
    simp [dropForget]
  | requestTaken my _ hmy | requestRefuse my _ _ hmy =>
    rw [uniqueMine hl hm hmy]
    exact drop_idle ..
  | requestMove my req _ hmy _ hr =>
    rw [hk] at hr
    cases hr
    rw [bindTo_state _ _ hne, uniqueMine hl hm hmy]
    exact drop_idle ..
  | discoverAgain _ _ _ hr | requestKeep _ _ _ _ hr | requestNone _ _ _ _ hr => rw [hk] at hr; cases hr
  | discoverNew _ _ hs | discoverFull _ hs | requestNew _ _ hs | requestNak _ hs => exact absurd hm (hs e)
  | release _ he | releaseNone he => exact absurd ht (by rcases he with rfl | rfl <;> decide)
  | other hd hq => exact absurd ht (not_or.mpr ⟨hd, hq⟩)

/-- A client that asks for an address outside the pool keeps its entry. -/
theorem stayed (hl : LeaseInv srv.clients) (hm : Mine srv.clients mac e) (ht : msgType = msgDiscover ∨ msgType = msgRequest)
    (hout : ∀ i, (srv.clients i).ipAddr ≠ ip) : Active ((handleMessage srv mac msgType ip sid xid).1.clients e) := by
  have hnone {k : Slot} (hk : reqEntry srv.clients ip = some k) : False := hout k (idleWith_some hk).2
  have hh := @handled srv mac ip sid xid hl.noSelect msgType
  generalize (handleMessage srv mac msgType ip sid xid).1.clients = t' at hh ⊢
  generalize (handleMessage srv mac msgType ip sid xid).2 = reply at hh
  cases hh with
  | discoverMove _ _ _ _ hr | requestMove _ _ _ _ _ hr | requestRefuse _ _ _ _ _ hr => exact absurd hr fun h => hnone h
  | requestTaken _ _ _ hu =>
    simp only [takenByOther, List.any_eq_true, decide_eq_true_eq] at hu
    obtain ⟨i, _, _, _, hi⟩ := hu
    exact absurd hi (hout i)
  | discoverAgain my _ hmy =>
    rw [uniqueMine hl hm hmy]
    simp [Active, offerTo]
  | requestKeep my _ hmy =>
    rw [uniqueMine hl hm hmy, bindTo_self]
    simp [Active]
  | requestNone => exact hm.1
  | discoverNew _ _ hs | discoverFull _ hs | requestNew _ _ hs | requestNak _ hs => exact absurd hm (hs e)
  | release _ he | releaseNone he => exact absurd ht (by rcases he with rfl | rfl <;> decide)
  | other hd hq => exact absurd ht (not_or.mpr ⟨hd, hq⟩)

/-- A client with an entry is answered by the server id. -/
theorem answered (hl : LeaseInv srv.clients) (hm : Mine srv.clients mac e) (hu : takenByOther srv.clients mac ip = false) :
    (handleMessage srv mac msgRequest ip sid xid).2 = some (.nak mac xid) ↔ ¬Ours srv sid := by
  have hh := @handled srv mac ip sid xid hl.noSelect msgRequest
  generalize (handleMessage srv mac msgRequest ip sid xid).1.clients = t' at hh
  generalize (handleMessage srv mac msgRequest ip sid xid).2 = reply at hh ⊢
  cases hh with
  | discoverMove _ _ h | discoverAgain _ h | discoverNew _ h | discoverFull h => exact absurd h (by decide)
  | requestTaken _ _ _ ht => rw [hu] at ht; cases ht
  | requestMove _ _ _ _ _ _ ho | requestKeep _ _ _ _ _ ho => exact ⟨fun h => (by cases h), fun h => absurd ho h⟩
  | requestRefuse _ _ _ _ _ _ ho | requestNone _ _ _ _ _ ho => exact ⟨fun _ => ho, fun _ => rfl⟩
  | requestNew _ _ hs | requestNak _ hs => exact absurd hm (hs e)
  | release _ he | releaseNone he => exact absurd he (by decide)
  | other _ hq => exact absurd rfl hq

end

/-! ## The addresses -/

section
variable {p : List UInt8} {os : List Nat} {o a : Nat}

theorem reqIpAddr_of_independent (hi : ∀ d, Started d → Independent d p) (hne : p ≠ []) (hf : HeaderFits p)
    (hmet : Met (packetMem p) (limit p) optionsAt os) (ho : lastAt (packetMem p) optionMsgType os = some o)
    (hlt : o + 2 < limit p) (htype : packetMem p (o + 2) = msgDiscover ∨ packetMem p (o + 2) = msgRequest)
    (ha : lastAt (packetMem p) optionReqIpAddr os = some a) : a + 6 ≤ limit p := by
  by_contra hnot
  have hge : limit p ≤ a + 2 + 3 := by omega
  obtain ⟨d₀, hs, e, hd, hstage⟩ := stage (packetMem p) (a + 2) (macAt (packetMem p) chaddrAt)
  obtain ⟨k, hk⟩ : ∃ k : Slot, k ≠ e := exists_ne e
  obtain ⟨b, hb⟩ := hstage.pool k
  have hsame := ((hi d₀ hd).same hne hs (completes_update p hge b) (completes_update p hge 1)
    (request_update hf hmet ho hge b) (request_update hf hmet ho hge 1)).2
  generalize (run devStep d₀ hs).srv = srv at hstage hsame hb
  simp only [Request.handle, requestAt_completes hmet (completes_update p hge b) hlt,
    requestAt_completes hmet (completes_update p hge 1) hlt, ha, Option.map_some, Option.getD_some, ← hb,
    ← hstage.server] at hsame
  obtain ⟨k', hk'⟩ : ∃ k', reqEntry srv.clients (srv.clients k).ipAddr = some k' := by
    cases hr : reqEntry srv.clients (srv.clients k).ipAddr with
    | none => exact absurd rfl (idleWith_none.mp hr k (hstage.idle k hk))
    | some k' => exact ⟨k', rfl⟩
  have hstate := congrArg (fun t : Table => (t e).state) hsame
  simp only [moved hstage.lease hstage.mine htype hk'] at hstate
  exact stayed hstage.lease hstage.mine htype hstage.outside hstate.symm

theorem word_update_inj {m : Mem} {a : Nat} {b b' : UInt8}
    (h : word (Function.update m (a + 3) b) a = word (Function.update m (a + 3) b') a) : b = b' := by
  have hb := congrArg wordBytes h
  simp only [wordBytes_word, List.cons.injEq, Function.update_self] at hb
  exact hb.2.2.2.1

theorem serverId_of_independent (hi : ∀ d, Started d → Independent d p) (hne : p ≠ []) (hf : HeaderFits p)
    (hmet : Met (packetMem p) (limit p) optionsAt os) (ho : lastAt (packetMem p) optionMsgType os = some o)
    (hlt : o + 2 < limit p) (htype : packetMem p (o + 2) = msgRequest)
    (hip : ∀ a ∈ lastAt (packetMem p) optionReqIpAddr os, a + 6 ≤ limit p)
    (ha : lastAt (packetMem p) optionServerId os = some a) : a + 6 ≤ limit p := by
  by_contra hnot
  have hge : limit p ≤ a + 2 + 3 := by omega
  obtain ⟨d₀, hs, e, hd, hstage⟩ := stage (packetMem p) (a + 2) (macAt (packetMem p) chaddrAt)
  have hsame := ((hi d₀ hd).same hne hs (completes_update p hge 1) (completes_update p hge 2)
    (request_update hf hmet ho hge 1) (request_update hf hmet ho hge 2)).1
  generalize (run devStep d₀ hs).srv = srv at hstage hsame
  simp only [Request.handle, requestAt_completes hmet (completes_update p hge 1) hlt,
    requestAt_completes hmet (completes_update p hge 2) hlt, value_completes (completes_update p hge 1) hip,
    value_completes (completes_update p hge 2) hip, htype, ha, Option.map_some, Option.getD_some] at hsame
  have hfree (ip : UInt32) : takenByOther srv.clients (macAt (packetMem p) chaddrAt) ip = false := by
    refine List.any_eq_false.mpr fun i _ h => ?_
    obtain ⟨hact, hmac, _⟩ := of_decide_eq_true h
    by_cases hie : i = e
    · exact hmac (hie ▸ hstage.mine.2)
    · exact hact (hstage.idle i hie)
  have hours : Ours srv (word (Function.update (packetMem p) (a + 2 + 3) 1) (a + 2)) := .inr hstage.server
  have hnot : ¬Ours srv (word (Function.update (packetMem p) (a + 2 + 3) 2) (a + 2)) := by
    rintro (h0 | h)
    · have hb := congrArg wordBytes h0
      simp only [wordBytes_word, show wordBytes 0 = [0, 0, 0, 0] by decide, List.cons.injEq, Function.update_self] at hb
      exact absurd hb.2.2.2.1 (by decide)
    · exact absurd (word_update_inj (hstage.server.symm.trans h)) (by decide)
  exact (answered hstage.lease hstage.mine (hfree _)).mp
    (hsame.trans ((answered hstage.lease hstage.mine (hfree _)).mpr hnot)) hours

end

theorem started_sample : ∃ d, Started d := by
  cases h : dhcpsStart noServer sampleNetif (some 1) with
  | none => exact absurd h (by decide)
  | some p => exact ⟨{ srv := p.1, mem := fun _ => 0 }, noServer, sampleNetif, some 1, p.2, rfl, h⟩

/-- **Stale bytes.** A packet has one outcome after any two histories with one
table, whichever server receives it, exactly when its own bytes decide. -/
theorem stale_spec (p : List UInt8) : (∀ d, Started d → Independent d p) ↔ Determined p := by
  refine ⟨fun hi => ?_, fun hp d _ => independent_of_determined hp d⟩
  by_cases hne : p = []
  · exact .inl hne
  by_cases hf : HeaderFits p
  swap
  · exact .inr (.inl hf)
  obtain ⟨d, hd⟩ := started_sample
  obtain ⟨os, hmet⟩ := met_of_independent (hi d hd) hne hf
  have htype {o : Nat} (ho : o ∈ lastAt (packetMem p) optionMsgType os) : o + 2 < limit p :=
    msgType_of_independent (hi d hd) hne hf hmet ho
  have hip {o : Nat} (ho : o ∈ lastAt (packetMem p) optionMsgType os)
      (ht : packetMem p (o + 2) = msgDiscover ∨ packetMem p (o + 2) = msgRequest) {a : Nat}
      (ha : a ∈ lastAt (packetMem p) optionReqIpAddr os) : a + 6 ≤ limit p :=
    reqIpAddr_of_independent hi hne hf hmet ho (htype ho) ht ha
  exact .inr (.inr ⟨os, hmet, fun _ => htype, fun _ ho ht _ => hip ho ht, fun _ ho ht _ =>
    serverId_of_independent hi hne hf hmet ho (htype ho) ht fun _ => hip ho (.inr ht)⟩)

/-- After `DHCPS_Start` the packet of one byte 1 depends on what was received
before it. -/
theorem stale_one_byte : ∃ srv rc, dhcpsStart noServer sampleNetif (some 1) = some (srv, rc) ∧
    ¬Independent { srv := srv, mem := fun _ => 0 } [1] := by
  cases h : dhcpsStart noServer sampleNetif (some 1) with
  | none => exact absurd h (by decide)
  | some s =>
    refine ⟨s.1, s.2, rfl, fun hi => ?_⟩
    obtain ⟨os, hmet⟩ := met_of_independent hi (by decide) (by decide)
    exact absurd hmet.limit_gt (by decide)

end SerialNet.Dhcp
