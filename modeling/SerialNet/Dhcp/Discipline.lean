import SerialNet.Dhcp.History

/-!
# Which replies are sent

A well-formed BOOTREQUEST is a packet whose header passes and whose options
are items and an END. `discipline_iff` says when the reply to it is the one
the message type asks for.
-/

namespace SerialNet.Dhcp

open Patch Run

/-! ## Reachable devices -/

structure TableInv (t : Table) : Prop where
  lease : LeaseInv t
  ip : ∀ i, (t i).ipAddr ≠ 0

theorem tableInv_devStep {d : Device} (h : TableInv d.srv.clients) (op : DevOp) : TableInv (devStep d op).srv.clients := by
  rw [devStep_srv]
  cases served d op with
  | none => exact h
  | some op' => exact ⟨inv_step h.lease op', fun i => by rw [Option.map_some, Option.getD_some, step_ip h.lease]; exact h.ip i⟩

theorem tableInv_run {d : Device} (h : TableInv d.srv.clients) (ops : List DevOp) :
    TableInv (run devStep d ops).srv.clients :=
  run_inv devStep (I := fun d => TableInv d.srv.clients) (fun _ op h => tableInv_devStep h op) h ops

/-! ## The discipline -/

/-- This server can give the address `a` to `m`: an entry with it is idle or
`m`'s own, and no other client has it. -/
def CanGive (t : Table) (m : Mac) (a : UInt32) : Prop :=
  (∃ i, (t i).ipAddr = a ∧ ((t i).state = .idle ∨ Mine t m i)) ∧
    ∀ i, Active (t i) → (t i).ipAddr = a → (t i).macAddr = m

/-- What is asked of the reply to the message `b` and of the table it leaves. -/
structure Discipline (t t' : Table) (b : BootRequest) (reply : Option Reply) : Prop where
  offer : ∀ ip mac xid, reply = some (.offer ip mac xid) → b.msgType = msgDiscover
  ack : ∀ ip mac xid, reply = some (.ack ip mac xid) → b.msgType = msgRequest
  nak : ∀ mac xid, reply = some (.nak mac xid) → b.msgType = msgRequest
  ackAddr : ∀ ip mac xid a, reply = some (.ack ip mac xid) → b.reqIpAddr = some a → ip = a
  refused : ∀ a, b.msgType = msgRequest → b.reqIpAddr = some a → ¬CanGive t b.mac a →
    ∀ ip mac xid, reply ≠ some (.ack ip mac xid)
  offered : ∀ ip mac xid, reply = some (.offer ip mac xid) →
    ∃ i, (t' i).ipAddr = ip ∧ (t' i).macAddr = b.mac ∧ (t' i).state = .request
  bound : ∀ ip mac xid, reply = some (.ack ip mac xid) →
    ∃ i, (t' i).ipAddr = ip ∧ (t' i).macAddr = b.mac ∧ (t' i).state = .bind
  released : b.msgType = msgRelease ∨ b.msgType = msgDecline → ∀ j, (t j).macAddr ≠ b.mac → t' j = t j

/-- A DISCOVER finds an entry; a REQUEST for this server from a client with an
active entry names no address outside the table; and the type is one of the
four the lookup knows. -/
def Answerable (srv : DhcpServer) (b : BootRequest) : Prop :=
  if b.msgType = msgDiscover then ∃ i, (srv.clients i).state = .idle ∨ Mine srv.clients b.mac i
  else if b.msgType = msgRequest then
    ∀ a, b.reqIpAddr = some a → Ours srv (b.serverId.getD 0) → ¬Stranger srv.clients b.mac →
      ∃ i, (srv.clients i).ipAddr = a
  else b.msgType = msgRelease ∨ b.msgType = msgDecline

theorem takenByOther_false {t : Table} {m : Mac} {a : UInt32} (h : takenByOther t m a = false) {i : Slot}
    (hi : Active (t i)) (ha : (t i).ipAddr = a) : (t i).macAddr = m := by
  by_contra hm
  have := List.any_eq_false.mp h i (mem_slots i)
  simp only [decide_eq_true_eq] at this
  exact this ⟨hi, hm, ha⟩

theorem takenByOther_true {t : Table} {m : Mac} {a : UInt32} (h : takenByOther t m a = true) :
    ∃ i, (t i).ipAddr = a := by
  obtain ⟨i, _, hi⟩ := List.any_eq_true.mp h
  simp only [decide_eq_true_eq] at hi
  exact ⟨i, hi.2.2⟩

theorem not_release_of_discover {b : BootRequest} (h : b.msgType = msgDiscover) :
    ¬(b.msgType = msgRelease ∨ b.msgType = msgDecline) := by rw [h]; decide

theorem not_release_of_request {b : BootRequest} (h : b.msgType = msgRequest) :
    ¬(b.msgType = msgRelease ∨ b.msgType = msgDecline) := by rw [h]; decide

section
variable {t t' : Table} {b : BootRequest}

theorem Discipline.of_none (h : b.msgType = msgRelease ∨ b.msgType = msgDecline →
    ∀ j, (t j).macAddr ≠ b.mac → t' j = t j) : Discipline t t' b none := by
  refine ⟨?_, ?_, ?_, ?_, ?_, ?_, ?_, h⟩
  · rintro _ _ _ ⟨⟩
  · rintro _ _ _ ⟨⟩
  · rintro _ _ ⟨⟩
  · rintro _ _ _ _ ⟨⟩
  · rintro _ _ _ _ _ _ _ ⟨⟩
  · rintro _ _ _ ⟨⟩
  · rintro _ _ _ ⟨⟩

theorem Discipline.of_nak {mac : Mac} {xid : UInt32} (h : b.msgType = msgRequest) :
    Discipline t t' b (some (.nak mac xid)) := by
  refine ⟨?_, ?_, fun _ _ _ => h, ?_, ?_, ?_, ?_, fun hr => absurd hr (not_release_of_request h)⟩
  · rintro _ _ _ ⟨⟩
  · rintro _ _ _ ⟨⟩
  · rintro _ _ _ _ ⟨⟩
  · rintro _ _ _ _ _ _ _ ⟨⟩
  · rintro _ _ _ ⟨⟩
  · rintro _ _ _ ⟨⟩

theorem Discipline.of_offer {mac : Mac} {xid : UInt32} (h : b.msgType = msgDiscover) (i : Slot) :
    Discipline t (offerTo t' i b.mac) b (some (.offer (t' i).ipAddr mac xid)) := by
  refine ⟨fun _ _ _ _ => h, ?_, ?_, ?_, ?_, ?_, ?_, fun hr => absurd hr (not_release_of_discover h)⟩
  · rintro _ _ _ ⟨⟩
  · rintro _ _ ⟨⟩
  · rintro _ _ _ _ ⟨⟩
  · rintro _ _ _ _ _ _ _ ⟨⟩
  · rintro _ _ _ ⟨⟩
    exact ⟨i, by simp, by simp [offerTo], by simp [offerTo]⟩
  · rintro _ _ _ ⟨⟩

theorem Discipline.of_ack {mac : Mac} {xid : UInt32} (h : b.msgType = msgRequest) (i : Slot)
    (ha : ∀ a, b.reqIpAddr = some a → (t' i).ipAddr = a ∧ CanGive t b.mac a) :
    Discipline t (bindTo t' i b.mac) b (some (.ack (t' i).ipAddr mac xid)) := by
  constructor
  · rintro _ _ _ ⟨⟩
  · exact fun _ _ _ _ => h
  · rintro _ _ ⟨⟩
  · rintro _ _ _ a ⟨⟩ hr
    exact (ha a hr).1
  · exact fun a _ hr hno => absurd (ha a hr).2 hno
  · rintro _ _ _ ⟨⟩
  · rintro _ _ _ ⟨⟩
    exact ⟨i, by simp, by rw [bindTo_self], by rw [bindTo_self]⟩
  · exact fun hr => absurd hr (not_release_of_request h)

end

theorem canGive_req {srv : DhcpServer} {b : BootRequest} {req : Slot} {a : UInt32} (hr : b.reqIpAddr = some a)
    (ht : takenByOther srv.clients b.mac (b.reqIpAddr.getD 0) = false)
    (hq : reqEntry srv.clients (b.reqIpAddr.getD 0) = some req) :
    (srv.clients req).ipAddr = a ∧ CanGive srv.clients b.mac a := by
  rw [hr, Option.getD_some] at ht hq
  obtain ⟨hidle, hip⟩ := idleWith_some hq
  exact ⟨hip, ⟨req, hip, .inl hidle⟩, fun i => takenByOther_false ht⟩

section
variable {srv : DhcpServer} {b : BootRequest} {t' : Table} {reply : Option Reply}
  (hh : Handled srv b.mac (b.reqIpAddr.getD 0) (b.serverId.getD 0) b.xid b.msgType t' reply)
include hh

theorem released_other (hr : b.msgType = msgRelease ∨ b.msgType = msgDecline) (j : Slot)
    (hj : (srv.clients j).macAddr ≠ b.mac) : t' j = srv.clients j := by
  have hd := fun h => not_release_of_discover (b := b) h hr
  have hq := fun h => not_release_of_request (b := b) h hr
  cases hh with
  | discoverMove _ _ he | discoverAgain _ he | discoverNew _ he => exact absurd he hd
  | requestTaken _ he | requestMove _ _ he | requestRefuse _ _ he | requestKeep _ he | requestNew _ he =>
    exact absurd he hq
  | release my _ hmy => exact dropped_other (.drop my hmy.1 hmy.2) hj
  | discoverFull | requestNone | requestNak | releaseNone | other => rfl

theorem discipline_of_answerable (hi : LeaseInv srv.clients) (ha : Answerable srv b) : Discipline srv.clients t' b reply := by
  have hrel := released_other hh
  unfold Answerable at ha
  cases hh with
  | discoverMove my req he hmy hq =>
    have := @Discipline.of_offer srv.clients (dropForget srv.clients my) b b.mac b.xid he req
    rwa [dropForget_ip] at this
  | discoverAgain my he _ _ => exact .of_offer he my
  | discoverNew i he _ _ => exact .of_offer he i
  | discoverFull he hs hn =>
    rw [if_pos he] at ha
    obtain ⟨i, hidle | hmine⟩ := ha
    · exact absurd hidle (available_none.mp hn i)
    · exact absurd hmine (hs i)
  | requestTaken _ he | requestRefuse _ _ he | requestNone _ he | requestNak he => exact .of_nak he
  | requestMove my req he hmy ht hq =>
    have hip : ((drop srv.clients my) req).ipAddr = (srv.clients req).ipAddr := drop_ip _ _ _
    rw [← hip]
    exact .of_ack he req fun a hr => hip ▸ canGive_req hr ht hq
  | requestKeep my he hmy ht hq ho =>
    have hne : b.msgType ≠ msgDiscover := by rw [he]; decide
    rw [if_neg hne, if_pos he] at ha
    refine .of_ack he my fun a hr => ?_
    obtain ⟨i, hip⟩ := ha a hr ho fun hs => hs my hmy
    rw [hr, Option.getD_some] at ht hq
    have hact : Active (srv.clients i) := fun hidle => idleWith_none.mp hq i hidle hip
    have him : i = my := uniqueMine hi hmy ⟨hact, takenByOther_false ht hact hip⟩
    subst him
    exact ⟨hip, ⟨i, hip, .inr hmy⟩, fun j => takenByOther_false ht⟩
  | requestNew req he hs ht hq ho => exact .of_ack he req fun a hr => canGive_req hr ht hq
  | release my he hmy => exact .of_none hrel
  | releaseNone he hs => exact .of_none hrel
  | other hd hq hr hc =>
    rw [if_neg hd, if_neg hq] at ha
    exact absurd ha (not_or.mpr ⟨hr, hc⟩)

theorem answerable_of_discipline (h : Discipline srv.clients t' b reply) : Answerable srv b := by
  unfold Answerable
  cases hh with
  | discoverMove my _ he hmy _ | discoverAgain my he hmy _ =>
    rw [if_pos he]
    exact ⟨my, .inr hmy⟩
  | discoverNew i he _ hn =>
    rw [if_pos he]
    exact ⟨i, .inl (available_idle hn)⟩
  | discoverFull he _ _ => exact absurd (he.symm.trans (h.nak _ _ rfl)) (by decide)
  | requestTaken my he hmy ht =>
    rw [if_neg (by rw [he]; decide), if_pos he]
    intro a hr _ _
    rw [hr] at ht
    exact takenByOther_true ht
  | requestMove my req he _ _ hq | requestRefuse my req he _ _ hq =>
    rw [if_neg (by rw [he]; decide), if_pos he]
    intro a hr _ _
    rw [hr] at hq
    exact ⟨req, (idleWith_some hq).2⟩
  | requestKeep my he hmy ht hq ho =>
    rw [if_neg (by rw [he]; decide), if_pos he]
    exact fun a hr _ _ => ⟨my, h.ackAddr _ _ _ a rfl hr⟩
  | requestNone my he hmy ht hq ho =>
    rw [if_neg (by rw [he]; decide), if_pos he]
    exact fun a _ hours _ => absurd hours ho
  | requestNew _ he hs | requestNak he hs =>
    rw [if_neg (by rw [he]; decide), if_pos he]
    exact fun a _ _ hn => absurd hs hn
  | release my he _ | releaseNone he _ =>
    rw [if_neg (fun h => not_release_of_discover h he), if_neg (fun h => not_release_of_request h he)]
    exact he
  | other hd hq _ _ => exact absurd (h.nak _ _ rfl) hq

end

/-- **Reply discipline.** For every table reachable from `DHCPS_Start` and every
BOOTREQUEST, the reply is the one the type asks for exactly when the message
can be answered, or when there is no buffer for a reply. -/
theorem discipline_iff {srv₀ srv : DhcpServer} {netif : Netif} {udpNew : Option Nat} {rc : Int} (hup : netif.isUp = true)
    (h : dhcpsStart srv₀ netif udpNew = some (srv, rc)) (mem : Mem) (ops : List DevOp) (b : BootRequest) (alloc : Bool) :
    Discipline (run devStep { srv := srv, mem := mem } ops).srv.clients
        (devStep (run devStep { srv := srv, mem := mem } ops) (.recv b.packet alloc)).srv.clients b
        (sentReply (run devStep { srv := srv, mem := mem } ops) b.packet alloc) ↔
      (alloc = true → Answerable (run devStep { srv := srv, mem := mem } ops).srv b) := by
  have hi : TableInv (run devStep { srv := srv, mem := mem } ops).srv.clients :=
    tableInv_run ⟨inv_start hup h, start_ip hup h⟩ ops
  generalize run devStep { srv := srv, mem := mem } ops = d at *
  have hh := @handled d.srv b.mac (b.reqIpAddr.getD 0) (b.serverId.getD 0) b.xid
    hi.lease.noSelect b.msgType
  obtain ⟨hsrv, hsent⟩ := recvCb_some (b.takes_boot d) alloc
  rw [devStep, hsrv, hsent]
  cases alloc with
  | true =>
    simp only [if_true, true_imp_iff]
    exact ⟨answerable_of_discipline hh, discipline_of_answerable hh hi.lease⟩
  | false =>
    simp only [Bool.false_eq_true, if_false, false_imp_iff, iff_true]
    exact .of_none (released_other hh)

theorem discipline_iff_sample : ∃ srv rc, dhcpsStart noServer sampleNetif (some 1) = some (srv, rc) ∧
    Discipline srv.clients (devStep { srv := srv, mem := fun _ => 0 } (.recv (sampleBoot msgDiscover).packet true)).srv.clients
      (sampleBoot msgDiscover) (sentReply { srv := srv, mem := fun _ => 0 } (sampleBoot msgDiscover).packet true) := by
  cases h : dhcpsStart noServer sampleNetif (some 1) with
  | none => exact absurd h (by decide)
  | some p =>
    have hd := discipline_iff rfl h (fun _ => 0) [] (sampleBoot msgDiscover) true
    simp only [run_nil] at hd
    refine ⟨p.1, p.2, rfl, hd.mpr fun _ => ?_⟩
    rw [Answerable, if_pos (show (sampleBoot msgDiscover).msgType = msgDiscover from rfl)]
    exact ⟨0, .inl (start_idle rfl h 0)⟩

theorem inform_refused : ∃ srv rc, dhcpsStart noServer sampleNetif (some 1) = some (srv, rc) ∧
    ¬Discipline srv.clients (devStep { srv := srv, mem := fun _ => 0 } (.recv (sampleBoot 8).packet true)).srv.clients
      (sampleBoot 8) (sentReply { srv := srv, mem := fun _ => 0 } (sampleBoot 8).packet true) := by
  cases h : dhcpsStart noServer sampleNetif (some 1) with
  | none => exact absurd h (by decide)
  | some p =>
    refine ⟨p.1, p.2, rfl, fun hd => ?_⟩
    have hs := (recvCb_some ((sampleBoot 8).takes_boot { srv := p.1, mem := fun _ => 0 }) true).2
    rw [if_pos rfl, Request.handle, show (sampleBoot 8).request.msgType = 8 from rfl, reply_inform] at hs
    exact absurd (hd.nak _ _ hs) (by decide)

end SerialNet.Dhcp
