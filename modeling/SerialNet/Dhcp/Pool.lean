import SerialNet.Dhcp.Invariant
import Mathlib.Tactic.IntervalCases

/-!
# The address pool

`dhcpsStart_pool`: for which server addresses and netmasks `DHCPS_Start` fills
the table with usable, pairwise distinct addresses. Host numbers are what an
address has under the inverted mask.
-/

namespace SerialNet.Dhcp

/-! ## Byte order -/

theorem htonl_bit (x : UInt32) {i : Nat} (hi : i < 32) :
    (htonl x).toBitVec.getLsbD i = x.toBitVec.getLsbD (24 - 8 * (i / 8) + i % 8) := by
  simp only [htonl, UInt32.toBitVec_or, UInt32.toBitVec_and, UInt32.toBitVec_shiftLeft, UInt32.toBitVec_shiftRight,
    BitVec.getLsbD_or, BitVec.getLsbD_and]
  interval_cases i <;> simp

@[simp] theorem htonl_htonl (x : UInt32) : htonl (htonl x) = x := by
  apply UInt32.toBitVec_inj.mp
  apply BitVec.eq_of_getLsbD_eq
  intro i hi
  rw [htonl_bit _ hi, htonl_bit _ (by omega)]
  congr 1
  omega

theorem htonl_inj {x y : UInt32} (h : htonl x = htonl y) : x = y := by
  rw [← htonl_htonl x, h, htonl_htonl]

/-! ## Netmasks -/

def Contiguous (mask : UInt32) : Prop := ∃ n ≤ 32, (~~~mask).toNat = 2 ^ n - 1

def usableHosts (mask : UInt32) : Nat := (~~~mask).toNat - 1

def withHost (ip mask h : UInt32) : UInt32 := (ip &&& mask) ||| h

theorem and_not_mask (mask : UInt32) : ~~~mask &&& mask = 0 := by
  apply UInt32.toBitVec_inj.mp
  apply BitVec.eq_of_getLsbD_eq
  intro i hi
  simp [hi]

theorem or_and_right (a b c : UInt32) : (a ||| b) &&& c = (a &&& c) ||| (b &&& c) := by
  apply UInt32.toBitVec_inj.mp
  exact BitVec.and_or_distrib_right ..

section
variable {mask : UInt32} {n : Nat} (hm : (~~~mask).toNat = 2 ^ n - 1)
include hm

theorem and_not_of_lt {h : UInt32} (hh : h.toNat ≤ (~~~mask).toNat) : h &&& ~~~mask = h := by
  apply UInt32.toNat_inj.mp
  have hlt : h.toNat < 2 ^ n := by have := Nat.two_pow_pos n; omega
  rw [UInt32.toNat_and, hm, Nat.and_two_pow_sub_one_eq_mod, Nat.mod_eq_of_lt hlt]

theorem withHost_host (ip : UInt32) {h : UInt32} (hh : h.toNat ≤ (~~~mask).toNat) :
    withHost ip mask h &&& ~~~mask = h := by
  rw [withHost, or_and_right, UInt32.and_assoc, UInt32.and_comm mask, and_not_mask, UInt32.and_zero,
    UInt32.zero_or, and_not_of_lt hm hh]

theorem withHost_net (ip : UInt32) {h : UInt32} (hh : h.toNat ≤ (~~~mask).toNat) :
    withHost ip mask h &&& mask = ip &&& mask := by
  have hz : h &&& mask = 0 := by
    rw [← and_not_of_lt hm hh, UInt32.and_assoc, and_not_mask, UInt32.and_zero]
  rw [withHost, or_and_right, UInt32.and_assoc, UInt32.and_self, hz, UInt32.or_zero]

omit hm in
theorem host_le (ip : UInt32) : (ip &&& ~~~mask).toNat ≤ (~~~mask).toNat := by
  rw [UInt32.toNat_and]
  exact Nat.and_le_right

end

/-! ## Host numbers of the pool -/

/-- `(x % m) ? (x % m) : 1`. -/
def wrapHost (x m : UInt32) : UInt32 := if x % m ≠ 0 then x % m else 1

theorem modOrOne_eq {m : UInt32} (h : m ≠ 0) (x : UInt32) : modOrOne x m = some (wrapHost x m) := by
  simp [modOrOne, wrapHost, h]

theorem wrapHost_le {x m : UInt32} (h : m ≠ 0) : (wrapHost x m).toNat ≤ m.toNat := by
  have hm : 0 < m.toNat := Nat.pos_of_ne_zero fun e => h (UInt32.toNat_inj.mp e)
  unfold wrapHost
  split
  · rw [UInt32.toNat_mod]
    exact (Nat.mod_lt _ hm).le
  · exact hm

theorem wrapHost_of_lt {x m : UInt32} (h0 : x ≠ 0) (h : x.toNat < m.toNat) : wrapHost x m = x := by
  have hmod : x % m = x := UInt32.toNat_inj.mp (by rw [UInt32.toNat_mod, Nat.mod_eq_of_lt h])
  rw [wrapHost, hmod, if_pos h0]

theorem wrapHost_of_mod {x m : UInt32} (h : x.toNat % m.toNat ≤ 1) : wrapHost x m = 1 := by
  unfold wrapHost
  split
  · rename_i hne
    have hpos : (x % m).toNat ≠ 0 := fun e => hne (UInt32.toNat_inj.mp e)
    rw [UInt32.toNat_mod] at hpos
    apply UInt32.toNat_inj.mp
    rw [UInt32.toNat_mod, UInt32.toNat_one]
    omega
  · rfl

/-- One past the largest host number, also when the sum wraps at 2^32. -/
theorem wrapHost_succ {x m : UInt32} (h2 : 2 ≤ m.toNat) (h : x.toNat = (m.toNat + 1) % 2 ^ 32) : wrapHost x m = 1 := by
  apply wrapHost_of_mod
  have hm := m.toNat_lt
  rw [h]
  rcases Nat.lt_or_ge (m.toNat + 1) (2 ^ 32) with hl | hl
  · rw [Nat.mod_eq_of_lt hl, Nat.add_mod_left, Nat.mod_eq_of_lt (by omega)]
  · rw [show m.toNat + 1 = 2 ^ 32 by omega, Nat.mod_self, Nat.zero_mod]
    omega

def startHost (ip mask : UInt32) : UInt32 := wrapHost ((ip &&& ~~~mask) + 1) (~~~mask)

def entryHost (ip mask : UInt32) (i : Slot) : UInt32 :=
  wrapHost (startHost ip mask + UInt32.ofNat i.val) (~~~mask)

/-- The server's host number leaves room for eight entries below the last host
number, or is one of the last two. -/
def RoomAbove (ip mask : UInt32) : Prop :=
  (ip &&& ~~~mask).toNat + historyClientNum ≤ (~~~mask).toNat ∨ (~~~mask).toNat ≤ (ip &&& ~~~mask).toNat + 1

instance (ip mask : UInt32) : Decidable (RoomAbove ip mask) := inferInstanceAs (Decidable (_ ∨ _))

section
variable {ip mask : UInt32} (hH : 10 ≤ (~~~mask).toNat)
include hH

theorem startHost_cases :
    ((ip &&& ~~~mask).toNat + 1 < (~~~mask).toNat ∧ (startHost ip mask).toNat = (ip &&& ~~~mask).toNat + 1) ∨
      ((~~~mask).toNat ≤ (ip &&& ~~~mask).toNat + 1 ∧ (startHost ip mask).toNat = 1) := by
  have hle := @host_le mask ip
  have hm := (~~~mask).toNat_lt
  rcases Nat.lt_or_ge ((ip &&& ~~~mask).toNat + 1) (~~~mask).toNat with h | h
  · have hadd : ((ip &&& ~~~mask) + 1).toNat = (ip &&& ~~~mask).toNat + 1 := by
      rw [UInt32.toNat_add, UInt32.toNat_one, Nat.mod_eq_of_lt (by omega)]
    refine .inl ⟨h, ?_⟩
    rw [startHost, wrapHost_of_lt, hadd]
    · intro e
      rw [e, UInt32.toNat_zero] at hadd
      omega
    · rw [hadd]; exact h
  · refine .inr ⟨h, ?_⟩
    have hone : startHost ip mask = 1 := by
      rcases Nat.eq_or_lt_of_le hle with he | hl
      · apply wrapHost_succ (by omega)
        rw [UInt32.toNat_add, he, UInt32.toNat_one]
      · apply wrapHost_of_mod
        rw [UInt32.toNat_add, UInt32.toNat_one, show (ip &&& ~~~mask).toNat + 1 = (~~~mask).toNat by omega,
          Nat.mod_eq_of_lt hm, Nat.mod_self]
        omega
    rw [hone, UInt32.toNat_one]

theorem entryHost_of_lt {i : Slot} (h : (startHost ip mask).toNat + i.val < (~~~mask).toNat) :
    (entryHost ip mask i).toNat = (startHost ip mask).toNat + i.val := by
  have hm := (~~~mask).toNat_lt
  have hs : 1 ≤ (startHost ip mask).toNat := by
    rcases @startHost_cases ip mask hH with ⟨_, h⟩ | ⟨_, h⟩ <;> omega
  have hadd : (startHost ip mask + UInt32.ofNat i.val).toNat = (startHost ip mask).toNat + i.val := by
    rw [UInt32.toNat_add, UInt32.toNat_ofNat_of_lt' (by have : i.val < 8 := i.isLt; simp only [UInt32.size]; omega),
      Nat.mod_eq_of_lt (by omega)]
  rw [entryHost, wrapHost_of_lt, hadd]
  · intro e
    rw [e, UInt32.toNat_zero] at hadd
    omega
  · rw [hadd]; exact h

theorem entryHost_wrap {i : Slot} (h : (~~~mask).toNat ≤ (startHost ip mask).toNat + i.val)
    (h' : (startHost ip mask).toNat + i.val ≤ (~~~mask).toNat + 1) : entryHost ip mask i = 1 := by
  have hm := (~~~mask).toNat_lt
  have hadd : (startHost ip mask + UInt32.ofNat i.val).toNat = ((startHost ip mask).toNat + i.val) % 2 ^ 32 := by
    rw [UInt32.toNat_add, UInt32.toNat_ofNat_of_lt' (by have : i.val < 8 := i.isLt; simp only [UInt32.size]; omega)]
  rcases Nat.eq_or_lt_of_le h with he | hl
  · apply wrapHost_of_mod
    rw [hadd, ← he, Nat.mod_eq_of_lt hm, Nat.mod_self]
    omega
  · apply wrapHost_succ (by omega)
    rw [hadd]
    congr 1
    omega

/-- With room above the server, the entries' host numbers are distinct, and
none is 0, the server's or the last one. -/
theorem entryHost_room (h : RoomAbove ip mask) :
    Function.Injective (entryHost ip mask) ∧ ∀ i, (entryHost ip mask i).toNat ≠ 0 ∧
      (entryHost ip mask i).toNat < (~~~mask).toNat ∧ entryHost ip mask i ≠ ip &&& ~~~mask := by
  have hle := @host_le mask ip
  have hroom : (startHost ip mask).toNat + 7 ≤ (~~~mask).toNat := by
    unfold RoomAbove historyClientNum at h
    rcases @startHost_cases ip mask hH with ⟨_, _⟩ | ⟨_, _⟩ <;> omega
  have hval : ∀ i : Slot, (entryHost ip mask i).toNat = (startHost ip mask).toNat + i.val ∧
      (startHost ip mask).toNat + i.val < (~~~mask).toNat ∨
      (entryHost ip mask i).toNat = 1 ∧ i.val = 7 ∧ (startHost ip mask).toNat + 7 = (~~~mask).toNat := by
    intro i
    have hi : i.val < 8 := i.isLt
    rcases Nat.lt_or_ge ((startHost ip mask).toNat + i.val) (~~~mask).toNat with hl | hl
    · exact .inl ⟨entryHost_of_lt hH hl, hl⟩
    · refine .inr ⟨?_, by omega, by omega⟩
      rw [entryHost_wrap hH hl (by omega), UInt32.toNat_one]
  have hs := @startHost_cases ip mask hH
  constructor
  · intro i j hij
    have hij' := congrArg UInt32.toNat hij
    apply Fin.ext
    rcases hval i with ⟨_, _⟩ | ⟨_, _, _⟩ <;> rcases hval j with ⟨_, _⟩ | ⟨_, _, _⟩ <;> omega
  · intro i
    have hi : i.val < 8 := i.isLt
    have hne : (entryHost ip mask i).toNat ≠ (ip &&& ~~~mask).toNat := by
      rcases hval i with ⟨_, _⟩ | ⟨_, _, _⟩ <;> omega
    refine ⟨?_, ?_, fun e => hne (congrArg UInt32.toNat e)⟩
    · rcases hval i with ⟨_, _⟩ | ⟨_, _, _⟩ <;> omega
    · rcases hval i with ⟨_, _⟩ | ⟨_, _, _⟩ <;> omega

/-- Otherwise the entry that reaches the last host number and its successor
both get host number 1. -/
theorem entryHost_clash (h : ¬RoomAbove ip mask) : ¬Function.Injective (entryHost ip mask) := by
  intro hinj
  unfold RoomAbove historyClientNum at h
  obtain ⟨_, hs⟩ | ⟨_, _⟩ := @startHost_cases ip mask hH
  · have hk : (~~~mask).toNat - (startHost ip mask).toNat < 7 := by omega
    have e := @entryHost_wrap ip mask hH (i := ⟨(~~~mask).toNat - (startHost ip mask).toNat, by
      simp only [historyClientNum]; omega⟩) (by simp only; omega) (by simp only; omega)
    have e' := @entryHost_wrap ip mask hH (i := ⟨(~~~mask).toNat - (startHost ip mask).toNat + 1, by
      simp only [historyClientNum]; omega⟩) (by simp only; omega) (by simp only; omega)
    have := Fin.ext_iff.mp (hinj (e.trans e'.symm))
    simp at this
  · omega

end

/-! ## The table of `DHCPS_Start` -/

theorem startHost_le {ip mask : UInt32} (h : ~~~mask ≠ 0) : (startHost ip mask).toNat ≤ (~~~mask).toNat :=
  wrapHost_le h

theorem entryHost_le {ip mask : UInt32} (h : ~~~mask ≠ 0) (i : Slot) :
    (entryHost ip mask i).toNat ≤ (~~~mask).toNat :=
  wrapHost_le h

theorem poolAddr_eq {ip mask : UInt32} {n : Nat} (hm : (~~~mask).toNat = 2 ^ n - 1) (h0 : ~~~mask ≠ 0) (i : Slot) :
    poolAddr (htonl (withHost ip mask (startHost ip mask))) mask i =
      some (htonl (withHost ip mask (entryHost ip mask i))) := by
  have hs := @startHost_le ip mask h0
  unfold poolAddr
  simp only [htonl_htonl, withHost_host hm ip hs, withHost_net hm ip hs, modOrOne_eq h0, Option.map_some]
  rfl

/-- `DHCPS_Start` on an interface that is up divides by zero for the mask
255.255.255.255, and otherwise fills the table. -/
theorem dhcpsStart_clients (srv₀ : DhcpServer) {netif : Netif} (udpNew : Option Nat) (hup : netif.isUp = true)
    (hm : Contiguous (htonl netif.netmask)) (h0 : ~~~(htonl netif.netmask) ≠ 0) :
    ∃ srv rc, dhcpsStart srv₀ netif udpNew = some (srv, rc) ∧ ∀ i, (srv.clients i).ipAddr =
      htonl (withHost (htonl netif.ipAddr) (htonl netif.netmask) (entryHost (htonl netif.ipAddr) (htonl netif.netmask) i)) := by
  obtain ⟨n, _, hm⟩ := hm
  have hp := @poolAddr_eq (htonl netif.ipAddr) _ n hm h0
  simp only [withHost, startHost] at hp
  have hall : (List.finRange historyClientNum).all (fun i => (poolAddr (htonl ((htonl netif.ipAddr &&& htonl netif.netmask) |||
      wrapHost ((htonl netif.ipAddr &&& ~~~(htonl netif.netmask)) + 1) (~~~(htonl netif.netmask))))
        (htonl netif.netmask) i).isSome) = true := by
    simp only [hp, Option.isSome_some, List.all_eq_true, implies_true]
  simp only [dhcpsStart, hup, Bool.true_eq_false, if_false, modOrOne_eq h0, Option.bind_some, hall, if_true]
  refine ⟨_, _, rfl, fun i => ?_⟩
  simp only [hp i, Option.getD_some]
  rfl

theorem dhcpsStart_div (srv₀ : DhcpServer) {netif : Netif} (udpNew : Option Nat) (hup : netif.isUp = true)
    (h0 : ~~~(htonl netif.netmask) = 0) : dhcpsStart srv₀ netif udpNew = none := by
  simp [dhcpsStart, hup, modOrOne, h0]

theorem poolAddr_ne_zero {start mask a : UInt32} {i : Slot} (h : poolAddr start mask i = some a) : a ≠ 0 := by
  obtain ⟨tmp, htmp, rfl⟩ := Option.map_eq_some_iff.mp h
  have hne : tmp ≠ 0 := by
    unfold modOrOne at htmp
    split at htmp
    · cases htmp
    · cases htmp
      split
      · assumption
      · decide
  intro h0
  have hz : (htonl start &&& mask) ||| tmp = 0 := htonl_inj (h0.trans (by decide))
  exact hne (UInt32.or_eq_zero_iff.mp hz).2

theorem start_ip {srv₀ srv : DhcpServer} {netif : Netif} {udpNew : Option Nat} {rc : Int}
    (hup : netif.isUp = true) (h : dhcpsStart srv₀ netif udpNew = some (srv, rc)) (i : Slot) :
    (srv.clients i).ipAddr ≠ 0 := by
  simp only [dhcpsStart, hup, Bool.true_eq_false, if_false, Option.bind_eq_some_iff] at h
  obtain ⟨tmp, _, h⟩ := h
  split at h
  · rename_i hall
    simp only [Option.some.injEq, Prod.mk.injEq] at h
    obtain ⟨rfl, _⟩ := h
    obtain ⟨a, ha⟩ := Option.isSome_iff_exists.mp (List.all_eq_true.mp hall i (List.mem_finRange i))
    simpa [ha] using poolAddr_ne_zero ha
  · cases h

theorem start_idle {srv₀ srv : DhcpServer} {netif : Netif} {udpNew : Option Nat} {rc : Int}
    (hup : netif.isUp = true) (h : dhcpsStart srv₀ netif udpNew = some (srv, rc)) (i : Slot) :
    (srv.clients i).state = .idle := by
  simp only [dhcpsStart, hup, Bool.true_eq_false, if_false, Option.bind_eq_some_iff] at h
  obtain ⟨tmp, _, h⟩ := h
  split at h
  · simp only [Option.some.injEq, Prod.mk.injEq] at h
    obtain ⟨rfl, _⟩ := h
    rfl
  · cases h

theorem start_server {srv₀ srv : DhcpServer} {netif : Netif} {udpNew : Option Nat} {rc : Int}
    (hup : netif.isUp = true) (h : dhcpsStart srv₀ netif udpNew = some (srv, rc)) : srv.serverIpAddr = netif.ipAddr := by
  simp only [dhcpsStart, hup, Bool.true_eq_false, if_false, Option.bind_eq_some_iff] at h
  obtain ⟨tmp, _, h⟩ := h
  split at h
  · simp only [Option.some.injEq, Prod.mk.injEq] at h
    obtain ⟨rfl, _⟩ := h
    rfl
  · cases h

/-- The table's addresses are distinct hosts of the server's subnet; `ip` and
`mask` in host order. -/
structure PoolOk (t : Table) (ip mask : UInt32) : Prop where
  distinct : ∀ i j, (t i).ipAddr = (t j).ipAddr → i = j
  subnet : ∀ i, htonl (t i).ipAddr &&& mask = ip &&& mask
  notServer : ∀ i, htonl (t i).ipAddr ≠ ip
  notNetwork : ∀ i, htonl (t i).ipAddr ≠ ip &&& mask
  notBroadcast : ∀ i, htonl (t i).ipAddr ≠ ip ||| ~~~mask

theorem poolOk_iff {t : Table} {ip mask : UInt32} {n : Nat} (hm : (~~~mask).toNat = 2 ^ n - 1)
    (hH : 10 ≤ (~~~mask).toNat) (ht : ∀ i, (t i).ipAddr = htonl (withHost ip mask (entryHost ip mask i))) :
    PoolOk t ip mask ↔ RoomAbove ip mask := by
  have h0 : ~~~mask ≠ 0 := fun e => by rw [e, UInt32.toNat_zero] at hH; omega
  have host : ∀ i, withHost ip mask (entryHost ip mask i) &&& ~~~mask = entryHost ip mask i := fun i =>
    withHost_host hm ip (entryHost_le h0 i)
  constructor
  · intro hp
    by_contra hr
    refine entryHost_clash hH hr fun i j hij => hp.distinct i j ?_
    rw [ht, ht, hij]
  · intro hr
    obtain ⟨hinj, hval⟩ := entryHost_room hH hr
    constructor
    · intro i j hij
      rw [ht, ht] at hij
      have := htonl_inj hij
      exact hinj (by rw [← host i, this, host j])
    · intro i
      rw [ht, htonl_htonl, withHost_net hm ip (entryHost_le h0 i)]
    · intro i e
      rw [ht, htonl_htonl] at e
      exact (hval i).2.2 (by rw [← host i, e])
    · intro i e
      rw [ht, htonl_htonl] at e
      apply (hval i).1
      rw [← host i, e, UInt32.and_assoc, UInt32.and_comm mask, and_not_mask, UInt32.and_zero, UInt32.toNat_zero]
    · intro i e
      rw [ht, htonl_htonl] at e
      have hlast : entryHost ip mask i = ~~~mask := by
        rw [← host i, e, or_and_right, UInt32.and_self, ← and_not_of_lt hm (host_le ip), UInt32.and_assoc,
          UInt32.and_self]
        apply UInt32.toBitVec_inj.mp
        apply BitVec.eq_of_getLsbD_eq
        intro k hk
        simp [hk]
      have := (hval i).2.1
      rw [hlast] at this
      omega

/-- **The address pool.** `DHCPS_Start` divides by no zero, and fills the table
with distinct hosts of a large enough subnet, exactly when the mask leaves a
host bit and the server's host number leaves room above it. -/
theorem dhcpsStart_pool (srv₀ : DhcpServer) (netif : Netif) (udpNew : Option Nat) (hup : netif.isUp = true)
    (hm : Contiguous (htonl netif.netmask)) :
    (∃ srv rc, dhcpsStart srv₀ netif udpNew = some (srv, rc) ∧
        (historyClientNum + 1 ≤ usableHosts (htonl netif.netmask) →
          PoolOk srv.clients (htonl netif.ipAddr) (htonl netif.netmask))) ↔
      ~~~(htonl netif.netmask) ≠ 0 ∧
        (historyClientNum + 1 ≤ usableHosts (htonl netif.netmask) → RoomAbove (htonl netif.ipAddr) (htonl netif.netmask)) := by
  by_cases h0 : ~~~(htonl netif.netmask) = 0
  · simp [dhcpsStart_div srv₀ udpNew hup h0, h0]
  obtain ⟨srv, rc, he, ht⟩ := dhcpsStart_clients srv₀ udpNew hup hm h0
  obtain ⟨n, _, hn⟩ := hm
  have hok : historyClientNum + 1 ≤ usableHosts (htonl netif.netmask) →
      (PoolOk srv.clients (htonl netif.ipAddr) (htonl netif.netmask) ↔
        RoomAbove (htonl netif.ipAddr) (htonl netif.netmask)) := fun hu =>
    poolOk_iff hn (by simp only [usableHosts, historyClientNum] at hu; omega) ht
  constructor
  · rintro ⟨srv', rc', he', hp⟩
    rw [he] at he'
    cases he'
    exact ⟨h0, fun hu => (hok hu).mp (hp hu)⟩
  · rintro ⟨_, hr⟩
    exact ⟨srv, rc, he, fun hu => (hok hu).mpr (hr hu)⟩

theorem dhcpsStart_pool_sample :
    ∃ srv rc, dhcpsStart noServer sampleNetif (some 1) = some (srv, rc) ∧
      (historyClientNum + 1 ≤ usableHosts (htonl sampleNetif.netmask) →
        PoolOk srv.clients (htonl sampleNetif.ipAddr) (htonl sampleNetif.netmask)) :=
  (dhcpsStart_pool noServer sampleNetif (some 1) rfl ⟨8, by decide, by decide⟩).mpr
    ⟨by decide, fun _ => by decide⟩

def highNetif : Netif := { isUp := true, ipAddr := 0xfa00a8c0, netmask := 0x00ffffff }

def hostNetif : Netif := { isUp := true, ipAddr := 0x0100a8c0, netmask := 0xffffffff }

/-- The server at .250 gives .1 to two entries; a mask without host bits
divides by zero. -/
theorem pool_clash :
    (Contiguous (htonl highNetif.netmask) ∧ historyClientNum + 1 ≤ usableHosts (htonl highNetif.netmask) ∧
      ¬∃ srv rc, dhcpsStart noServer highNetif (some 1) = some (srv, rc) ∧
        PoolOk srv.clients (htonl highNetif.ipAddr) (htonl highNetif.netmask)) ∧
    Contiguous (htonl hostNetif.netmask) ∧ dhcpsStart noServer hostNetif (some 1) = none := by
  refine ⟨⟨⟨8, by decide, by decide⟩, by decide, ?_⟩, ⟨0, by decide, by decide⟩, by decide⟩
  rintro ⟨srv, rc, h, hp⟩
  have hsame : (dhcpsStart noServer highNetif (some 1)).map (fun p => (p.1.clients 4).ipAddr) =
      (dhcpsStart noServer highNetif (some 1)).map fun p => (p.1.clients 5).ipAddr := by decide
  rw [h] at hsame
  exact absurd (hp.distinct 4 5 (Option.some.inj hsame)) (by decide)

end SerialNet.Dhcp
