import SerialNet.Dhcp.Server
import SerialNet.Dns.Server
import SerialNet.Lib.Run
import SerialNet.Param.Config

/-!
# Network services and link events

`L2LinkUp` and `L2LinkDown` of `lwIP.c` with the two servers they start and
stop. Beside the control blocks stand the pcbs that `udp_new` has returned, the
arguments of `udp_remove`, and the pending timeouts of `_DhcpTickHandle`.
-/

namespace SerialNet.Link

open Run
open Dhcp (DhcpServer dhcpsStart dhcpsStop)
open Dns (DnsServer dnssStart dnssStop CString)
open Param (CfgParam)

def netModeStaBss : UInt8 := 0
def netModeSoftap : UInt8 := 2

inductive Service
  | dhcp | dns
  deriving DecidableEq

structure Services where
  dhcp : DhcpServer
  dns : DnsServer
  /-- The pending timeouts of `_DhcpTickHandle`. -/
  ticks : Nat
  /-- The pcbs `udp_new` has returned, the last first; each is numbered by its
  place. -/
  created : List (Service × Nat)
  /-- What `udp_remove` has got, the last first. -/
  removed : List Nat
  /-- A division by zero has stopped the system. -/
  halted : Bool

def Services.init : Services :=
  { dhcp := .zero, dns := .zero, ticks := 0, created := [], removed := [], halted := false }

def dnsNameOf (cfg : CfgParam) : CString where
  chars := Param.text cfg.dnsName
  noNul h := by
    have := List.all_eq_true.mp List.all_takeWhile 0 h
    simp at this

def addrOf (v : Vector UInt8 4) : UInt32 :=
  v.toList.foldr (fun b rest => b.toUInt32 ||| rest <<< 8) 0

def netifOf (cfg : CfgParam) : Dhcp.Netif :=
  { isUp := true, ipAddr := addrOf cfg.ipCfg.ip, netmask := addrOf cfg.ipCfg.netmask }

def Services.udpNew (s : Services) (ok : Bool) : Option Nat := if ok then some s.created.length else none

def Services.create (s : Services) (v : Service) (pcb : Option Nat) : Services :=
  match pcb with
  | some n => { s with created := (v, n) :: s.created }
  | none => s

def Services.remove (s : Services) (pcb : Option Nat) : Services :=
  match pcb with
  | some n => { s with removed := n :: s.removed }
  | none => s

/-- `DHCPS_Start(&netif)`. The block is cleared before the division. -/
def startDhcp (s : Services) (cfg : CfgParam) (ok : Bool) : Services × Int :=
  match dhcpsStart s.dhcp (netifOf cfg) (s.udpNew ok) with
  | none => ({ s with dhcp := .zero, halted := true }, 0)
  | some (srv, rc) =>
    ({ s.create .dhcp (s.udpNew ok) with
        dhcp := srv
        ticks := if ok then s.ticks + 1 else s.ticks }, rc)

def startDns (s : Services) (cfg : CfgParam) (ok : Bool) : Services × Int :=
  match dnssStart s.dns true cfg.ipCfg.ip (dnsNameOf cfg) (s.udpNew ok) with
  | (srv, rc) =>
    -- `udp_new` is not reached
    if (dnsNameOf cfg).chars.length > Dns.maxName then (s, rc)
    else ({ s.create .dns (s.udpNew ok) with dns := srv }, rc)

/-- `L2LinkUp` under the configuration `cfg`; `okDhcp` and `okDns` tell whether
`udp_new` succeeds. The branch of the DHCP client touches neither server and
returns 0. -/
def l2LinkUp (s : Services) (cfg : CfgParam) (okDhcp okDns : Bool) : Services × Int :=
  if cfg.wifiCfg.protocol = netModeSoftap then
    let (s, ret) := if cfg.bDhcpServer ≠ 0 then startDhcp s cfg okDhcp else (s, 0)
    if s.halted then (s, ret)
    else
      let (s, ret) := if cfg.bDnsServer ≠ 0 then startDns s cfg okDns else (s, ret)
      (s, if ret = 0 then 0 else -1)
  else (s, 0)

/-- `DHCPS_Stop`; `sys_untimeout` takes one pending timeout away. -/
def stopDhcp (s : Services) : Services :=
  let (srv, pcb) := dhcpsStop s.dhcp
  { s.remove pcb with dhcp := srv, ticks := s.ticks - 1 }

def stopDns (s : Services) : Services := s.remove (dnssStop s.dns)

def l2LinkDown (s : Services) (cfg : CfgParam) : Services :=
  if cfg.wifiCfg.protocol = netModeSoftap then
    let s := if cfg.bDhcpServer ≠ 0 then stopDhcp s else s
    if cfg.bDnsServer ≠ 0 then stopDns s else s
  else s

/-- A pending timeout runs `_DhcpTickHandle`, which sets the next one while the
server is enabled. -/
def tick (s : Services) (ap : Dhcp.Slot → UInt8) : Services :=
  if s.ticks = 0 then s
  else { s with
    dhcp := Dhcp.dhcpTickHandle s.dhcp ap
    ticks := if s.dhcp.enable then s.ticks else s.ticks - 1 }

inductive Event
  | linkUp (cfg : CfgParam) (okDhcp okDns : Bool)
  | linkDown (cfg : CfgParam)
  | tick (ap : Dhcp.Slot → UInt8)

def step (s : Services) (e : Event) : Services :=
  if s.halted then s
  else match e with
    | .linkUp cfg okDhcp okDns => (l2LinkUp s cfg okDhcp okDns).1
    | .linkDown cfg => l2LinkDown s cfg
    | .tick ap => tick s ap

/-! ## What a run has to keep -/

def Services.socket (s : Services) : Service → Option Nat
  | .dhcp => s.dhcp.socket
  | .dns => s.dns.socket

def Services.Open (s : Services) (v : Service) (n : Nat) : Prop := (v, n) ∈ s.created ∧ n ∉ s.removed

structure Balanced (s : Services) : Prop where
  removedOnce : s.removed.Nodup
  notLost : ∀ v n, s.Open v n → s.socket v = some n
  oneOpen : ∀ v n n', s.Open v n → s.Open v n' → n = n'
  oneTick : s.ticks ≤ 1

structure Quiet (s : Services) : Prop where
  noneOpen : ∀ v n, ¬s.Open v n
  noTick : s.ticks = 0

/-- The step from `s` keeps the books, and leaves nothing behind if it is a
link-down. -/
def Follows (s : Services) (e : Event) : Prop :=
  Balanced (step s e) ∧ ∀ cfg, e = .linkDown cfg → s.halted = false → Quiet (step s e)

/-! ## The condition on a step -/

def runsDhcp (cfg : CfgParam) : Prop := cfg.wifiCfg.protocol = netModeSoftap ∧ cfg.bDhcpServer ≠ 0

def runsDns (cfg : CfgParam) : Prop := cfg.wifiCfg.protocol = netModeSoftap ∧ cfg.bDnsServer ≠ 0

instance (cfg : CfgParam) : Decidable (runsDhcp cfg) := inferInstanceAs (Decidable (_ ∧ _))
instance (cfg : CfgParam) : Decidable (runsDns cfg) := inferInstanceAs (Decidable (_ ∧ _))

def Services.Holds (s : Services) (v : Service) : Prop := ∃ n, s.socket v = some n ∧ n ∉ s.removed

def Divides (cfg : CfgParam) : Prop := ~~~(Dhcp.htonl (netifOf cfg).netmask) = 0

instance (cfg : CfgParam) : Decidable (Divides cfg) := inferInstanceAs (Decidable (_ = _))

def startsDns (cfg : CfgParam) : Prop :=
  runsDns cfg ∧ (dnsNameOf cfg).chars.length ≤ Dns.maxName ∧ ¬(runsDhcp cfg ∧ Divides cfg)

/-- A link-up starts no server whose pcb is open. A link-down stops every server
whose pcb is open, and does not stop a DNS server whose field still names a
removed pcb. -/
def Keeps (s : Services) (e : Event) : Prop :=
  s.halted = false → match e with
    | .linkUp cfg _ _ => (runsDhcp cfg → ¬s.Holds .dhcp) ∧ (startsDns cfg → ¬s.Holds .dns)
    | .linkDown cfg =>
      (s.Holds .dhcp → runsDhcp cfg) ∧ (s.Holds .dns → runsDns cfg) ∧
        (runsDns cfg → ∀ n, s.dns.socket = some n → n ∉ s.removed)
    | .tick _ => True

end SerialNet.Link
