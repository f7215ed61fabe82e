import SerialNet.Lib.Run
import SerialNet.Param.AtCmd

/-!
# Who owns the broadcast sockets

The four commands that start and stop broadcasting, with the calls of
`lwip_socket` and `lwip_close` they make and the descriptors that are open
because of them. A start overwrites the descriptor field of its direction, a stop
closes what the field holds and leaves it there; the descriptors are owned along a
run exactly when both find the field as they need it.
-/

namespace SerialNet.Param

open Run
open Uart (SysEvt)

inductive Direction
  | tx | rx
  deriving DecidableEq

def Direction.other : Direction → Direction
  | tx => rx
  | rx => tx

def BroadcastSts.status (b : BroadcastSts) : Direction → UInt16
  | .tx => b.txStatus
  | .rx => b.rxStatus

def BroadcastSts.sockfd (b : BroadcastSts) : Direction → Int
  | .tx => b.txSockfd
  | .rx => b.rxSockfd

inductive BctCommand
  | start (d : Direction)
  | stop (d : Direction)

def BctCommand.request : BctCommand → Request
  | start .tx => .bcttxstart
  | start .rx => .bctrxstart
  | stop .tx => .bcttxstop
  | stop .rx => .bctrxstop

inductive SocketCall
  | opened (fd : Int)
  | closed (fd : Int)
  deriving DecidableEq

def reachesSocket (g : Globals) (argv : List (List UInt8)) : Bool :=
  argv.length == 2 && portOk (arg argv 1) && g.linked && g.broadcast.txStatus == 0 && g.broadcast.rxStatus == 0

/-- The calls on descriptors that a command makes. Only the transmitting start
closes its socket again when the next call on it fails. -/
def socketCalls (env : Env) (g : Globals) (argv : List (List UInt8)) : BctCommand → List SocketCall
  | .start d =>
    if reachesSocket g argv then
      if env.socket = -1 then []
      else match d with
        | .tx => if env.setsockoptOk then [.opened env.socket] else [.opened env.socket, .closed env.socket]
        | .rx => [.opened env.socket]
    else []
  | .stop d =>
    if argv.length = 1 then
      if 0 ≤ g.broadcast.sockfd d then [.closed (g.broadcast.sockfd d)] else []
    else []

/-- The settings, and the descriptors the commands have opened and not closed
since. -/
structure BctState where
  g : Globals
  opened : List Int

def BctState.init (g : Globals) : BctState := { g := g.setBroadcast ⟨0, 0, 0, 0, 0, 0, 0⟩, opened := [] }

def call (fds : List Int) : SocketCall → List Int
  | .opened fd => fd :: fds
  | .closed fd => fds.erase fd

/-- A command with its arguments, the state of the link, and what the outside calls
answer. -/
structure BctOp where
  cmd : BctCommand
  argv : List (List UInt8)
  link : SysEvt
  env : Env

def BctState.at (s : BctState) (link : SysEvt) : Globals := { s.g with linkStatus := link }

def BctState.calls (s : BctState) (op : BctOp) : List SocketCall :=
  socketCalls op.env (s.at op.link) op.argv op.cmd

def bctStep (s : BctState) (op : BctOp) : BctState where
  g := (respond op.env (s.at op.link) op.argv op.cmd.request).1
  opened := (s.calls op).foldl call s.opened

/-! ## What a run has to keep -/

/-- Each `lwip_close` is on a descriptor that is open at that time. -/
def ClosesOwn : List Int → List SocketCall → Prop
  | _, [] => True
  | fds, c :: cs => (∀ fd, c = .closed fd → fd ∈ fds) ∧ ClosesOwn (call fds c) cs

structure Owned (s : BctState) : Prop where
  held : ∀ fd ∈ s.opened, ∃ d, s.g.broadcast.sockfd d = fd ∧ s.g.broadcast.sockfd d.other ≠ fd
  active : ∀ d, s.g.broadcast.status d = 1 → s.g.broadcast.sockfd d ∈ s.opened
  notBoth : ¬(s.g.broadcast.txStatus ≠ 0 ∧ s.g.broadcast.rxStatus ≠ 0)

def OwnsStep (s : BctState) (op : BctOp) : Prop := ClosesOwn s.opened (s.calls op) ∧ Owned (bctStep s op)

/-- `socket` fails with -1 or returns a descriptor that is not open. -/
def FreshSocket (s : BctState) (op : BctOp) : Prop :=
  op.env.socket = -1 ∨ (0 ≤ op.env.socket ∧ op.env.socket ∉ s.opened)

def staysOpen (env : Env) (d : Direction) : Bool := env.socket != -1 && (d == .rx || env.setsockoptOk)

/-- A start that gets to `socket` finds no open descriptor in its field, and gets
none that the other field holds, unless it closes it again. A stop finds an open
descriptor in its field, or a negative number. -/
def KeepsField (s : BctState) (op : BctOp) : Prop :=
  match op.cmd with
  | .start d => reachesSocket (s.at op.link) op.argv = true →
      s.g.broadcast.sockfd d ∉ s.opened ∧ (staysOpen op.env d = true → op.env.socket ≠ s.g.broadcast.sockfd d.other)
  | .stop d => op.argv.length = 1 → s.g.broadcast.sockfd d < 0 ∨ s.g.broadcast.sockfd d ∈ s.opened

/-! ## The commands -/

section
variable {env : Env} {g : Globals} {argv : List (List UInt8)}

theorem Direction.other_other (d : Direction) : d.other.other = d := by
  cases d <;> rfl

theorem Direction.eq_or_other (d e : Direction) : e = d ∨ e = d.other := by
  cases d <;> cases e <;> decide

/-- The broadcast status a start leaves: unchanged before `socket`, then `opened`,
and `started` once the call on the socket has succeeded. -/
theorem bctStart_broadcast {other own : UInt16} {otherErr ownErr sockErr setErr : ErrorType} {set : Bool}
    {opened started : BroadcastSts} {done : String} (hown : reachesSocket g argv = true ↔
      argv.length = 2 ∧ portOk (arg argv 1) = true ∧ g.linked = true ∧ other = 0 ∧ own = 0) :
    (bctStart env g argv other own otherErr ownErr sockErr setErr set opened started done).1.broadcast =
      if reachesSocket g argv then if env.socket ≠ -1 ∧ set = true then started else opened else g.broadcast := by
  by_cases h : reachesSocket g argv = true
  · obtain ⟨hlen, hport, hlink, ho, hw⟩ := hown.mp h
    have hargs : ¬(argv.length ≠ 2 ∨ !portOk (arg argv 1)) := by simp [hlen, hport]
    rw [bctStart, if_neg hargs, if_neg (by simp [hlink]), if_neg (by simp [ho]), if_neg (by simp [hw]), if_pos h]
    by_cases hs : env.socket = -1
    · rw [if_pos hs, if_neg (fun hc => hc.1 hs)]
      rfl
    · cases set with
      | false =>
        rw [if_neg hs, if_pos (by decide), if_neg (fun hc => Bool.false_ne_true hc.2)]
        rfl
      | true =>
        rw [if_neg hs, if_neg (by decide), if_pos ⟨hs, rfl⟩]
        rfl
  · rw [if_neg h]
    unfold bctStart
    split
    · rfl
    split
    · rfl
    split
    · rfl
    split
    · rfl
    · rename_i hargs hlink ho hw
      refine absurd (hown.mpr ?_) h
      simp only [ne_eq, not_or, not_not, Bool.not_eq_true', Bool.not_eq_false] at hargs hlink ho hw
      exact ⟨hargs.1, hargs.2, hlink, ho, hw⟩

theorem reachesSocket_iff : reachesSocket g argv = true ↔ argv.length = 2 ∧ portOk (arg argv 1) = true ∧
    g.linked = true ∧ g.broadcast.txStatus = 0 ∧ g.broadcast.rxStatus = 0 := by
  simp only [reachesSocket, Bool.and_eq_true, beq_iff_eq, and_assoc]

theorem start_broadcast (d : Direction) :
    (respond env g argv (BctCommand.start d).request).1.broadcast = if reachesSocket g argv then
      match d with
      | .tx => { g.broadcast with
          txPort := (atoi (arg argv 1)).toUInt16
          txSockfd := env.socket
          txStatus := if env.socket ≠ -1 ∧ env.setsockoptOk = true then 1 else g.broadcast.txStatus }
      | .rx => { g.broadcast with
          rxPort := (atoi (arg argv 1)).toUInt16
          rxSockfd := env.socket
          rxStatus := if env.socket ≠ -1 ∧ env.bindOk = true then 1 else g.broadcast.rxStatus }
      else g.broadcast := by
  cases d with
  | tx =>
    refine (bctStart_broadcast (reachesSocket_iff.trans ?_)).trans ?_
    · rw [and_comm (a := g.broadcast.txStatus = 0)]
    · by_cases hc : env.socket ≠ -1 ∧ env.setsockoptOk = true
      · rw [if_pos hc, if_pos hc]
      · rw [if_neg hc, if_neg hc]
  | rx =>
    refine (bctStart_broadcast reachesSocket_iff).trans ?_
    by_cases hc : env.socket ≠ -1 ∧ env.bindOk = true
    · rw [if_pos hc, if_pos hc]
    · rw [if_neg hc, if_neg hc]

theorem start_reached (d : Direction) (h : reachesSocket g argv = true) :
    let b := (respond env g argv (BctCommand.start d).request).1.broadcast
    b.sockfd d = env.socket ∧ b.sockfd d.other = g.broadcast.sockfd d.other ∧ b.status d.other = 0 ∧
      (b.status d ≠ 0 → staysOpen env d = true) := by
  obtain ⟨_, _, _, htx, hrx⟩ := reachesSocket_iff.mp h
  dsimp only
  rw [start_broadcast, if_pos h]
  cases d with
  | tx =>
    refine ⟨rfl, rfl, hrx, fun hs => ?_⟩
    simp only [BroadcastSts.status, htx] at hs
    split at hs
    · rename_i hc
      simp [staysOpen, hc.1, hc.2]
    · exact absurd rfl hs
  | rx =>
    refine ⟨rfl, rfl, htx, fun hs => ?_⟩
    simp only [BroadcastSts.status, hrx] at hs
    split at hs
    · rename_i hc
      simp [staysOpen, hc.1]
    · exact absurd rfl hs

theorem start_refused (d : Direction) (h : ¬reachesSocket g argv = true) :
    (respond env g argv (BctCommand.start d).request).1.broadcast = g.broadcast := by
  rw [start_broadcast, if_neg h]

theorem stop_refused (d : Direction) (h : argv.length ≠ 1) :
    (respond env g argv (BctCommand.stop d).request).1.broadcast = g.broadcast := by
  cases d <;> simp [BctCommand.request, respond, responseBCTTXSTOP, responseBCTRXSTOP, bare, h, fail]

theorem stop_done (d : Direction) (h : argv.length = 1) :
    let b := (respond env g argv (BctCommand.stop d).request).1.broadcast
    (∀ e, b.sockfd e = g.broadcast.sockfd e) ∧ b.status d = 0 ∧ b.status d.other = g.broadcast.status d.other := by
  cases d
  all_goals
    simp only [BctCommand.request, respond, responseBCTTXSTOP, responseBCTRXSTOP, bare, h, ne_eq, not_true_eq_false,
      if_false]
    refine ⟨fun e => ?_, rfl, rfl⟩
    cases e <;> rfl

theorem start_calls (d : Direction) (h : reachesSocket g argv = true) :
    socketCalls env g argv (.start d) =
      if env.socket = -1 then [] else if staysOpen env d then [.opened env.socket]
      else [.opened env.socket, .closed env.socket] := by
  simp only [socketCalls, h, if_true]
  by_cases hs : env.socket = -1
  · rw [if_pos hs, if_pos hs]
  · rw [if_neg hs, if_neg hs]
    cases d with
    | tx => simp [staysOpen, hs]
    | rx => simp [staysOpen, hs]

end

/-! ## The open descriptors -/

section
variable {s : BctState} {op : BctOp} {d : Direction}

theorem bctStep_start_refused (hcmd : op.cmd = .start d) (h : ¬reachesSocket (s.at op.link) op.argv = true) :
    (bctStep s op).g.broadcast = s.g.broadcast ∧ s.calls op = [] := by
  refine ⟨?_, ?_⟩
  · show (respond op.env (s.at op.link) op.argv op.cmd.request).1.broadcast = s.g.broadcast
    rw [hcmd]
    exact start_refused d h
  · show socketCalls op.env (s.at op.link) op.argv op.cmd = []
    rw [hcmd]
    exact if_neg h

theorem bctStep_stop_refused (hcmd : op.cmd = .stop d) (h : ¬op.argv.length = 1) :
    (bctStep s op).g.broadcast = s.g.broadcast ∧ s.calls op = [] := by
  refine ⟨?_, ?_⟩
  · show (respond op.env (s.at op.link) op.argv op.cmd.request).1.broadcast = s.g.broadcast
    rw [hcmd]
    exact stop_refused d h
  · show socketCalls op.env (s.at op.link) op.argv op.cmd = []
    rw [hcmd]
    exact if_neg h

structure AfterStart (s : BctState) (env : Env) (d : Direction) (s' : BctState) : Prop where
  sockfd : s'.g.broadcast.sockfd d = env.socket
  sockfd_other : s'.g.broadcast.sockfd d.other = s.g.broadcast.sockfd d.other
  idle_other : s'.g.broadcast.status d.other = 0
  stays : s'.g.broadcast.status d ≠ 0 → staysOpen env d = true
  opened : s'.opened = if staysOpen env d then env.socket :: s.opened else s.opened

theorem bctStep_start (hcmd : op.cmd = .start d) (h : reachesSocket (s.at op.link) op.argv = true) :
    AfterStart s op.env d (bctStep s op) ∧ ClosesOwn s.opened (s.calls op) := by
  have hg : (bctStep s op).g = (respond op.env (s.at op.link) op.argv (BctCommand.start d).request).1 := by
    rw [← hcmd]
    rfl
  have hcalls : s.calls op = if op.env.socket = -1 then [] else if staysOpen op.env d then [.opened op.env.socket]
      else [.opened op.env.socket, .closed op.env.socket] := by
    rw [← start_calls d h, ← hcmd]
    rfl
  have hfds : (bctStep s op).opened = (s.calls op).foldl call s.opened := rfl
  obtain ⟨hfd, hother, hidle, hstays⟩ := @start_reached op.env _ _ d h
  rw [← hg] at hfd hother hidle hstays
  by_cases hs : op.env.socket = -1
  · have hst : staysOpen op.env d = false := by simp [staysOpen, hs]
    rw [if_pos hs] at hcalls
    refine ⟨⟨hfd, hother, hidle, hstays, ?_⟩, ?_⟩
    · rw [hfds, hcalls, hst]
      rfl
    · rw [hcalls]
      trivial
  · rw [if_neg hs] at hcalls
    cases hst : staysOpen op.env d with
    | true =>
      rw [hst, if_pos rfl] at hcalls
      refine ⟨⟨hfd, hother, hidle, hstays, ?_⟩, ?_⟩
      · rw [hfds, hcalls, hst]
        rfl
      · rw [hcalls]
        exact ⟨nofun, trivial⟩
    | false =>
      rw [hst, if_neg (by decide)] at hcalls
      refine ⟨⟨hfd, hother, hidle, hstays, ?_⟩, ?_⟩
      · rw [hfds, hcalls, hst]
        show (op.env.socket :: s.opened).erase op.env.socket = s.opened
        exact List.erase_cons_head ..
      · rw [hcalls]
        refine ⟨nofun, fun fd hfd => ?_, trivial⟩
        cases hfd
        exact List.mem_cons_self

structure AfterStop (s : BctState) (d : Direction) (s' : BctState) : Prop where
  sockfd : ∀ e, s'.g.broadcast.sockfd e = s.g.broadcast.sockfd e
  idle : s'.g.broadcast.status d = 0
  status_other : s'.g.broadcast.status d.other = s.g.broadcast.status d.other
  opened : s'.opened = if 0 ≤ s.g.broadcast.sockfd d then s.opened.erase (s.g.broadcast.sockfd d) else s.opened

theorem bctStep_stop (hcmd : op.cmd = .stop d) (h : op.argv.length = 1) :
    AfterStop s d (bctStep s op) ∧
      (ClosesOwn s.opened (s.calls op) ↔ s.g.broadcast.sockfd d < 0 ∨ s.g.broadcast.sockfd d ∈ s.opened) := by
  have hg : (bctStep s op).g = (respond op.env (s.at op.link) op.argv (BctCommand.stop d).request).1 := by
    rw [← hcmd]
    rfl
  have hcalls : s.calls op = if 0 ≤ s.g.broadcast.sockfd d then [.closed (s.g.broadcast.sockfd d)] else [] := by
    show socketCalls op.env (s.at op.link) op.argv op.cmd = _
    rw [hcmd]
    exact if_pos h
  have hfds : (bctStep s op).opened = (s.calls op).foldl call s.opened := rfl
  obtain ⟨hfd, hidle, hother⟩ := @stop_done op.env (s.at op.link) _ d h
  rw [← hg] at hfd hidle hother
  by_cases hpos : 0 ≤ s.g.broadcast.sockfd d
  · rw [if_pos hpos] at hcalls
    refine ⟨⟨hfd, hidle, hother, ?_⟩, ?_⟩
    · rw [hfds, hcalls, if_pos hpos]
      rfl
    · rw [hcalls]
      constructor
      · intro hc
        exact .inr (hc.1 _ rfl)
      · rintro (hneg | hmem)
        · omega
        · refine ⟨fun fd he => ?_, trivial⟩
          cases he
          exact hmem
  · rw [if_neg hpos] at hcalls
    refine ⟨⟨hfd, hidle, hother, ?_⟩, ?_⟩
    · rw [hfds, hcalls, if_neg hpos]
      rfl
    · rw [hcalls]
      exact iff_of_true trivial (.inl (by omega))

end

/-! ## The invariant of a run -/

structure BctInv (s : BctState) : Prop where
  nodup : s.opened.Nodup
  nonneg : ∀ fd ∈ s.opened, 0 ≤ fd
  held : ∀ fd ∈ s.opened, ∃ d, s.g.broadcast.sockfd d = fd ∧ s.g.broadcast.sockfd d.other ≠ fd
  active : ∀ d, s.g.broadcast.status d ≠ 0 → s.g.broadcast.sockfd d ∈ s.opened
  oneActive : ∀ d, s.g.broadcast.status d ≠ 0 → s.g.broadcast.status d.other = 0

theorem bctInv_init (g : Globals) : BctInv (BctState.init g) := by
  refine ⟨List.nodup_nil, nofun, nofun, fun d hd => ?_, fun d hd => ?_⟩
  · cases d <;> exact absurd rfl hd
  · cases d <;> exact absurd rfl hd

section
variable {s s' : BctState} {env : Env} {op : BctOp} {d : Direction}

theorem BctInv.owned (hi : BctInv s) : Owned s := by
  refine ⟨hi.held, fun d hd => hi.active d ?_, fun hb => hb.2 (hi.oneActive .tx hb.1)⟩
  rw [hd]
  decide

theorem BctInv.fields_ne (hi : BctInv s) (h : s.g.broadcast.sockfd d ∈ s.opened) :
    s.g.broadcast.sockfd d.other ≠ s.g.broadcast.sockfd d := by
  intro he
  obtain ⟨e, he₁, he₂⟩ := hi.held _ h
  rcases Direction.eq_or_other d e with rfl | rfl
  · exact he₂ he
  · rw [Direction.other_other] at he₂
    exact he₂ rfl

theorem BctInv.of_same (hi : BctInv s) (hb : s'.g.broadcast = s.g.broadcast) (ho : s'.opened = s.opened) :
    BctInv s' := by
  obtain ⟨h₁, h₂, h₃, h₄, h₅⟩ := hi
  refine ⟨?_, ?_, ?_, ?_, ?_⟩ <;> simpa only [hb, ho]

theorem BctInv.afterStart (hi : BctInv s) (h : AfterStart s env d s')
    (hfresh : env.socket = -1 ∨ (0 ≤ env.socket ∧ env.socket ∉ s.opened)) (hown : s.g.broadcast.sockfd d ∉ s.opened)
    (hother : staysOpen env d = true → env.socket ≠ s.g.broadcast.sockfd d.other) : BctInv s' := by
  have hst : staysOpen env d = true → env.socket ≠ -1 := by
    intro hs
    simp only [staysOpen, Bool.and_eq_true, bne_iff_ne] at hs
    exact hs.1
  have hmem : ∀ fd ∈ s'.opened, fd ∈ s.opened ∨ (staysOpen env d = true ∧ fd = env.socket) := by
    intro fd hfd
    rw [h.opened] at hfd
    split at hfd
    · exact (List.mem_cons.mp hfd).symm.imp id fun he => ⟨by assumption, he⟩
    · exact .inl hfd
  have hidle : ∀ e, s'.g.broadcast.status e ≠ 0 → e = d := by
    intro e he
    rcases Direction.eq_or_other d e with rfl | rfl
    · rfl
    · exact absurd h.idle_other he
  refine ⟨?_, ?_, ?_, ?_, ?_⟩
  · rw [h.opened]
    split
    · rename_i hs
      exact List.nodup_cons.mpr ⟨(hfresh.resolve_left (hst hs)).2, hi.nodup⟩
    · exact hi.nodup
  · intro fd hfd
    rcases hmem fd hfd with hfd | ⟨hs, rfl⟩
    · exact hi.nonneg fd hfd
    · exact (hfresh.resolve_left (hst hs)).1
  · intro fd hfd
    rcases hmem fd hfd with hfd | ⟨hs, rfl⟩
    · obtain ⟨e, he, _⟩ := hi.held fd hfd
      rcases Direction.eq_or_other d e with rfl | rfl
      · exact absurd (he ▸ hfd) hown
      · refine ⟨d.other, h.sockfd_other.trans he, ?_⟩
        rw [Direction.other_other, h.sockfd]
        rintro rfl
        rcases hfresh with hneg | ⟨_, hnot⟩
        · have := hi.nonneg _ hfd
          omega
        · exact hnot hfd
    · exact ⟨d, h.sockfd, fun he => hother hs (he.symm.trans h.sockfd_other)⟩
  · intro e he
    have hed := hidle e he
    subst hed
    rw [h.sockfd, h.opened, if_pos (h.stays he)]
    exact List.mem_cons_self
  · intro e he
    rw [hidle e he]
    exact h.idle_other

/-- A start that loses no descriptor, and stores none twice. -/
theorem AfterStart.keeps (h : AfterStart s env d s') (hi : BctInv s)
    (hfresh : env.socket = -1 ∨ (0 ≤ env.socket ∧ env.socket ∉ s.opened)) (ho : Owned s') :
    s.g.broadcast.sockfd d ∉ s.opened ∧ (staysOpen env d = true → env.socket ≠ s.g.broadcast.sockfd d.other) := by
  constructor
  · intro hmem
    have hmem' : s.g.broadcast.sockfd d ∈ s'.opened := by
      rw [h.opened]
      split
      · exact List.mem_cons_of_mem _ hmem
      · exact hmem
    obtain ⟨e, he, _⟩ := ho.held _ hmem'
    rcases Direction.eq_or_other d e with rfl | rfl
    · rw [h.sockfd] at he
      rcases hfresh with hneg | ⟨_, hnot⟩
      · have := hi.nonneg _ hmem
        omega
      · exact hnot (he ▸ hmem)
    · exact hi.fields_ne hmem (h.sockfd_other.symm.trans he)
  · intro hs he
    have hmem' : env.socket ∈ s'.opened := by
      rw [h.opened, if_pos hs]
      exact List.mem_cons_self
    have hother : s'.g.broadcast.sockfd d.other = env.socket := h.sockfd_other.trans he.symm
    obtain ⟨e, _, hne⟩ := ho.held _ hmem'
    rcases Direction.eq_or_other d e with rfl | rfl
    · exact hne hother
    · rw [Direction.other_other] at hne
      exact hne h.sockfd

theorem BctInv.afterStop (hi : BctInv s) (h : AfterStop s d s') : BctInv s' := by
  have hsub : ∀ fd ∈ s'.opened, fd ∈ s.opened := by
    intro fd hfd
    rw [h.opened] at hfd
    split at hfd
    · exact List.mem_of_mem_erase hfd
    · exact hfd
  have hstat : ∀ e, s'.g.broadcast.status e ≠ 0 → e = d.other ∧ s.g.broadcast.status d.other ≠ 0 := by
    intro e he
    rcases Direction.eq_or_other d e with rfl | rfl
    · exact absurd h.idle he
    · exact ⟨rfl, h.status_other ▸ he⟩
  refine ⟨?_, fun fd hfd => hi.nonneg fd (hsub fd hfd), fun fd hfd => ?_, fun e he => ?_, fun e he => ?_⟩
  · rw [h.opened]
    split
    · exact hi.nodup.erase _
    · exact hi.nodup
  · simp only [h.sockfd]
    exact hi.held fd (hsub fd hfd)
  · obtain ⟨rfl, hs⟩ := hstat e he
    have hact := hi.active _ hs
    have hne := hi.fields_ne hact
    rw [Direction.other_other] at hne
    rw [h.sockfd, h.opened]
    split
    · exact (List.mem_erase_of_ne hne.symm).mpr hact
    · exact hact
  · obtain ⟨rfl, _⟩ := hstat e he
    rw [Direction.other_other]
    exact h.idle

theorem bctInv_step (s : BctState) (op : BctOp) (hi : BctInv s) (hf : FreshSocket s op) (hk : KeepsField s op) :
    BctInv (bctStep s op) := by
  have hfds : (bctStep s op).opened = (s.calls op).foldl call s.opened := rfl
  unfold KeepsField at hk
  cases hcmd : op.cmd with
  | start d =>
    rw [hcmd] at hk
    by_cases h : reachesSocket (s.at op.link) op.argv = true
    · exact hi.afterStart (bctStep_start hcmd h).1 hf (hk h).1 (hk h).2
    · obtain ⟨hb, hc⟩ := bctStep_start_refused hcmd h
      exact hi.of_same hb (by rw [hfds, hc]; rfl)
  | stop d =>
    by_cases h : op.argv.length = 1
    · exact hi.afterStop (bctStep_stop hcmd h).1
    · obtain ⟨hb, hc⟩ := bctStep_stop_refused hcmd h
      exact hi.of_same hb (by rw [hfds, hc]; rfl)

theorem ownsStep_iff (s : BctState) (op : BctOp) (hi : BctInv s) (hf : FreshSocket s op) :
    OwnsStep s op ↔ KeepsField s op := by
  constructor
  · rintro ⟨hclose, howned⟩
    unfold KeepsField
    cases hcmd : op.cmd with
    | start d =>
      intro h
      exact (bctStep_start hcmd h).1.keeps hi hf howned
    | stop d => exact fun h => (bctStep_stop hcmd h).2.mp hclose
  · intro hk
    refine ⟨?_, (bctInv_step s op hi hf hk).owned⟩
    unfold KeepsField at hk
    cases hcmd : op.cmd with
    | start d =>
      by_cases h : reachesSocket (s.at op.link) op.argv = true
      · exact (bctStep_start hcmd h).2
      · rw [(bctStep_start_refused hcmd h).2]
        trivial
    | stop d =>
      rw [hcmd] at hk
      by_cases h : op.argv.length = 1
      · exact (bctStep_stop hcmd h).2.mpr (hk h)
      · rw [(bctStep_stop_refused hcmd h).2]
        trivial

end

/-- The descriptors are owned along a run exactly when every command finds its
fields as it needs them. -/
theorem broadcast_owned (g : Globals) (ops : List BctOp) (hfresh : Meets bctStep FreshSocket (BctState.init g) ops) :
    Meets bctStep OwnsStep (BctState.init g) ops ↔ Meets bctStep KeepsField (BctState.init g) ops :=
  meets_iff_of_inv_of_meets bctInv_step ownsStep_iff (bctInv_init g) ops hfresh

/-- A command with the argument `port`, the link being up and `socket` answering
`fd`. -/
def sampleOp (cmd : BctCommand) (args : List (List UInt8)) (fd : Int) : BctOp :=
  { cmd := cmd, argv := [] :: args, link := .linkUp, env := { sampleEnv with socket := fd } }

/-- Broadcasting on port 80 is started on the descriptor 1, and stopped. -/
def sampleOps : List BctOp := [sampleOp (.start .tx) [[56, 48]] 1, sampleOp (.stop .tx) [] 0]

theorem broadcast_owned_sample :
    Meets bctStep FreshSocket (BctState.init (Globals.factory sampleEnv)) sampleOps ∧
      (Meets bctStep OwnsStep (BctState.init (Globals.factory sampleEnv)) sampleOps ↔
        Meets bctStep KeepsField (BctState.init (Globals.factory sampleEnv)) sampleOps) := by
  have hfresh : Meets bctStep FreshSocket (BctState.init (Globals.factory sampleEnv)) sampleOps :=
    ⟨.inr ⟨by decide, nofun⟩, .inr ⟨by decide, by decide⟩, trivial⟩
  exact ⟨hfresh, broadcast_owned (Globals.factory sampleEnv) sampleOps hfresh⟩

/-- A stop before any start closes descriptor 0; a second stop closes the
descriptor of the first again. -/
theorem stop_closes_foreign :
    ¬Meets bctStep OwnsStep (BctState.init (Globals.factory sampleEnv)) [sampleOp (.stop .tx) [] 0] ∧
      ¬Meets bctStep OwnsStep (BctState.init (Globals.factory sampleEnv))
        (sampleOps ++ [sampleOp (.stop .tx) [] 0]) := by
  constructor
  · intro h
    exact absurd (h.1.1.1 0 rfl) (by decide)
  · intro h
    exact absurd (h.2.2.1.1.1 1 (by decide)) (by decide)

end SerialNet.Param
