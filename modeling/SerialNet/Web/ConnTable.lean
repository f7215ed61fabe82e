import Mathlib.Data.List.Nodup
import SerialNet.Lib.Run
import SerialNet.Web.Server

/-!
# The connection table

Between two calls of `select` every entry's transfer has ended, so whenever the
server closes connections it closes all of them; the live entries therefore stand
at the front of the table and no descriptor is lost or closed twice. The first
argument of `select` is taken from the last descriptor accepted, and covers the
others exactly when that one is not too small.
-/

namespace SerialNet.Web

open Run

/-! ## What a select relies on -/

def liveCount (t : Nat → Entry) : Nat := (List.range tcpEntries).countP fun i => decide (0 ≤ (t i).sockFd)

def holders (t : Nat → Entry) (fd : Int) : Nat := (List.range tcpEntries).countP fun i => decide ((t i).sockFd = fd)

/-- The table, the counter and the accepted descriptors agree. -/
structure TableOk (s : Server) : Prop where
  front : ∀ i < tcpEntries, 0 ≤ (s.httpTable i).sockFd ↔ (i : Int) < s.connAmount
  amount : s.connAmount = liveCount s.httpTable
  once : ∀ fd ∈ s.live, holders s.httpTable fd = 1
  liveOnce : s.live.Nodup
  closedOnce : s.wrongClose = false
  notOverwritten : s.overwrote = false

/-- The first argument of `select` exceeds every descriptor that it is to watch. -/
structure SelectCovers (s : Server) : Prop where
  listening : s.sockFd < s.maxsock + 1
  table : ∀ i < tcpEntries, 0 ≤ (s.httpTable i).sockFd → (s.httpTable i).sockFd < s.maxsock + 1

/-- A step comes back to `select`, and the sockets it gets are fresh descriptors. -/
def CameBack (s : Server) (o : Outcome) : Prop :=
  (serve s o).isSome = true ∧ match o with
    | .timeout _ next => 0 ≤ next ∧ next < memNumNetconn
    | .ready bits recv accept => ∀ s', atAccept s bits recv = some s' → 0 ≤ accept →
        accept < memNumNetconn ∧ accept ≠ s.sockFd ∧ accept ∉ (makeRoom s').live

def step (s : Server) (o : Outcome) : Server := (serve s o).getD s

/-- Some ready connection has failed, which closes all of them. -/
def someFailed (s : Server) (bits : Nat → Bool) (recv : Nat → Recv) : Prop :=
  ∃ i < tcpEntries, (i : Int) < s.connAmount ∧ selected s bits (fdBit (s.httpTable i).sockFd) = true ∧ recv i = .failed

/-- A descriptor that is stored is not more than one below the listening one, nor
below any that stays in the table. -/
def CoversAll (s : Server) : Outcome → Prop
  | .timeout _ _ => True
  | .ready bits recv accept => selected s bits (fdBit s.sockFd) = true → 0 ≤ accept →
      s.sockFd ≤ accept + 1 ∧
        (someFailed s bits recv ∨ (tcpEntries : Int) ≤ s.connAmount ∨
          ∀ i < tcpEntries, (s.httpTable i).sockFd ≤ accept + 1)

/-! ## http_engine leaves a transfer ended -/

theorem sendPieces_end {dynamic : Bool} {header flen fpos len : UInt32} {pieces : List UInt32} {p : UInt32 × UInt32}
    (h : sendPieces dynamic header flen fpos len pieces = some p) : p.2 = 0 := by
  induction pieces generalizing fpos len with
  | nil => cases h
  | cons i rest ih =>
    rw [sendPieces] at h
    generalize (if dynamic = true then header else len) + i = len' at h
    split at h
    · rename_i h0
      cases h
      exact h0
    · split at h
      · exact ih h
      · cases h
        rfl

/-- A transfer that comes back has sent its last piece, whatever the type. -/
theorem sendBody_closed {e e' : Entry} {header len : UInt32} {pieces : List UInt32} (hflen : e.flen ≠ 0)
    (hlen : e.ftype = .unknown → len = 0) (h : sendBody e header len pieces = some e') :
    e'.status = .closed ∧ e'.sockFd = e.sockFd := by
  rw [sendBody, if_neg hflen] at h
  obtain ⟨p, hp, rfl⟩ := Option.map_eq_some_iff.mp h
  have h0 : p.2 = 0 := by
    split at hp
    · exact sendPieces_end hp
    · exact sendPieces_end hp
    · rename_i ht
      cases hp
      exact hlen ht
    · exact sendPieces_end hp
  dsimp only
  rw [if_pos (.inr h0)]
  exact ⟨rfl, rfl⟩

theorem httpSendfile_closed {e e' : Entry} {header : UInt32} {f : File} (h : httpSendfile e header f = some e') :
    e'.status = .closed ∧ e'.sockFd = e.sockFd := by
  unfold httpSendfile at h
  dsimp only at h
  split at h
  · cases h
    exact ⟨rfl, rfl⟩
  · rename_i hflen
    refine sendBody_closed (e := { e with status := .send, ftype := f.ftype, flen := f.flen, fpos := 0 }) hflen ?_ h
    intro ht
    have ht' : f.ftype = .unknown := ht
    rw [ht']
    rfl

theorem httpEngine_closed {e e' : Entry} {act : Action} (hs : e.status = .closed)
    (h : httpEngine e act = some e') : e'.status = .closed ∧ e'.sockFd = e.sockFd := by
  unfold httpEngine at h
  rw [hs] at h
  cases act with
  | answer =>
    cases h
    exact ⟨hs, rfl⟩
  | sendfile header f => exact httpSendfile_closed h
  | reset => cases h

/-! ## Counting entries -/

theorem countP_update {t : Nat → Entry} {l : List Nat} (hl : l.Nodup) {i : Nat} (hi : i ∈ l) (e : Entry)
    (p : Entry → Bool) :
    l.countP (fun k => p (Function.update t i e k)) + (p (t i)).toNat = l.countP (fun k => p (t k)) + (p e).toNat := by
  induction l with
  | nil => cases hi
  | cons j l ih =>
    obtain ⟨hj, hl⟩ := List.nodup_cons.mp hl
    rw [List.countP_cons, List.countP_cons]
    rcases List.mem_cons.mp hi with rfl | hi
    · have hsame : l.countP (fun k => p (Function.update t i e k)) = l.countP (fun k => p (t k)) := by
        refine List.countP_congr fun k hk => ?_
        have hki : k ≠ i := fun he => hj (he ▸ hk)
        rw [Function.update_of_ne hki]
      rw [hsame, Function.update_self]
      cases p (t i) <;> cases p e <;> simp
    · have hji : j ≠ i := fun he => hj (he ▸ hi)
      have := ih hl hi
      rw [Function.update_of_ne hji]
      omega

/-- Closing an entry: one live entry less, and none that holds its descriptor. -/
theorem liveCount_drop {t : Nat → Entry} {i : Nat} (hi : i < tcpEntries) (hfd : 0 ≤ (t i).sockFd) :
    liveCount (Function.update t i { t i with sockFd := -1 }) + 1 = liveCount t := by
  have h := countP_update (t := t) (List.nodup_range (n := tcpEntries)) (List.mem_range.mpr hi)
    { t i with sockFd := -1 } fun e => decide (0 ≤ e.sockFd)
  simpa [hfd, liveCount] using h

theorem holders_drop {t : Nat → Entry} {i : Nat} (hi : i < tcpEntries) {fd : Int} (hfd : 0 ≤ fd) :
    holders (Function.update t i { t i with sockFd := -1 }) fd + (decide ((t i).sockFd = fd)).toNat = holders t fd := by
  have h := countP_update (t := t) (List.nodup_range (n := tcpEntries)) (List.mem_range.mpr hi)
    { t i with sockFd := -1 } fun e => decide (e.sockFd = fd)
  have hne : ¬(-1 : Int) = fd := by omega
  simpa [hne, holders] using h

/-! ## Closing connections -/

/-- The books hold at any time, wherever the live entries stand. -/
structure Core (s : Server) : Prop where
  amount : s.connAmount = liveCount s.httpTable
  live : ∀ fd, 0 ≤ fd → s.live.count fd = holders s.httpTable fd
  nonneg : ∀ fd ∈ s.live, 0 ≤ fd
  liveOnce : s.live.Nodup
  closedOnce : s.wrongClose = false
  notOverwritten : s.overwrote = false

def AllClosed (s : Server) : Prop := ∀ i < tcpEntries, (s.httpTable i).status = .closed

/-- `s'` is `s` with some entries closed; the bit of the listening socket is left. -/
structure Cleared (s s' : Server) : Prop where
  core : Core s'
  closed : AllClosed s'
  fdOf : ∀ i, (s'.httpTable i).sockFd = (s.httpTable i).sockFd ∨ (s'.httpTable i).sockFd < 0
  sockFd : s'.sockFd = s.sockFd
  maxsock : s'.maxsock = s.maxsock
  listening : 0 ≤ s.sockFd → (∀ i < tcpEntries, (s.httpTable i).sockFd ≠ s.sockFd) →
    s'.isSet s.sockFd = s.isSet s.sockFd

section
variable {s s' s'' : Server} {i : Nat}

theorem Cleared.refl (hc : Core s) (ha : AllClosed s) : Cleared s s :=
  ⟨hc, ha, fun _ => .inl rfl, rfl, rfl, fun _ _ => rfl⟩

theorem Cleared.trans (h : Cleared s s') (h' : Cleared s' s'') : Cleared s s'' := by
  refine ⟨h'.core, h'.closed, fun i => ?_, h'.sockFd.trans h.sockFd, h'.maxsock.trans h.maxsock, fun hpos hne => ?_⟩
  · rcases h'.fdOf i with he | hneg
    · rw [he]
      exact h.fdOf i
    · exact .inr hneg
  · have hne' : ∀ i < tcpEntries, (s'.httpTable i).sockFd ≠ s'.sockFd := by
      intro i hi
      rw [h.sockFd]
      rcases h.fdOf i with he | hneg
      · rw [he]
        exact hne i hi
      · omega
    rw [← h.listening hpos hne, ← h.sockFd]
    exact h'.listening (h.sockFd ▸ hpos) hne'

theorem Cleared.dead (h : Cleared s s') (hi : (s.httpTable i).sockFd < 0) : (s'.httpTable i).sockFd < 0 := by
  rcases h.fdOf i with he | hneg
  · rw [he]
    exact hi
  · exact hneg

theorem Core.mem_live (hc : Core s) (hi : i < tcpEntries) (hfd : 0 ≤ (s.httpTable i).sockFd) :
    (s.httpTable i).sockFd ∈ s.live := by
  have h := holders_drop (t := s.httpTable) hi hfd
  rw [decide_eq_true rfl, Bool.toNat_true, ← hc.live _ hfd] at h
  exact List.count_pos_iff.mp (by omega)

theorem Core.drop (hc : Core s) (hi : i < tcpEntries) (hfd : 0 ≤ (s.httpTable i).sockFd) : Core (s.drop i) := by
  have hmem := hc.mem_live hi hfd
  refine ⟨?_, fun fd hpos => ?_, fun fd h => hc.nonneg fd (List.mem_of_mem_erase h), hc.liveOnce.erase _, ?_,
    hc.notOverwritten⟩
  · have h := liveCount_drop hi hfd
    have ha := hc.amount
    show s.connAmount - 1 = _
    rw [show (s.drop i).httpTable = Function.update s.httpTable i { s.httpTable i with sockFd := -1 } from rfl]
    omega
  · have h := holders_drop (t := s.httpTable) hi hpos
    have hl := hc.live fd hpos
    show (s.live.erase (s.httpTable i).sockFd).count fd = _
    rw [show (s.drop i).httpTable = Function.update s.httpTable i { s.httpTable i with sockFd := -1 } from rfl]
    by_cases he : (s.httpTable i).sockFd = fd
    · rw [decide_eq_true he, Bool.toNat_true] at h
      rw [he, List.count_erase_self]
      omega
    · rw [decide_eq_false he, Bool.toNat_false] at h
      rw [List.count_erase_of_ne (fun h => he h.symm)]
      omega
  · show (s.wrongClose || decide ((s.httpTable i).sockFd ∉ s.live)) = false
    rw [hc.closedOnce]
    simpa using hmem

theorem drop_cleared (hc : Core s) (ha : AllClosed s) (hi : i < tcpEntries) (hfd : 0 ≤ (s.httpTable i).sockFd) :
    Cleared s (s.drop i) ∧ ((s.drop i).httpTable i).sockFd < 0 := by
  have htable : (s.drop i).httpTable = Function.update s.httpTable i { s.httpTable i with sockFd := -1 } := rfl
  refine ⟨⟨hc.drop hi hfd, fun j hj => ?_, fun j => ?_, rfl, rfl, fun hpos hne => ?_⟩, ?_⟩
  · rw [htable, Function.update_apply]
    split
    · exact ha i hi
    · exact ha j hj
  · rw [htable, Function.update_apply]
    split
    · exact .inr (show (-1 : Int) < 0 by decide)
    · exact .inl rfl
  · have hne' := hne i hi
    have hbit : fdBit s.sockFd ≠ fdBit (s.httpTable i).sockFd := by
      unfold fdBit
      rw [if_neg (by omega), if_neg (by omega)]
      omega
    exact Function.update_of_ne hbit _ _
  · rw [htable, Function.update_self]
    show (-1 : Int) < 0
    decide

theorem setStatus_cleared (hc : Core s) (ha : AllClosed s) (i : Nat) : Cleared s (s.setStatus i .closed) := by
  have hfd : ∀ j, ((s.setStatus i .closed).httpTable j).sockFd = (s.httpTable j).sockFd := by
    intro j
    show (Function.update s.httpTable i _ j).sockFd = _
    rw [Function.update_apply]
    split
    · rename_i he
      rw [he]
    · rfl
  refine ⟨⟨?_, fun fd hpos => ?_, hc.nonneg, hc.liveOnce, hc.closedOnce, hc.notOverwritten⟩, fun j hj => ?_,
    fun j => .inl (hfd j), rfl, rfl, fun _ _ => rfl⟩
  · refine hc.amount.trans ?_
    simp only [liveCount, hfd]
  · refine (hc.live fd hpos).trans ?_
    simp only [holders, hfd]
  · show (Function.update s.httpTable i _ j).status = _
    rw [Function.update_apply]
    split
    · rfl
    · exact ha j hj

/-- A loop over entries whose every turn leaves its entry closed. -/
theorem foldl_cleared {f : Server → Nat → Server}
    (hf : ∀ s i, i < tcpEntries → Core s → AllClosed s → Cleared s (f s i) ∧ ((f s i).httpTable i).sockFd < 0)
    (l : List Nat) (hl : ∀ i ∈ l, i < tcpEntries) (hc : Core s) (ha : AllClosed s) :
    Cleared s (l.foldl f s) ∧ ∀ i ∈ l, ((l.foldl f s).httpTable i).sockFd < 0 := by
  induction l generalizing s with
  | nil => exact ⟨.refl hc ha, nofun⟩
  | cons i l ih =>
    obtain ⟨hi, hl⟩ := List.forall_mem_cons.mp hl
    obtain ⟨h₁, hd⟩ := hf s i hi hc ha
    obtain ⟨h₂, hdl⟩ := ih hl h₁.core h₁.closed
    refine ⟨h₁.trans h₂, fun j hj => ?_⟩
    rcases List.mem_cons.mp hj with rfl | hj
    · exact h₂.dead hd
    · exact hdl j hj

structure Drained (s s' : Server) : Prop where
  cleared : Cleared s s'
  dead : ∀ i < tcpEntries, (s'.httpTable i).sockFd < 0

theorem sweepClosed_drained (hc : Core s) (ha : AllClosed s) : Drained s (sweepClosed s) := by
  have h := foldl_cleared (s := s) (f := fun s i =>
    if 0 ≤ (s.httpTable i).sockFd ∧ (s.httpTable i).status = .closed then s.drop i else s)
    (fun s i hi hc ha => ?_) (List.range tcpEntries) (fun i hi => List.mem_range.mp hi) hc ha
  · exact ⟨h.1, fun i hi => h.2 i (List.mem_range.mpr hi)⟩
  · by_cases hfd : 0 ≤ (s.httpTable i).sockFd
    · rw [if_pos ⟨hfd, ha i hi⟩]
      exact drop_cleared hc ha hi hfd
    · rw [if_neg fun h => hfd h.1]
      exact ⟨.refl hc ha, by omega⟩

theorem sweepAll_drained (hc : Core s) (ha : AllClosed s) : Drained s (sweepAll s) := by
  have h := foldl_cleared (s := s) (f := fun s i =>
    if 0 ≤ (s.httpTable i).sockFd then (s.setStatus i .closed).drop i else s)
    (fun s i hi hc ha => ?_) (List.range tcpEntries) (fun i hi => List.mem_range.mp hi) hc ha
  · exact ⟨h.1, fun i hi => h.2 i (List.mem_range.mpr hi)⟩
  · by_cases hfd : 0 ≤ (s.httpTable i).sockFd
    · rw [if_pos hfd]
      have hset := setStatus_cleared hc ha i
      have hfd' : 0 ≤ ((s.setStatus i .closed).httpTable i).sockFd := by
        show 0 ≤ (Function.update s.httpTable i _ i).sockFd
        rw [Function.update_self]
        exact hfd
      obtain ⟨hdrop, hdead⟩ := drop_cleared hset.core hset.closed hi hfd'
      exact ⟨hset.trans hdrop, hdead⟩
    · rw [if_neg hfd]
      exact ⟨.refl hc ha, by omega⟩

theorem recvFailed_drained (hc : Core s) (ha : AllClosed s) (hi : i < tcpEntries) : Drained s (recvFailed s i) := by
  have hset := setStatus_cleared hc ha i
  have hmid : Cleared s (if 0 ≤ ((s.setStatus i .closed).httpTable i).sockFd then (s.setStatus i .closed).drop i
      else s.setStatus i .closed) := by
    split
    · rename_i hfd
      exact hset.trans (drop_cleared hset.core hset.closed hi hfd).1
    · exact hset
  have hsweep := sweepClosed_drained hmid.core hmid.closed
  exact ⟨hmid.trans hsweep.cleared, hsweep.dead⟩

theorem Drained.empty (h : Drained s s') : s'.connAmount = 0 ∧ s'.live = [] := by
  have hc := h.cleared.core
  have hzero : liveCount s'.httpTable = 0 := by
    rw [liveCount, List.countP_eq_zero]
    intro i hi
    have := h.dead i (List.mem_range.mp hi)
    simpa using this
  refine ⟨by rw [hc.amount, hzero]; rfl, ?_⟩
  refine List.eq_nil_iff_forall_not_mem.mpr fun fd hfd => ?_
  have hpos := hc.nonneg fd hfd
  have hnone : holders s'.httpTable fd = 0 := by
    rw [holders, List.countP_eq_zero]
    intro i hi
    have := h.dead i (List.mem_range.mp hi)
    simp only [decide_eq_true_eq]
    omega
  have hcount := hc.live fd hpos
  rw [hnone] at hcount
  exact List.count_eq_zero.mp hcount hfd

end

/-! ## Receiving -/

structure Kept (s s' : Server) : Prop where
  fdOf : ∀ i, (s'.httpTable i).sockFd = (s.httpTable i).sockFd
  closed : AllClosed s'
  connAmount : s'.connAmount = s.connAmount
  live : s'.live = s.live
  sockFd : s'.sockFd = s.sockFd
  maxsock : s'.maxsock = s.maxsock
  fdsr : s'.fdsr = s.fdsr
  wrongClose : s'.wrongClose = s.wrongClose
  overwrote : s'.overwrote = s.overwrote

section
variable {s s' s'' : Server} {recv : Nat → Recv}

theorem Kept.refl (ha : AllClosed s) : Kept s s := ⟨fun _ => rfl, ha, rfl, rfl, rfl, rfl, rfl, rfl, rfl⟩

theorem Kept.core (h : Kept s s') (hc : Core s) : Core s' := by
  refine ⟨?_, fun fd hpos => ?_, ?_, ?_, ?_, ?_⟩
  · rw [h.connAmount, hc.amount]
    simp only [liveCount, h.fdOf]
  · rw [h.live, hc.live fd hpos]
    simp only [holders, h.fdOf]
  · rw [h.live]
    exact hc.nonneg
  · rw [h.live]
    exact hc.liveOnce
  · rw [h.wrongClose]
    exact hc.closedOnce
  · rw [h.overwrote]
    exact hc.notOverwritten

theorem Kept.cleared (h : Kept s s') (hc : Core s) : Cleared s s' := by
  refine ⟨h.core hc, h.closed, fun i => .inl (h.fdOf i), h.sockFd, h.maxsock, fun _ _ => ?_⟩
  rw [Server.isSet, Server.isSet, h.fdsr]

theorem Kept.trans (h : Kept s s') (h' : Kept s' s'') : Kept s s'' :=
  ⟨fun i => (h'.fdOf i).trans (h.fdOf i), h'.closed, h'.connAmount.trans h.connAmount, h'.live.trans h.live,
    h'.sockFd.trans h.sockFd, h'.maxsock.trans h.maxsock, h'.fdsr.trans h.fdsr, h'.wrongClose.trans h.wrongClose,
    h'.overwrote.trans h.overwrote⟩

def FailsIn (s : Server) (recv : Nat → Recv) (l : List Nat) : Prop :=
  ∃ i ∈ l, (i : Int) < s.connAmount ∧ s.isSet (s.httpTable i).sockFd = true ∧ recv i = .failed

theorem Kept.failsIn (h : Kept s s') (l : List Nat) : FailsIn s' recv l ↔ FailsIn s recv l := by
  unfold FailsIn Server.isSet
  simp only [h.fdOf, h.connAmount, h.fdsr]

theorem kept_engine (ha : AllClosed s) {i : Nat} (hi : i < tcpEntries) {act : Action} {e : Entry}
    (he : httpEngine (s.httpTable i) act = some e) :
    Kept s { s with httpTable := Function.update s.httpTable i e } := by
  obtain ⟨hst, hfd⟩ := httpEngine_closed (ha i hi) he
  refine ⟨fun j => ?_, fun j hj => ?_, rfl, rfl, rfl, rfl, rfl, rfl, rfl⟩
  · show (Function.update s.httpTable i e j).sockFd = _
    rw [Function.update_apply]
    split
    · rename_i hji
      rw [hji, hfd]
    · rfl
  · show (Function.update s.httpTable i e j).status = _
    rw [Function.update_apply]
    split
    · exact hst
    · exact ha j hj

/-- The receive loop keeps all connections, or closes all of them. -/
theorem recvLoop_cases (l : List Nat) (hl : ∀ i ∈ l, i < tcpEntries) (hsort : l.Pairwise (· < ·)) (hc : Core s)
    (ha : AllClosed s) (h : recvLoop recv l s = some s') :
    (Kept s s' ∧ ¬FailsIn s recv l) ∨ (Drained s s' ∧ FailsIn s recv l) := by
  induction l generalizing s with
  | nil =>
    cases h
    exact .inl ⟨.refl ha, nofun⟩
  | cons i l ih =>
    obtain ⟨hi, hl⟩ := List.forall_mem_cons.mp hl
    obtain ⟨hlt, hsort⟩ := List.pairwise_cons.mp hsort
    rw [recvLoop] at h
    by_cases hend : s.connAmount ≤ i
    · rw [if_pos hend] at h
      cases h
      refine .inl ⟨.refl ha, ?_⟩
      rintro ⟨j, hj, hj', _⟩
      rcases List.mem_cons.mp hj with rfl | hj
      · omega
      · have := hlt j hj
        omega
    · rw [if_neg hend] at h
      by_cases hset : s.isSet (s.httpTable i).sockFd = true
      · rw [if_pos hset] at h
        cases hr : recv i with
        | failed =>
          rw [hr] at h
          cases h
          exact .inr ⟨recvFailed_drained hc ha hi, i, List.mem_cons_self, by omega, hset, hr⟩
        | data act =>
          rw [hr] at h
          obtain ⟨e, he, h⟩ := Option.bind_eq_some_iff.mp h
          have hk := kept_engine ha hi he
          have hfail : FailsIn s recv (i :: l) ↔ FailsIn s recv l := by
            constructor
            · rintro ⟨j, hj, h₁, h₂, h₃⟩
              rcases List.mem_cons.mp hj with rfl | hj
              · rw [hr] at h₃
                cases h₃
              · exact ⟨j, hj, h₁, h₂, h₃⟩
            · rintro ⟨j, hj, hrest⟩
              exact ⟨j, List.mem_cons_of_mem _ hj, hrest⟩
          rw [hfail, ← hk.failsIn l]
          rcases ih hl hsort (hk.core hc) hk.closed h with ⟨hk', hno⟩ | ⟨hd, hyes⟩
          · exact .inl ⟨hk.trans hk', hno⟩
          · exact .inr ⟨⟨(hk.cleared hc).trans hd.cleared, hd.dead⟩, hyes⟩
      · rw [if_neg hset] at h
        have hfail : FailsIn s recv (i :: l) ↔ FailsIn s recv l := by
          constructor
          · rintro ⟨j, hj, h₁, h₂, h₃⟩
            rcases List.mem_cons.mp hj with rfl | hj
            · exact absurd h₂ hset
            · exact ⟨j, hj, h₁, h₂, h₃⟩
          · rintro ⟨j, hj, hrest⟩
            exact ⟨j, List.mem_cons_of_mem _ hj, hrest⟩
        rw [hfail]
        exact ih hl hsort hc ha h

end

/-! ## The invariant -/

structure Inv (s : Server) : Prop where
  core : Core s
  closed : AllClosed s
  front : ∀ i < tcpEntries, 0 ≤ (s.httpTable i).sockFd ↔ (i : Int) < s.connAmount
  listening : 0 ≤ s.sockFd
  notListening : s.sockFd ∉ s.live

theorem Inv.tableOk {s : Server} (hi : Inv s) : TableOk s := by
  refine ⟨hi.front, hi.core.amount, fun fd hfd => ?_, hi.core.liveOnce, hi.core.closedOnce, hi.core.notOverwritten⟩
  rw [← hi.core.live fd (hi.core.nonneg fd hfd)]
  exact List.count_eq_one_of_mem hi.core.liveOnce hfd

theorem inv_start {s : Server} (hlive : s.live = []) (hw : s.wrongClose = false) (ho : s.overwrote = false) {fd : Int}
    (hfd : 0 ≤ fd) : Inv (startServer s fd) := by
  have hdead : ∀ i < tcpEntries, ((startServer s fd).httpTable i).sockFd = -1 := by
    intro i hi
    show (if i < tcpEntries then _ else _ : Entry).sockFd = -1
    rw [if_pos hi]
  have hlive' : (startServer s fd).live = [] := hlive
  refine ⟨⟨?_, fun g hg => ?_, ?_, ?_, hw, ho⟩, fun i hi => ?_, fun i hi => ?_, hfd, ?_⟩
  · have hzero : liveCount (startServer s fd).httpTable = 0 := by
      rw [liveCount, List.countP_eq_zero]
      intro i hi
      simp [hdead i (List.mem_range.mp hi)]
    rw [hzero]
    rfl
  · have hzero : holders (startServer s fd).httpTable g = 0 := by
      rw [holders, List.countP_eq_zero]
      intro i hi
      rw [hdead i (List.mem_range.mp hi), decide_eq_true_eq]
      omega
    rw [hlive', hzero]
    rfl
  · rw [hlive']
    nofun
  · rw [hlive']
    exact List.nodup_nil
  · show (if i < tcpEntries then _ else _ : Entry).status = .closed
    rw [if_pos hi]
  · rw [hdead i hi]
    show (0 : Int) ≤ -1 ↔ (i : Int) < 0
    omega
  · rw [hlive']
    nofun

theorem inv_boot {fd : Int} (hfd : 0 ≤ fd) : Inv (Server.boot fd) := inv_start rfl rfl rfl hfd

section
variable {s s' : Server}

theorem Inv.fd_ne_listening (hi : Inv s) (i : Nat) (h : i < tcpEntries) : (s.httpTable i).sockFd ≠ s.sockFd := by
  intro he
  have hpos := hi.listening
  exact hi.notListening (he ▸ hi.core.mem_live h (he ▸ hpos))

theorem Drained.inv (h : Drained s s') (hi : Inv s) : Inv s' := by
  obtain ⟨hconn, hlive⟩ := h.empty
  refine ⟨h.cleared.core, h.cleared.closed, fun i hlt => ?_, ?_, ?_⟩
  · have := h.dead i hlt
    rw [hconn]
    omega
  · rw [h.cleared.sockFd]
    exact hi.listening
  · rw [hlive]
    nofun

theorem Kept.inv (h : Kept s s') (hi : Inv s) : Inv s' := by
  refine ⟨h.core hi.core, h.closed, fun i hlt => ?_, ?_, ?_⟩
  · rw [h.fdOf, h.connAmount]
    exact hi.front i hlt
  · rw [h.sockFd]
    exact hi.listening
  · rw [h.sockFd, h.live]
    exact hi.notListening

theorem Cleared.covers (h : Cleared s s') (hs : SelectCovers s) : SelectCovers s' := by
  refine ⟨?_, fun i hlt hfd => ?_⟩
  · rw [h.sockFd, h.maxsock]
    exact hs.listening
  · rw [h.maxsock]
    rcases h.fdOf i with he | hneg
    · rw [he] at hfd ⊢
      exact hs.table i hlt hfd
    · omega

/-- Making room leaves the table as it is, or empty. -/
theorem makeRoom_cases (hi : Inv s) :
    (makeRoom s = s ∧ s.connAmount < (tcpEntries : Int)) ∨ (Drained s (makeRoom s) ∧ (tcpEntries : Int) ≤ s.connAmount) := by
  unfold makeRoom
  split
  · rename_i hfull
    exact .inr ⟨sweepClosed_drained hi.core hi.closed, hfull⟩
  · rename_i hfull
    exact .inl ⟨rfl, by omega⟩

theorem makeRoom_inv (hi : Inv s) : Inv (makeRoom s) ∧ Cleared s (makeRoom s) ∧
    (makeRoom s).connAmount < (tcpEntries : Int) := by
  rcases makeRoom_cases hi with ⟨he, hlt⟩ | ⟨hd, _⟩
  · rw [he]
    exact ⟨hi, .refl hi.core hi.closed, hlt⟩
  · refine ⟨hd.inv hi, hd.cleared, ?_⟩
    rw [hd.empty.1]
    decide

/-! ## Accepting -/

def stored (s : Server) (fd : Int) : Nat → Entry :=
  Function.update s.httpTable s.connAmount.toNat { s.httpTable s.connAmount.toNat with sockFd := fd }

theorem accepted_eq {fd : Int} (hfd : 0 ≤ fd) (hroom : s.connAmount < (tcpEntries : Int)) :
    accepted s fd = { s with
      live := fd :: s.live
      httpTable := stored s fd
      overwrote := s.overwrote || decide (0 ≤ (s.httpTable s.connAmount.toNat).sockFd)
      connAmount := s.connAmount + 1
      maxsock := fd + 1 } := by
  unfold accepted
  rw [if_neg (by omega)]
  dsimp only
  rw [if_pos hroom]
  rfl

theorem Inv.slot (hi : Inv s) (hroom : s.connAmount < (tcpEntries : Int)) :
    s.connAmount.toNat < tcpEntries ∧ (s.connAmount.toNat : Int) = s.connAmount ∧
      (s.httpTable s.connAmount.toNat).sockFd < 0 := by
  have hnn : 0 ≤ s.connAmount := by
    rw [hi.core.amount]
    exact Int.natCast_nonneg _
  have hlt : s.connAmount.toNat < tcpEntries := by omega
  have hf := hi.front _ hlt
  refine ⟨hlt, by omega, ?_⟩
  by_contra hc
  have := hf.mp (by omega)
  omega

theorem stored_fd (fd : Int) (j : Nat) :
    (stored s fd j).sockFd = if j = s.connAmount.toNat then fd else (s.httpTable j).sockFd := by
  unfold stored
  rw [Function.update_apply]
  split <;> rfl

theorem inv_accepted (hi : Inv s) (hroom : s.connAmount < (tcpEntries : Int)) {fd : Int} (hfd : 0 ≤ fd)
    (hfresh : fd ∉ s.live) (hne : fd ≠ s.sockFd) : Inv (accepted s fd) := by
  obtain ⟨hslot, hcast, hfree⟩ := hi.slot hroom
  rw [accepted_eq hfd hroom]
  have hcount := fun p => countP_update (t := s.httpTable) (List.nodup_range (n := tcpEntries))
    (List.mem_range.mpr hslot) { s.httpTable s.connAmount.toNat with sockFd := fd } p
  refine ⟨⟨?_, fun g hg => ?_, ?_, ?_, hi.core.closedOnce, ?_⟩, fun j hj => ?_, fun j hj => ?_, hi.listening, ?_⟩
  · have h := hcount fun e => decide (0 ≤ e.sockFd)
    have hfree' : ¬(0 : Int) ≤ (s.httpTable s.connAmount.toNat).sockFd := by omega
    rw [decide_eq_false hfree', decide_eq_true hfd] at h
    have ha := hi.core.amount
    show s.connAmount + 1 = (liveCount (stored s fd) : Int)
    have hs : liveCount (stored s fd) = liveCount s.httpTable + 1 := h
    rw [hs, ha]
    rfl
  · have h := hcount fun e => decide (e.sockFd = g)
    have hfree' : ¬(s.httpTable s.connAmount.toNat).sockFd = g := by omega
    rw [decide_eq_false hfree'] at h
    have hs : holders (stored s fd) g = holders s.httpTable g + (decide (fd = g)).toNat := h
    show (fd :: s.live).count g = holders (stored s fd) g
    rw [hs, ← hi.core.live g hg, List.count_cons]
    by_cases he : fd = g
    · simp [he]
    · simp [he]
  · intro g hg
    rcases List.mem_cons.mp hg with rfl | hg
    · exact hfd
    · exact hi.core.nonneg g hg
  · exact List.nodup_cons.mpr ⟨hfresh, hi.core.liveOnce⟩
  · show (s.overwrote || decide (0 ≤ (s.httpTable s.connAmount.toNat).sockFd)) = false
    rw [hi.core.notOverwritten, decide_eq_false (by omega)]
    rfl
  · show (stored s fd j).status = .closed
    unfold stored
    rw [Function.update_apply]
    split
    · exact hi.closed _ hslot
    · exact hi.closed j hj
  · show 0 ≤ (stored s fd j).sockFd ↔ (j : Int) < s.connAmount + 1
    rw [stored_fd]
    split
    · rename_i hjs
      rw [hjs]
      omega
    · rw [hi.front j hj]
      omega
  · show s.sockFd ∉ fd :: s.live
    rw [List.mem_cons, not_or]
    exact ⟨hne.symm, hi.notListening⟩

/-- The first argument of the next `select` covers what is to be watched. -/
theorem covers_accepted (hi : Inv s) (hroom : s.connAmount < (tcpEntries : Int)) {fd : Int} (hfd : 0 ≤ fd) :
    SelectCovers (accepted s fd) ↔ s.sockFd ≤ fd + 1 ∧ ∀ i < tcpEntries, (s.httpTable i).sockFd ≤ fd + 1 := by
  obtain ⟨hslot, _, hfree⟩ := hi.slot hroom
  rw [accepted_eq hfd hroom]
  constructor
  · intro h
    have hl : s.sockFd < fd + 1 + 1 := h.listening
    refine ⟨by omega, fun i hlt => ?_⟩
    have ht := h.table i hlt
    dsimp only at ht
    rw [stored_fd] at ht
    split at ht
    · rename_i he
      rw [he]
      omega
    · by_cases hpos : 0 ≤ (s.httpTable i).sockFd
      · have := ht hpos
        omega
      · omega
  · rintro ⟨hl, ht⟩
    refine ⟨show s.sockFd < fd + 1 + 1 by omega, fun i hlt _ => ?_⟩
    show (stored s fd i).sockFd < fd + 1 + 1
    rw [stored_fd]
    split
    · omega
    · have := ht i hlt
      omega

end

/-! ## Steps and runs -/

section
variable {s s₁ : Server} {bits : Nat → Bool} {recv : Nat → Recv}

theorem Inv.withBits (hi : Inv s) (bits : Nat → Bool) : Inv { s with fdsr := bits } :=
  ⟨⟨hi.core.amount, hi.core.live, hi.core.nonneg, hi.core.liveOnce, hi.core.closedOnce, hi.core.notOverwritten⟩,
    hi.closed, hi.front, hi.listening, hi.notListening⟩

theorem failsIn_iff : FailsIn { s with fdsr := selected s bits } recv (List.range tcpEntries) ↔ someFailed s bits recv := by
  simp only [FailsIn, someFailed, List.mem_range, Server.isSet]

theorem received_cases (hi : Inv s) (h : atAccept s bits recv = some s₁) :
    (Kept { s with fdsr := selected s bits } s₁ ∧ ¬someFailed s bits recv) ∨
      (Drained { s with fdsr := selected s bits } s₁ ∧ someFailed s bits recv) := by
  rw [← failsIn_iff]
  have hi₀ := hi.withBits (selected s bits)
  exact recvLoop_cases (List.range tcpEntries) (fun i hi => List.mem_range.mp hi) List.pairwise_lt_range hi₀.core
    hi₀.closed h

theorem received (hi : Inv s) (h : atAccept s bits recv = some s₁) :
    Inv s₁ ∧ Cleared { s with fdsr := selected s bits } s₁ ∧
      s₁.isSet s₁.sockFd = selected s bits (fdBit s.sockFd) := by
  have hi₀ := hi.withBits (selected s bits)
  have hcl : Inv s₁ ∧ Cleared { s with fdsr := selected s bits } s₁ := by
    rcases received_cases hi h with ⟨hk, _⟩ | ⟨hd, _⟩
    · exact ⟨hk.inv hi₀, hk.cleared hi₀.core⟩
    · exact ⟨hd.inv hi₀, hd.cleared⟩
  refine ⟨hcl.1, hcl.2, ?_⟩
  rw [hcl.2.sockFd]
  exact hcl.2.listening hi₀.listening hi₀.fd_ne_listening

theorem step_ready {accept : Int} (h : atAccept s bits recv = some s₁) :
    step s (.ready bits recv accept) = if s₁.isSet s₁.sockFd then accepted (makeRoom s₁) accept else s₁ := by
  rw [step, serve, h]
  rfl

theorem roomed_le (hi : Inv s) (h : atAccept s bits recv = some s₁) {fd : Int} (hfd : 0 ≤ fd) :
    (∀ i < tcpEntries, ((makeRoom s₁).httpTable i).sockFd ≤ fd + 1) ↔
      someFailed s bits recv ∨ (tcpEntries : Int) ≤ s.connAmount ∨ ∀ i < tcpEntries, (s.httpTable i).sockFd ≤ fd + 1 := by
  have hi₁ := (received hi h).1
  rcases received_cases hi h with ⟨hk, hno⟩ | ⟨hd, hyes⟩
  · rcases makeRoom_cases hi₁ with ⟨he, hlt⟩ | ⟨hd, hfull⟩
    · rw [he]
      have hlt' : ¬(tcpEntries : Int) ≤ s.connAmount := by
        have : s₁.connAmount = s.connAmount := hk.connAmount
        omega
      simp only [hk.fdOf, hno, hlt', false_or]
    · have hfull' : (tcpEntries : Int) ≤ s.connAmount := by
        have : s₁.connAmount = s.connAmount := hk.connAmount
        omega
      refine iff_of_true (fun i hlt => ?_) (.inr (.inl hfull'))
      have := hd.dead i hlt
      omega
  · refine iff_of_true (fun i hlt => ?_) (.inl hyes)
    have hdead := (makeRoom_inv hi₁).2.1.dead (hd.dead i hlt)
    omega

theorem inv_step (s : Server) (o : Outcome) (hi : Inv s) (hback : CameBack s o) : Inv (step s o) := by
  cases o with
  | timeout softap next =>
    cases softap with
    | true => exact hi
    | false =>
      have hd := sweepAll_drained hi.core hi.closed
      exact inv_start hd.empty.2 hd.cleared.core.closedOnce hd.cleared.core.notOverwritten hback.2.1
  | ready bits recv accept =>
    obtain ⟨s₁, h⟩ : ∃ s₁, atAccept s bits recv = some s₁ := by
      obtain ⟨s', hs'⟩ := Option.isSome_iff_exists.mp hback.1
      obtain ⟨s₁, h, _⟩ := Option.map_eq_some_iff.mp hs'
      exact ⟨s₁, h⟩
    obtain ⟨hi₁, hcl, _⟩ := received hi h
    rw [step_ready h]
    split
    · obtain ⟨hi₂, hcl₂, hroom⟩ := makeRoom_inv hi₁
      by_cases hacc : 0 ≤ accept
      · obtain ⟨_, hne, hfresh⟩ := hback.2 s₁ h hacc
        refine inv_accepted hi₂ hroom hacc hfresh ?_
        rw [hcl₂.sockFd, hcl.sockFd]
        exact hne
      · rw [accepted, if_pos (by omega)]
        exact hi₂
    · exact hi₁

/-- The first argument of the next `select` covers the descriptors exactly when the
descriptor that is stored is not too small. -/
theorem covers_step (s : Server) (o : Outcome) (hi : Inv s) (hs : SelectCovers s) (hback : CameBack s o) :
    SelectCovers (step s o) ↔ CoversAll s o := by
  cases o with
  | timeout softap next =>
    refine iff_of_true ?_ trivial
    cases softap with
    | true => exact hs
    | false =>
      refine ⟨show next < next + 1 by omega, fun i hlt hpos => ?_⟩
      have hdead : ((startServer (sweepAll s) next).httpTable i).sockFd = -1 := by
        show (if i < tcpEntries then _ else _ : Entry).sockFd = -1
        rw [if_pos hlt]
      have : (0 : Int) ≤ -1 := hdead ▸ hpos
      omega
  | ready bits recv accept =>
    obtain ⟨s₁, h⟩ : ∃ s₁, atAccept s bits recv = some s₁ := by
      obtain ⟨s', hs'⟩ := Option.isSome_iff_exists.mp hback.1
      obtain ⟨s₁, h, _⟩ := Option.map_eq_some_iff.mp hs'
      exact ⟨s₁, h⟩
    obtain ⟨hi₁, hcl, hset⟩ := received hi h
    obtain ⟨hi₂, hcl₂, hroom⟩ := makeRoom_inv hi₁
    have hs₁ : SelectCovers s₁ := hcl.covers ⟨hs.listening, hs.table⟩
    rw [step_ready h, hset]
    unfold CoversAll
    dsimp only
    by_cases hsel : selected s bits (fdBit s.sockFd) = true
    · rw [if_pos hsel]
      by_cases hacc : 0 ≤ accept
      · rw [covers_accepted hi₂ hroom hacc, roomed_le hi h hacc, hcl₂.sockFd, hcl.sockFd]
        exact ⟨fun hc _ _ => hc, fun hc => hc hsel hacc⟩
      · refine iff_of_true ?_ fun _ hc => absurd hc hacc
        rw [accepted, if_pos (by omega)]
        exact hcl₂.covers hs₁
    · rw [if_neg hsel]
      exact iff_of_true hs₁ fun hc => absurd hc hsel

end

/-- At every select of every run the live entries stand at the front and are
counted, and every descriptor accepted is in the table once or closed once. -/
theorem table_ok {fd : Int} (hfd : 0 ≤ fd) (os : List Outcome) (hback : Meets step CameBack (Server.boot fd) os) :
    TableOk (run step (Server.boot fd) os) :=
  (inv_of_meets inv_step (Server.boot fd) os (inv_boot hfd) hback).tableOk

/-- Every select of a run finds the table in order and its first argument large
enough exactly when no accepted descriptor is too small. -/
theorem conn_table {fd : Int} (hfd : 0 ≤ fd) (os : List Outcome) (hback : Meets step CameBack (Server.boot fd) os) :
    (TableOk (Server.boot fd) ∧ SelectCovers (Server.boot fd)) ∧
      (Meets step (fun s o => TableOk (step s o) ∧ SelectCovers (step s o)) (Server.boot fd) os ↔
        Meets step CoversAll (Server.boot fd) os) := by
  have hcov : SelectCovers (Server.boot fd) := by
    refine ⟨show fd < fd + 1 by omega, fun i hlt hpos => ?_⟩
    have hdead : ((Server.boot fd).httpTable i).sockFd = -1 := by
      show (if i < tcpEntries then _ else _ : Entry).sockFd = -1
      rw [if_pos hlt]
    have : (0 : Int) ≤ -1 := hdead ▸ hpos
    omega
  refine ⟨⟨(inv_boot hfd).tableOk, hcov⟩, ?_⟩
  refine meets_iff_of_inv_of_meets (I := fun s => Inv s ∧ SelectCovers s) ?_ ?_ ⟨inv_boot hfd, hcov⟩ os hback
  · rintro s o ⟨hi, hs⟩ hok hgood
    exact ⟨inv_step s o hi hok, (covers_step s o hi hs hok).mpr hgood⟩
  · rintro s o ⟨hi, hs⟩ hok
    exact ⟨fun h => (covers_step s o hi hs hok).mp h.2,
      fun h => ⟨(inv_step s o hi hok).tableOk, (covers_step s o hi hs hok).mpr h⟩⟩

/-- A client comes to the socket 0 and gets the descriptor `fd`. -/
def arrival (fd : Int) : Outcome := .ready (fun n => n == 0) (fun _ => .failed) fd

/-- What comes in on the descriptor 1, with no client waiting. -/
def incoming (r : Recv) : Outcome := .ready (fun n => n == 1) (fun _ => r) (-1)

/-- A page goes out in two pieces, one of two clients hangs up, and at last the server starts again. -/
def sampleVisits : List Outcome :=
  [arrival 1, incoming (.data (.sendfile 80 ⟨.html, 150, [100, 50]⟩)), arrival 2, incoming .failed, arrival 1,
    .timeout false 0]

theorem conn_table_sample : (0 : Int) ≤ 0 ∧ Meets step CameBack (Server.boot 0) sampleVisits ∧
    ((TableOk (Server.boot 0) ∧ SelectCovers (Server.boot 0)) ∧
      (Meets step (fun s o => TableOk (step s o) ∧ SelectCovers (step s o)) (Server.boot 0) sampleVisits ↔
        Meets step CoversAll (Server.boot 0) sampleVisits)) := by
  have hback : Meets step CameBack (Server.boot 0) sampleVisits := by
    refine ⟨⟨by decide, ?_⟩, ⟨by decide, ?_⟩, ⟨by decide, ?_⟩, ⟨by decide, ?_⟩, ⟨by decide, ?_⟩, ⟨by decide, by decide⟩,
      trivial⟩
    · intro s' h _
      cases h
      exact ⟨by decide, by decide, by decide⟩
    · exact fun _ _ h => absurd h (by decide)
    · intro s' h _
      cases h
      exact ⟨by decide, by decide, by decide⟩
    · exact fun _ _ h => absurd h (by decide)
    · intro s' h _
      cases h
      exact ⟨by decide, by decide, by decide⟩
  exact ⟨by decide, hback, conn_table (by decide) sampleVisits hback⟩

/-- The descriptor 5 is not watched once the descriptor 1 has been accepted. -/
theorem select_misses : ¬Meets step (fun s o => TableOk (step s o) ∧ SelectCovers (step s o)) (Server.boot 0)
    [arrival 5, arrival 1] := by
  intro h
  have hlt := h.2.1.2.table 0 (by decide) (by decide)
  exact absurd hlt (by decide)

end SerialNet.Web
