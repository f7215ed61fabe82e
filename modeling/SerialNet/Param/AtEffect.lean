import SerialNet.Param.AtAtomic

/-!
# What the commands do to the parameters

For each command that sets parameters: it leaves them alone, as a query or with
an error, or it is accepted and the result is given.
-/

namespace SerialNet.Param

/-- The parameters, their saved copy and the work mode are the same. -/
structure Same (g g' : Globals) : Prop where
  sysParam : g'.sysParam = g.sysParam
  userParam : g'.userParam = g.userParam
  userFlash : g'.userFlash = g.userFlash
  wlWorkmode : g'.wlWorkmode = g.wlWorkmode

/-- A query or an error, and the parameters stay. -/
def Refused (g : Globals) (argv : List (List UInt8)) (a : Answer) : Prop :=
  Same g a.1 ∧ (isQuery argv = true ∨ a.failed = true)

section
variable {env : Env} {g : Globals} {argv : List (List UInt8)}

theorem same_refl (g : Globals) : Same g g := ⟨rfl, rfl, rfl, rfl⟩

theorem refused_query {r : List Reply} (h : isQuery argv = true) : Refused g argv (g, r) := ⟨same_refl g, .inl h⟩
theorem refused_fail {g' : Globals} (e : ErrorType) (h : Same g g') : Refused g argv (fail g' e) := ⟨h, .inr rfl⟩
theorem refused_failText (t : String) : Refused g argv (failText g t) := ⟨same_refl g, .inr rfl⟩

/-- The settings of `AT+WQSOPT` passed every check. -/
structure WqsoptArgs.Ok (a : WqsoptArgs) : Prop where
  mode : a.mode = 0 ∨ a.mode = 1 ∨ a.mode = 2
  channel : 1 ≤ a.channel ∧ a.channel ≤ 13
  encry : a.encry ≤ 4
  authMode : a.authMode ≤ 3
  auth : a.encry = 0 → a.authMode = 0

theorem WqsoptArgs.ok {a : WqsoptArgs} (hrange : a.outOfRange = false) (hauth : a.badAuth = false) : a.Ok := by
  simp only [WqsoptArgs.outOfRange, Bool.or_eq_false_iff, Bool.and_eq_false_iff, decide_eq_false_iff_not, ne_eq,
    not_not, UInt8.not_lt] at hrange
  simp only [WqsoptArgs.badAuth, Bool.or_eq_false_iff, Bool.and_eq_false_iff, decide_eq_false_iff_not, ne_eq,
    not_not] at hauth
  obtain ⟨⟨⟨⟨hm, hc⟩, he⟩, ha⟩, -⟩ := hrange
  refine ⟨?_, hc, he, ha, fun h0 => hauth.1.resolve_left fun hne => hne h0⟩
  rcases hm with (h | h) | h
  · exact .inl h
  · exact .inr (.inl h)
  · exact .inr (.inr h)

theorem wqsopt_effect :
    Refused g argv (responseWQSOPT env g argv) ∨
      (¬isQuery argv = true ∧ (wqsoptArgs argv).Ok ∧
        (responseWQSOPT env g argv).1.sysParam = (wqsoptArgs argv).set g.sysParam ∧
        (responseWQSOPT env g argv).1.userParam = { g.userParam with cfg := (wqsoptArgs argv).set g.sysParam } ∧
        (responseWQSOPT env g argv).1.userFlash = g.userFlash ∧
        (responseWQSOPT env g argv).1.wlWorkmode = g.wlWorkmode) := by
  unfold responseWQSOPT
  dsimp only
  split
  · next hq => exact .inl (refused_query hq)
  · next hq =>
    split
    · exact .inl (refused_fail _ (same_refl g))
    · split
      · exact .inl (refused_fail _ (same_refl g))
      · split
        · exact .inl (refused_fail _ (same_refl g))
        · next hrange =>
          cases hauth : (wqsoptArgs argv).badAuth with
          | true =>
            refine .inl (refused_fail _ ?_)
            cases g.linked <;> exact ⟨rfl, rfl, rfl, rfl⟩
          | false =>
            refine .inr ⟨hq, WqsoptArgs.ok (by simpa using hrange) hauth, ?_⟩
            cases g.linked <;> exact ⟨rfl, rfl, rfl, rfl⟩

theorem wphymode_effect :
    Refused g argv (responseWPHYMODE g argv) ∨
      (¬isQuery argv = true ∧ ∃ mode : UInt8,
        (responseWPHYMODE g argv).1.sysParam = (infPhyModeSet g.sysParam mode).2 ∧
        (responseWPHYMODE g argv).1.userParam = { g.userParam with cfg := (infPhyModeSet g.sysParam mode).2 } ∧
        (responseWPHYMODE g argv).1.userFlash = g.userFlash ∧
        (responseWPHYMODE g argv).1.wlWorkmode = g.wlWorkmode) := by
  unfold responseWPHYMODE
  split
  · next hq =>
    refine .inl ⟨?_, .inl hq⟩
    split
    · exact same_refl g
    · split
      · exact same_refl g
      · exact same_refl g
  · next hq =>
    dsimp only
    split
    · split
      · exact .inl (refused_fail _ (same_refl g))
      · split
        · exact .inl (refused_failText _)
        · exact .inr ⟨hq, _, rfl, rfl, rfl, rfl⟩
    · exact .inl (refused_fail _ (same_refl g))

/-- The three accepted forms of `AT+WSCAP` by the mode of `SysParam`, as the
configuration that ends up in both copies. -/
def wscapCfg (g : Globals) (argv : List (List UInt8)) : CfgParam :=
  if g.sysParam.wifiCfg.protocol = 0 then
    (infConTryTimesSet (setSsidKey (infNetModeSet g.sysParam 0).2 (arg argv 1) (arg argv 2))
      (atoi (arg argv 3)).toUInt8).2
  else if g.sysParam.wifiCfg.protocol = 2 then
    setSsidKey (infNetModeSet { g.userParam.cfg with bDhcpServer := 1, bDnsServer := 1 } 2).2 (arg argv 1) (arg argv 2)
  else setSsidKey g.userParam.cfg (arg argv 1) (arg argv 2 ++ [0])

theorem wscap_effect (hq : ¬isQuery argv = true) :
    Refused g argv (responseWSCAP g argv) ∨ responseWSCAP g argv = (g, []) ∨
      (wscapArgs argv = true ∧ (responseWSCAP g argv).1.sysParam = wscapCfg g argv ∧
        (responseWSCAP g argv).1.userParam = { g.userParam with cfg := wscapCfg g argv } ∧
        (responseWSCAP g argv).1.userFlash = g.userFlash ∧
        (responseWSCAP g argv).1.wlWorkmode = g.wlWorkmode) := by
  unfold responseWSCAP wscapCfg
  rw [if_neg hq]
  split
  · exact .inl (refused_fail _ (same_refl g))
  · next hargs =>
    have hargs : wscapArgs argv = true := by simpa using hargs
    split
    · split
      · exact .inl (refused_fail _ (same_refl g))
      · exact .inr (.inr ⟨hargs, rfl, rfl, rfl, rfl⟩)
    · split
      · exact .inr (.inr ⟨hargs, rfl, rfl, rfl, rfl⟩)
      · split
        · exact .inr (.inr ⟨hargs, rfl, rfl, rfl, rfl⟩)
        · exact .inr (.inl rfl)

theorem nlocip_effect :
    Refused g argv (responseNLOCIP env g argv) ∨
      (responseNLOCIP env g argv).1.userParam =
        { g.userParam with
          cfg := nlocipSet g.sysParam ((inetAton (arg argv 1)).getD env.junk) (atoi (arg argv 2)).toUInt8
            (atoi (arg argv 3)).toUInt8 } := by
  unfold responseNLOCIP
  dsimp only
  split
  · next hq => exact .inl (refused_query hq)
  · split
    · exact .inl (refused_fail _ (same_refl g))
    · split
      · exact .inl (refused_fail _ (same_refl g))
      · split
        · exact .inl (refused_fail _ (same_refl g))
        · split
          · exact .inl (refused_failText _)
          · refine .inr ?_
            split
            · rfl
            · rfl

theorem baudrate_effect :
    Refused g argv (responseBAUDRATE g argv) ∨
      (responseBAUDRATE g argv).1.userParam = { g.userParam with baudrate := atoi (arg argv 1) } := by
  unfold responseBAUDRATE
  by_cases h : argv.length < 2
  · have h2 : (argv.length == 2 && strIsDigit (arg argv 1)) = false := by
      rw [beq_false_of_ne (show argv.length ≠ 2 by omega)]; rfl
    rw [if_pos h, if_neg (not_query (by omega)), if_neg (by rw [h2]; exact Bool.false_ne_true)]
    exact .inl (refused_fail _ ⟨rfl, rfl, rfl, rfl⟩)
  · rw [if_neg h]
    split
    · next hq => exact .inl (refused_query hq)
    · split
      · split
        · exact .inr rfl
        · exact .inl (refused_fail _ (same_refl g))
      · exact .inl (refused_fail _ (same_refl g))

theorem setNumber_effect (shown : Reply) (store : UInt32 → UserCfgParam) :
    Refused g argv (setNumber g argv shown store) ∨ (setNumber g argv shown store).1.userParam = store (atoi (arg argv 1)) := by
  unfold setNumber
  split
  · next hq => exact .inl (refused_query hq)
  · split
    · exact .inr rfl
    · exact .inl (refused_fail _ (same_refl g))

end

end SerialNet.Param
