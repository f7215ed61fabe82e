import SerialNet.Param.AtCmd

/-!
# Errors of AT commands

A command answered with `+ERROR` should leave the parameters, the Wi-Fi and the
heap alone, and a query should leave everything alone. `Safe` says which command
lines keep to this.
-/

namespace SerialNet.Param

/-- What an erroneous command must not touch: the parameters, the MAC task and the heap. -/
structure Kept (g g' : Globals) : Prop where
  sysParam : g'.sysParam = g.sysParam
  userParam : g'.userParam = g.userParam
  beaconOpt : g'.beaconOpt = g.beaconOpt
  rateOpt : g'.rateOpt = g.rateOpt
  mac : g'.mac = g.mac
  heap : g'.heap = g.heap

/-- An error keeps, a query changes nothing. -/
def Atomic (g : Globals) (argv : List (List UInt8)) (a : Answer) : Prop :=
  (a.failed = true → Kept g a.1) ∧ (isQuery argv = true → a.1 = g)

/-! ## The conditions -/

/-- The link is up and only the last two checks reject the setting. -/
def wqsoptLate (g : Globals) (argv : List (List UInt8)) : Bool :=
  argv.length == 6 && wqsoptDigits argv && !(wqsoptArgs argv).outOfRange && g.linked && (wqsoptArgs argv).badAuth

/-- `UserParam.socketType` once the second part of `AT+NQSCNN` was handled. -/
def nqscnnType (u : UserCfgParam) (argv : List (List UInt8)) : UInt8 :=
  if nmodeOk (arg argv 2) then (atoi (arg argv 2)).toUInt8 else u.socketType

def nrmtipStores (u : UserCfgParam) (argv : List (List UInt8)) : Bool := nqscnnType u argv ≠ 1 && isValidIp (arg argv 4)

def nqscnnAccepts (u : UserCfgParam) (argv : List (List UInt8)) : Bool :=
  nmodeOk (arg argv 1) && nmodeOk (arg argv 2) && nportOk (arg argv 3) && (nqscnnType u argv = 1 || isValidIp (arg argv 4))

/-- Some part of `AT+NQSCNN` is stored. -/
def nqscnnStores (u : UserCfgParam) (argv : List (List UInt8)) : Bool :=
  nmodeOk (arg argv 1) || nmodeOk (arg argv 2) || nportOk (arg argv 3) || nrmtipStores u argv

/-- Every part that is stored stores what is there already. -/
structure Idle (env : Env) (g : Globals) (argv : List (List UInt8)) : Prop where
  cfg : nqscnnStores g.userParam argv = true → g.sysParam = g.userParam.cfg
  nmode : nmodeOk (arg argv 1) = true → (atoi (arg argv 1)).toUInt8 = g.userParam.socketProtocol
  ntype : nmodeOk (arg argv 2) = true → (atoi (arg argv 2)).toUInt8 = g.userParam.socketType
  nport : nportOk (arg argv 3) = true → (atoi (arg argv 3)).toUInt16 = g.userParam.socketPort
  nrmtip : nrmtipStores g.userParam argv = true → (inetAton (arg argv 4)).getD env.junk = g.userParam.remoteCommIp

def wscanapArgs (argv : List (List UInt8)) : Bool :=
  argv.length == 2 && strIsDigit (arg argv 1) && (arg argv 1).length != 0

/-- Everything is accepted but the link is not up. -/
def wsbcnLate (g : Globals) (argv : List (List UInt8)) : Bool :=
  wsbcnArgs argv && g.sysParam.wifiCfg.protocol != 0 && wsbcnRange argv && !g.linked

/-- The byte that ends the key is there already. -/
def KeyEnded (w : WifiCfg) : Prop := clearPsk w w.keyLength.toNat = some w

/-- When the command's error keeps and its query changes nothing. -/
def SafeFor (env : Env) (g : Globals) (argv : List (List UInt8)) : Request → Prop
  | .wqsopt => wqsoptLate g argv = false
  | .nqscnn => argv.length = 5 → nqscnnAccepts g.userParam argv = false → Idle env g argv
  | .wscanap => env.mallocOk = true → wscanapArgs argv = true
  | .wsbcn => wsbcnLate g argv = false
  | .wscap => isQuery argv = true → KeyEnded g.sysParam.wifiCfg
  | _ => True

/-- The same of a command line; an unknown command does nothing. -/
def Safe (env : Env) (g : Globals) (argv : List (List UInt8)) : Prop :=
  ∀ request, argv.head?.bind stringTorequest = some request → SafeFor env g argv request

section
variable {env : Env} {g : Globals} {argv : List (List UInt8)}

theorem kept_refl (g : Globals) : Kept g g := ⟨rfl, rfl, rfl, rfl, rfl, rfl⟩

@[simp] theorem failed_fail (e : ErrorType) : (fail g e).failed = true := rfl
@[simp] theorem failed_failText (t : String) : (failText g t).failed = true := rfl
@[simp] theorem failed_ok : (ok g).failed = false := rfl
@[simp] theorem failed_print (fmt : String) (args : List Arg) : Answer.failed (g, [.print fmt args]) = false := rfl

theorem query_length (h : isQuery argv = true) : argv.length = 2 := by
  simp only [isQuery, Bool.and_eq_true, beq_iff_eq] at h
  exact h.1

theorem not_query (h : argv.length ≠ 2) : ¬isQuery argv = true := fun hq => h (query_length hq)

/-! ## Shapes of handlers -/

theorem atomic_refl (r : List Reply) : Atomic g argv (g, r) := ⟨fun _ => kept_refl g, fun _ => rfl⟩

theorem atomic_fail (e : ErrorType) : Atomic g argv (fail g e) := atomic_refl _
theorem atomic_failText (t : String) : Atomic g argv (failText g t) := atomic_refl _

theorem atomic_kept {a : Answer} (hq : ¬isQuery argv = true) (h : Kept g a.1) : Atomic g argv a :=
  ⟨fun _ => h, fun h => absurd h hq⟩

theorem atomic_passed {a : Answer} (hq : ¬isQuery argv = true) (h : a.failed = false) : Atomic g argv a :=
  ⟨fun hf => absurd (h.symm.trans hf) Bool.false_ne_true, fun h => absurd h hq⟩

theorem atomic_bare {a : Answer} (h : a.failed = true → Kept g a.1) : Atomic g argv (bare g argv a) := by
  unfold bare
  split
  · exact atomic_fail _
  · next h1 => exact ⟨h, fun hq => absurd (query_length hq) (by omega)⟩

theorem atomic_bare_refl (r : List Reply) : Atomic g argv (bare g argv (g, r)) := atomic_bare fun _ => kept_refl g

theorem atomic_bare_passed {a : Answer} (h : a.failed = false) : Atomic g argv (bare g argv a) :=
  atomic_bare fun hf => absurd (h.symm.trans hf) Bool.false_ne_true

theorem not_atomic {a : Answer} (hf : a.failed = true) (h : ¬Kept g a.1) : ¬Atomic g argv a := fun ha => h (ha.1 hf)

/-! ## Handlers that are always atomic -/

theorem setBroadcast_kept (b : BroadcastSts) : Kept g (g.setBroadcast b) := ⟨rfl, rfl, rfl, rfl, rfl, rfl⟩

theorem digits_not_query (h : strIsDigit (arg argv 1) = true) : ¬isQuery argv = true := by
  intro hq
  simp only [isQuery, Bool.and_eq_true, beq_iff_eq] at hq
  rw [hq.2] at h
  exact absurd h (by decide)

theorem baudrate_atomic : Atomic g argv (responseBAUDRATE g argv) := by
  unfold responseBAUDRATE
  by_cases h : argv.length < 2
  · have hq : ¬isQuery argv = true := not_query (by omega)
    have h2 : (argv.length == 2 && strIsDigit (arg argv 1)) = false := by
      rw [beq_false_of_ne (show argv.length ≠ 2 by omega)]; rfl
    rw [if_pos h, if_neg hq, if_neg (by rw [h2]; exact Bool.false_ne_true)]
    exact atomic_kept hq ⟨rfl, rfl, rfl, rfl, rfl, rfl⟩
  · rw [if_neg h]
    split
    · exact atomic_refl _
    · next hq =>
      split
      · split
        · exact atomic_passed hq rfl
        · exact atomic_fail _
      · exact atomic_fail _

theorem setNumber_atomic (shown : Reply) (store : UInt32 → UserCfgParam) : Atomic g argv (setNumber g argv shown store) := by
  unfold setNumber
  split
  · exact atomic_refl _
  · next hq =>
    split
    · exact atomic_passed hq rfl
    · exact atomic_fail _

theorem lslpt_atomic : Atomic g argv (responseLSLPT g argv) := by
  unfold responseLSLPT
  split
  · exact atomic_fail _
  · next h =>
    have hq : ¬isQuery argv = true := not_query (by have := not_not.mp (not_or.mp h).1; omega)
    dsimp only
    split
    · exact atomic_fail _
    · split
      · exact atomic_failText _
      · split
        · exact atomic_passed hq rfl
        · exact atomic_passed hq rfl

theorem ping_atomic : Atomic g argv (responsePING g argv) := by
  unfold responsePING
  split
  · exact atomic_fail _
  · next h =>
    have hq : ¬isQuery argv = true := not_query (by have := not_not.mp (not_or.mp h).1; omega)
    have hk : ∀ g' : Globals, Kept g g' → Atomic g argv
        (if (pingInit g' (atoi (arg argv 2))).1 = 0 then ((pingInit g' (atoi (arg argv 2))).2, [])
        else fail (pingInit g' (atoi (arg argv 2))).2 .invalidPingRunning) := by
      intro g' hg
      unfold pingInit
      cases g'.pingFlag with
      | true => exact atomic_kept hq hg
      | false => exact atomic_passed hq rfl
    dsimp only
    split
    · exact hk _ ⟨rfl, rfl, rfl, rfl, rfl, rfl⟩
    · exact hk _ (kept_refl g)

theorem wphymode_atomic : Atomic g argv (responseWPHYMODE g argv) := by
  unfold responseWPHYMODE
  split
  · split
    · exact atomic_refl _
    · split
      · exact atomic_refl _
      · exact atomic_fail _
  · next hq =>
    dsimp only
    split
    · split
      · exact atomic_fail _
      · split
        · exact atomic_failText _
        · exact atomic_passed hq rfl
    · exact atomic_fail _

/-- `InfTxRateSet` accepts every rate of the table. -/
theorem txRates_accepted : ∀ r ∈ txRates, (infTxRateSet g r.2.1 r.2.2).1 = 0 := by
  intro r hr
  have h : ∀ r ∈ txRates, ¬(2 < r.2.1 ∨ (r.2.1 = 0 ∧ 4 < r.2.2) ∨ 8 < r.2.2) := by decide
  rw [infTxRateSet, if_neg (h r hr)]

theorem wtxrate_atomic : Atomic g argv (responseWTXRATE g argv) := by
  unfold responseWTXRATE
  split
  · split
    · exact atomic_refl _
    · split
      · exact atomic_refl _
      · exact atomic_fail _
  · next hq =>
    split
    · exact atomic_fail _
    · next mode idx hf =>
      have hr := txRates_accepted (g := g) _ (List.mem_of_find?_eq_some hf)
      split
      · exact atomic_failText _
      · dsimp only at hr ⊢
        rw [if_neg (not_not.mpr hr)]
        exact atomic_passed hq rfl

theorem wsmtconf_atomic : Atomic g argv (responseWSMTCONF g argv) := by
  apply atomic_bare
  intro hf
  by_cases h : g.smtconfigBegin = 0
  · rw [if_pos h] at hf
    exact absurd hf Bool.false_ne_true
  · rw [if_neg h]
    exact kept_refl g

theorem wstop_atomic : Atomic g argv (responseWSTOP g argv) := by
  apply atomic_bare
  intro hf
  cases h : g.linked with
  | false => exact kept_refl g
  | true =>
    rw [h] at hf
    exact absurd hf Bool.false_ne_true

theorem quit_atomic : Atomic g argv (responseQUIT g argv) := by
  apply atomic_bare
  intro hf
  cases h : g.linked with
  | false => exact kept_refl g
  | true =>
    rw [h] at hf
    exact absurd hf Bool.false_ne_true

theorem nlocip_atomic : Atomic g argv (responseNLOCIP env g argv) := by
  unfold responseNLOCIP
  dsimp only
  split
  · exact atomic_refl _
  · next hq =>
    split
    · exact atomic_fail _
    · split
      · exact atomic_fail _
      · split
        · exact atomic_fail _
        · split
          · exact atomic_failText _
          · exact atomic_passed hq rfl

theorem startThread_atomic (name : String) : Atomic g argv (startThread g argv name) := by
  unfold startThread
  split
  · next h => exact atomic_passed (not_query (by omega)) rfl
  · exact atomic_fail _

theorem port_not_query (h : portOk (arg argv 1) = true) : ¬isQuery argv = true :=
  digits_not_query (Bool.and_eq_true_iff.mp h).1

theorem bctStart_atomic {other own : UInt16} {otherErr ownErr sockErr setErr : ErrorType} {set : Bool}
    {opened started : BroadcastSts} {done : String} :
    Atomic g argv (bctStart env g argv other own otherErr ownErr sockErr setErr set opened started done) := by
  unfold bctStart
  split
  · exact atomic_fail _
  · next h =>
    have hq : ¬isQuery argv = true := port_not_query (by simpa using (not_or.mp h).2)
    split
    · exact atomic_failText _
    · split
      · exact atomic_fail _
      · split
        · exact atomic_fail _
        · split
          · exact atomic_kept hq (setBroadcast_kept _)
          · split
            · exact atomic_kept hq (setBroadcast_kept _)
            · exact atomic_passed hq rfl

theorem bcttxdata_atomic : Atomic g argv (responseBCTTXDATA env g argv) := by
  unfold responseBCTTXDATA
  split
  · exact atomic_fail _
  · next h =>
    have hq : ¬isQuery argv = true := digits_not_query (by simpa using (not_or.mp h).2)
    split
    · exact atomic_kept hq (setBroadcast_kept _)
    · dsimp only
      split
      · exact atomic_kept hq (setBroadcast_kept _)
      · split
        · exact atomic_kept hq (setBroadcast_kept _)
        · split
          · exact atomic_kept hq (setBroadcast_kept _)
          · exact atomic_passed hq rfl

/-! ## AT+WQSOPT -/

theorem mac_post_ne (msg : MlmeMsg) : (g.post msg).mac ≠ g.mac := by
  intro h
  have := congrArg List.length h
  simp [Globals.post] at this

theorem wqsopt_late (h : wqsoptLate g argv = true) :
    responseWQSOPT env g argv = fail (g.post .stop) .invalidParameter := by
  simp only [wqsoptLate, Bool.and_eq_true, beq_iff_eq, Bool.not_eq_true'] at h
  obtain ⟨⟨⟨⟨hlen, hdig⟩, hrange⟩, hlink⟩, hauth⟩ := h
  unfold responseWQSOPT
  dsimp only
  rw [if_neg (not_query (by omega)), if_neg (not_not.mpr hlen), hdig, hrange, hlink, hauth]
  rfl

theorem wqsopt_atomic : Atomic g argv (responseWQSOPT env g argv) ↔ wqsoptLate g argv = false := by
  cases hlate : wqsoptLate g argv with
  | true =>
    rw [wqsopt_late hlate]
    exact iff_of_false (not_atomic rfl fun hk => mac_post_ne .stop hk.mac) fun h => by cases h
  | false =>
    refine iff_of_true ?_ rfl
    unfold responseWQSOPT
    dsimp only
    split
    · exact atomic_refl _
    · next hq =>
      split
      · exact atomic_fail _
      · next hlen =>
        split
        · exact atomic_fail _
        · next hdig =>
          split
          · exact atomic_fail _
          · next hrange =>
            cases hauth : (wqsoptArgs argv).badAuth with
            | false => exact atomic_passed hq rfl
            | true =>
              have hlink : g.linked = false := by
                simpa [wqsoptLate, not_not.mp hlen, hauth, Bool.not_eq_true .. ▸ hrange,
                  show wqsoptDigits argv = true by simpa using hdig] using hlate
              rw [hlink]
              exact atomic_fail _

/-! ## AT+WSCANAP -/

theorem scanAp_passed (f : UInt8) : (scanAp env g f).failed = false := by
  unfold scanAp
  dsimp only
  have h0 : ∀ g' : Globals, (infScanStart g' true 32 (0 - f) 0).1 = 0 := fun _ => rfl
  rw [if_neg (not_not.mpr (h0 _))]
  simp [Answer.failed, Reply.isError]

theorem wscanap_atomic :
    Atomic g argv (responseWSCANAP env g argv) ↔ (env.mallocOk = true → wscanapArgs argv = true) := by
  unfold responseWSCANAP
  cases env.mallocOk with
  | false => exact iff_of_true (atomic_fail _) fun h => by cases h
  | true =>
    simp only [Bool.not_true, Bool.false_eq_true, if_false, forall_const]
    unfold wscanapArgs
    split
    · next h =>
      have hdig : strIsDigit (arg argv 1) = true := by
        simp only [Bool.and_eq_true] at h
        exact h.1.2
      exact iff_of_true (atomic_passed (digits_not_query hdig) (scanAp_passed _)) h
    · next h =>
      refine iff_of_false (not_atomic rfl fun hk => ?_) h
      have := congrArg List.length hk.heap
      simp [fail] at this

/-! ## AT+WSBCN -/

theorem wsbcn_late (h : wsbcnLate g argv = true) :
    responseWSBCN g argv =
      failText (g.post (.bcnPrdSet (atoi (arg argv 1)).toUInt16 (atoi (arg argv 2)).toUInt8)) "WiFi isn't started\n\r" := by
  simp only [wsbcnLate, Bool.and_eq_true, bne_iff_ne, Bool.not_eq_true'] at h
  obtain ⟨⟨⟨hargs, hprot⟩, hrange⟩, hlink⟩ := h
  have hlen : argv.length = 3 := by
    simp only [wsbcnArgs, Bool.and_eq_true, beq_iff_eq] at hargs
    exact hargs.1.1
  unfold responseWSBCN
  rw [if_neg (not_query (by omega)), if_neg (by rw [hargs]; decide), if_neg hprot, if_neg (by rw [hrange]; decide)]
  have hl : (g.post (.bcnPrdSet (atoi (arg argv 1)).toUInt16 (atoi (arg argv 2)).toUInt8)).linked = false := hlink
  simp only [infBeaconPeriodSet, hl]
  rfl

theorem wsbcn_atomic : Atomic g argv (responseWSBCN g argv) ↔ wsbcnLate g argv = false := by
  cases hlate : wsbcnLate g argv with
  | true =>
    rw [wsbcn_late hlate]
    exact iff_of_false (not_atomic rfl fun hk => mac_post_ne _ hk.mac) fun h => by cases h
  | false =>
    refine iff_of_true ?_ rfl
    unfold responseWSBCN
    split
    · split
      · exact atomic_refl _
      · split
        · exact atomic_refl _
        · exact atomic_fail _
    · next hq =>
      split
      · exact atomic_fail _
      · next hargs =>
        split
        · exact atomic_fail _
        · next hprot =>
          split
          · exact atomic_fail _
          · next hrange =>
            have hlink : g.linked = true := by
              simpa [wsbcnLate, hprot, show wsbcnArgs argv = true by simpa using hargs,
                show wsbcnRange argv = true by simpa using hrange] using hlate
            have hl : (g.post (.bcnPrdSet (atoi (arg argv 1)).toUInt16 (atoi (arg argv 2)).toUInt8)).linked = true :=
              hlink
            simp only [infBeaconPeriodSet, hl]
            exact atomic_passed hq rfl

/-! ## AT+WSCAP -/

theorem wscap_atomic :
    Atomic g argv (responseWSCAP g argv) ↔ (isQuery argv = true → KeyEnded g.sysParam.wifiCfg) := by
  unfold responseWSCAP
  split
  · next hq =>
    simp only [hq, forall_const]
    unfold KeyEnded
    cases hc : clearPsk g.sysParam.wifiCfg g.sysParam.wifiCfg.keyLength.toNat with
    | none =>
      refine iff_of_false (fun ha => ?_) (by simp)
      have := congrArg (fun g : Globals => g.faults.length) (ha.2 hq)
      simp [Globals.fault] at this
    | some w =>
      simp only [Option.some.injEq]
      constructor
      · intro ha
        exact congrArg (fun g : Globals => g.sysParam.wifiCfg) (ha.2 hq)
      · rintro rfl
        exact atomic_refl _
  · next hq =>
    refine iff_of_true ?_ fun h => absurd h hq
    split
    · exact atomic_fail _
    · split
      · split
        · exact atomic_fail _
        · exact atomic_passed hq rfl
      · split
        · exact atomic_passed hq rfl
        · split
          · exact atomic_passed hq rfl
          · exact atomic_refl _

/-! ## AT+NQSCNN -/

/-- The globals with the fields that `AT+NQSCNN` stores; `copied` once a part was stored. -/
def nqscnnPut (g : Globals) (protocol type : UInt8) (port : UInt16) (ip : UInt32) (copied : Bool) (faults : List Fault) :
    Globals :=
  { g with
    userParam :=
      { g.userParam with
        socketProtocol := protocol, socketType := type, socketPort := port, remoteCommIp := ip,
        cfg := if copied then g.sysParam else g.userParam.cfg }
    faults := faults }

section
variable {protocol type : UInt8} {port : UInt16} {ip : UInt32} {copied : Bool} {faults : List Fault} (a : List UInt8)

theorem nqscnnPut_self (g : Globals) :
    nqscnnPut g g.userParam.socketProtocol g.userParam.socketType g.userParam.socketPort g.userParam.remoteCommIp false
      g.faults = g := rfl

theorem responseNMODE_put :
    responseNMODE (nqscnnPut g protocol type port ip copied faults) a =
      (if nmodeOk a then 0 else -1,
        nqscnnPut g (if nmodeOk a then (atoi a).toUInt8 else protocol) type port ip (copied || nmodeOk a) faults) := by
  unfold responseNMODE
  cases nmodeOk a with
  | true => rw [Bool.or_true]; rfl
  | false => rw [Bool.or_false]; rfl

theorem responseNTYPE_put :
    responseNTYPE (nqscnnPut g protocol type port ip copied faults) a =
      (if nmodeOk a then 0 else -1,
        nqscnnPut g protocol (if nmodeOk a then (atoi a).toUInt8 else type) port ip (copied || nmodeOk a) faults) := by
  unfold responseNTYPE
  cases nmodeOk a with
  | true => rw [Bool.or_true]; rfl
  | false => rw [Bool.or_false]; rfl

theorem responseNPORT_put :
    responseNPORT (nqscnnPut g protocol type port ip copied faults) a =
      (if nportOk a then 0 else -1,
        nqscnnPut g protocol type (if nportOk a then (atoi a).toUInt16 else port) ip (copied || nportOk a) faults) := by
  unfold responseNPORT
  cases nportOk a with
  | true => rw [Bool.or_true]; rfl
  | false => rw [Bool.or_false]; rfl

theorem responseNRMTIP_put :
    responseNRMTIP env (nqscnnPut g protocol type port ip copied faults) a =
      (if type = 1 ∨ isValidIp a = true then 0 else -1,
        nqscnnPut g protocol type port (if type ≠ 1 && isValidIp a then (inetAton a).getD env.junk else ip)
          (copied || (type ≠ 1 && isValidIp a))
          (if (type ≠ 1 && isValidIp a) && (inetAton a).isNone then faults ++ [.uninitRead] else faults)) := by
  unfold responseNRMTIP
  by_cases h1 : type = 1
  · rw [if_pos (show (nqscnnPut g protocol type port ip copied faults).userParam.socketType = 1 from h1)]
    simp [h1]
  · rw [if_neg (show ¬(nqscnnPut g protocol type port ip copied faults).userParam.socketType = 1 from h1)]
    cases h2 : isValidIp a with
    | false => simp [h1]
    | true =>
      cases h3 : inetAton a with
      | none => simp [h1]; rfl
      | some ip => simp [h1]; rfl

end

/-- The globals once the four parts were handled. -/
def nqscnnResult (env : Env) (g : Globals) (argv : List (List UInt8)) : Globals :=
  nqscnnPut g (if nmodeOk (arg argv 1) then (atoi (arg argv 1)).toUInt8 else g.userParam.socketProtocol)
    (nqscnnType g.userParam argv)
    (if nportOk (arg argv 3) then (atoi (arg argv 3)).toUInt16 else g.userParam.socketPort)
    (if nrmtipStores g.userParam argv then (inetAton (arg argv 4)).getD env.junk else g.userParam.remoteCommIp)
    (nqscnnStores g.userParam argv)
    (if nrmtipStores g.userParam argv && (inetAton (arg argv 4)).isNone then g.faults ++ [.uninitRead] else g.faults)

theorem nqscnn_eq (hlen : argv.length = 5) :
    responseNQSCNN env g argv =
      if nqscnnAccepts g.userParam argv then ok (nqscnnResult env g argv)
      else fail (nqscnnResult env g argv) .invalidParameter := by
  have hq : ¬isQuery argv = true := not_query (by omega)
  unfold responseNQSCNN
  rw [if_neg hq, if_pos hlen]
  conv_lhs => rw [← nqscnnPut_self g]
  simp only [responseNMODE_put, responseNTYPE_put, responseNPORT_put, responseNRMTIP_put, Bool.false_or]
  refine if_congr ?_ rfl rfl
  have ht : (if nmodeOk (arg argv 2) then (atoi (arg argv 2)).toUInt8 else g.userParam.socketType) =
      nqscnnType g.userParam argv := rfl
  simp only [ht, nqscnnAccepts, Bool.and_eq_true, Bool.or_eq_true, decide_eq_true_eq, and_assoc, ite_eq_left_iff,
    Bool.not_eq_true, show ¬(-1 : Int) = 0 by decide, imp_false, Bool.not_eq_false, not_not]

theorem nqscnnPut_kept {protocol type : UInt8} {port : UInt16} {ip : UInt32} {copied : Bool} {faults : List Fault} :
    Kept g (nqscnnPut g protocol type port ip copied faults) ↔
      protocol = g.userParam.socketProtocol ∧ type = g.userParam.socketType ∧ port = g.userParam.socketPort ∧
        ip = g.userParam.remoteCommIp ∧ (copied = true → g.sysParam = g.userParam.cfg) := by
  constructor
  · intro hk
    have hu := hk.userParam
    exact ⟨congrArg UserCfgParam.socketProtocol hu, congrArg UserCfgParam.socketType hu,
      congrArg UserCfgParam.socketPort hu, congrArg UserCfgParam.remoteCommIp hu,
      ite_eq_right_iff.mp (congrArg UserCfgParam.cfg hu)⟩
  · rintro ⟨rfl, rfl, rfl, rfl, hc⟩
    refine ⟨rfl, ?_, rfl, rfl, rfl, rfl⟩
    unfold nqscnnPut
    rw [ite_eq_right_iff.mpr hc]

theorem nqscnnResult_kept : Kept g (nqscnnResult env g argv) ↔ Idle env g argv := by
  unfold nqscnnResult nqscnnType
  rw [nqscnnPut_kept]
  simp only [ite_eq_right_iff]
  exact ⟨fun ⟨h1, h2, h3, h4, hc⟩ => ⟨hc, h1, h2, h3, h4⟩, fun h => ⟨h.nmode, h.ntype, h.nport, h.nrmtip, h.cfg⟩⟩

theorem nqscnn_atomic :
    Atomic g argv (responseNQSCNN env g argv) ↔
      (argv.length = 5 → nqscnnAccepts g.userParam argv = false → Idle env g argv) := by
  by_cases hlen : argv.length = 5
  · rw [nqscnn_eq hlen]
    have hq : ¬isQuery argv = true := not_query (by omega)
    cases nqscnnAccepts g.userParam argv with
    | true => exact iff_of_true (atomic_passed hq rfl) fun _ h => by cases h
    | false =>
      simp only [hlen, Bool.false_eq_true, if_false, forall_const]
      rw [← nqscnnResult_kept]
      exact ⟨fun ha => ha.1 rfl, fun hk => atomic_kept hq hk⟩
  · refine iff_of_true ?_ fun h => absurd h hlen
    unfold responseNQSCNN
    split
    · exact atomic_refl _
    · exact atomic_fail _

/-! ## Every command -/

theorem respond_atomic (request : Request) :
    Atomic g argv (respond env g argv request) ↔ SafeFor env g argv request := by
  cases request with
  | help => exact iff_of_true (atomic_bare_refl _) trivial
  | ver => exact iff_of_true (atomic_bare_refl _) trivial
  | sver => exact iff_of_true (atomic_bare_refl _) trivial
  | save => exact iff_of_true (atomic_bare_passed rfl) trivial
  | factory => exact iff_of_true (atomic_bare_passed rfl) trivial
  | rst => exact iff_of_true (atomic_bare_passed rfl) trivial
  | systime => exact iff_of_true (atomic_bare_refl _) trivial
  | baudrate => exact iff_of_true baudrate_atomic trivial
  | uartft => exact iff_of_true (setNumber_atomic _ _) trivial
  | uartfl => exact iff_of_true (setNumber_atomic _ _) trivial
  | mslp => exact iff_of_true (atomic_bare_refl _) trivial
  | lslpt => exact iff_of_true lslpt_atomic trivial
  | ipconfig => exact iff_of_true (atomic_bare_refl _) trivial
  | ping => exact iff_of_true ping_atomic trivial
  | mac => exact iff_of_true (atomic_bare_refl _) trivial
  | wqsopt => exact wqsopt_atomic
  | wphymode => exact iff_of_true wphymode_atomic trivial
  | wtxrate => exact iff_of_true wtxrate_atomic trivial
  | wscanap => exact wscanap_atomic
  | wsbcn => exact wsbcn_atomic
  | wscap => exact wscap_atomic
  | wsmtconf => exact iff_of_true wsmtconf_atomic trivial
  | wstop => exact iff_of_true wstop_atomic trivial
  | nqscnn => exact nqscnn_atomic
  | nlocip => exact iff_of_true nlocip_atomic trivial
  | wsaconf => exact iff_of_true (startThread_atomic _) trivial
  | airkiss => exact iff_of_true (startThread_atomic _) trivial
  | bcttxstart => exact iff_of_true bctStart_atomic trivial
  | bcttxstop => exact iff_of_true (atomic_bare_passed rfl) trivial
  | bcttxdata => exact iff_of_true bcttxdata_atomic trivial
  | bctrxstart => exact iff_of_true bctStart_atomic trivial
  | bctrxstop => exact iff_of_true (atomic_bare_passed rfl) trivial
  | quit => exact iff_of_true quit_atomic trivial

theorem processCommand_atomic : Atomic g argv (processCommand env g argv) ↔ Safe env g argv := by
  cases argv with
  | nil => exact iff_of_true (atomic_fail _) fun _ h => by cases h
  | cons name args =>
    unfold Safe
    simp only [processCommand, List.head?_cons, Option.bind_some]
    cases stringTorequest name with
    | none => exact iff_of_true (atomic_fail _) fun _ h => by cases h
    | some request =>
      simp only [Option.some.injEq, forall_eq']
      exact respond_atomic request

/-- **Errors of AT commands.** Whatever the state of the module, an error of a
command line leaves the parameters, the MAC task and the heap as they were and
a query changes nothing, exactly on the `Safe` command lines. -/
theorem atCommand_atomic (env : Env) (g : Globals) (line : List UInt8) :
    Atomic g (parseParameter line) (atCommand env g line) ↔ Safe env g (parseParameter line) :=
  processCommand_atomic

end

/-- `WQSOPT=0,1,0,1,0`: no encryption, with an authentication. -/
def lateLine : List UInt8 := [87, 81, 83, 79, 80, 84, 61, 48, 44, 49, 44, 48, 44, 49, 44, 48]

/-- With the link up the Wi-Fi is stopped before the command is rejected. -/
theorem wqsopt_stops_before_error :
    ¬Atomic { Globals.factory sampleEnv with linkStatus := .linkUp } (parseParameter lateLine)
      (atCommand sampleEnv { Globals.factory sampleEnv with linkStatus := .linkUp } lateLine) := by
  unfold atCommand
  rw [processCommand_atomic]
  intro h
  have hlate : wqsoptLate { Globals.factory sampleEnv with linkStatus := .linkUp } (parseParameter lateLine) = false :=
    h .wqsopt (by decide)
  exact absurd hlate (by decide)

end SerialNet.Param
