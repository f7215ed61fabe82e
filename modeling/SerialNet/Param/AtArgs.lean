import Mathlib.Data.List.Forall2
import Mathlib.Data.List.TakeWhile
import SerialNet.Lib.CStr
import SerialNet.Param.AtCmd

/-!
# The arguments of a command

`parseParameter` cuts the command text in place and collects pointers to the
pieces in an array of 50; the handlers then read some of them. A handler may
only read as many as were collected.
-/

namespace SerialNet.Param

open Patch hiding Holds
open CStr

/-! ## strsep -/

/-- Where the scan from `s` meets the delimiter or the end of the text, which is at most `n` characters away. -/
def strsepStop (m : Nat → UInt8) (delim : UInt8) : Nat → Nat → Nat
  | 0, s => s
  | n + 1, s => if m s = delim ∨ m s = 0 then s else strsepStop m delim n (s + 1)

/-- The token, the memory and `*stringp` after one call. -/
structure Sep where
  tok : Option Nat
  mem : Nat → UInt8
  rest : Option Nat

def strsep (n : Nat) (m : Nat → UInt8) (delim : UInt8) : Option Nat → Sep
  | none => ⟨none, m, none⟩
  | some s =>
    let e := strsepStop m delim n s
    if m e = 0 then ⟨some s, m, none⟩ else ⟨some s, patch m e [0], some (e + 1)⟩

def maxSingleParameter : Nat := 50

/-- The variables of `parseParameter`; `argv` are the pointers stored, the null pointer of the last call with them. -/
structure Splitter where
  mem : Nat → UInt8
  p : Option Nat
  argv : List (Option Nat)

/-- `while ((argv[argc] = strsep(&p, ",")) != NULL) argc++`. -/
def splitLoop (n : Nat) : Nat → Splitter → Splitter
  | 0, s => s
  | fuel + 1, s =>
    let r := strsep n s.mem 44 s.p
    let s := ⟨r.mem, r.rest, s.argv ++ [r.tok]⟩
    if r.tok.isNone then s else splitLoop n fuel s

/-- `parseParameter` on a text of at most `n` characters. The inner loop ends
with `p` null, so `while (p)` turns at most once. -/
def parseParameterAt (n : Nat) (m : Nat → UInt8) (args : Nat) : Splitter :=
  let r := strsep n m 61 (some args)
  let s := ⟨r.mem, r.rest, [r.tok]⟩
  if s.p.isSome then splitLoop n (n + 2) s else s

/-- What `processCommand` finds behind the first `argc` pointers. -/
def Splitter.args (n : Nat) (s : Splitter) : List (List UInt8) :=
  s.argv.reduceOption.map fun a => read s.mem a (strlen s.mem a (n + 1))

/-! ## What the handlers read -/

/-- `a && b && …`: the arguments read up to the first test that fails, and the value. -/
def tests : List (Nat × Bool) → List Nat × Bool
  | [] => ([], true)
  | (i, ok) :: rest => if ok then (i :: (tests rest).1, (tests rest).2) else ([i], false)

section
variable (env : Env) (g : Globals) (argv : List (List UInt8))

def digitAt (i : Nat) : Nat × Bool := (i, strIsDigit (arg argv i))
def lengthAt (i : Nat) (ok : Nat → Bool) : Nat × Bool := (i, ok (arg argv i).length)

/-- The tests made once `argc` is `n`, and what a passed check goes on to read. -/
def checked (n : Nat) (ts : List (Nat × Bool)) (more : List Nat) : List Nat :=
  if argv.length ≠ n then [] else (tests ts).1 ++ if (tests ts).2 then more else []

/-- `(argc == 2) && (0 == strcmp(argv[1], "?"))`, and what follows where it fails. -/
def queried (more : List Nat) : List Nat :=
  (if argv.length = 2 then [1] else []) ++ if isQuery argv then [] else more

/-- The comparison comes before the test of `argc`. -/
def readsBAUDRATE : List Nat := 1 :: if isQuery argv then [] else checked argv 2 [digitAt argv 1] [1]

def readsNumber : List Nat := queried argv (checked argv 2 [digitAt argv 1] [1])

def readsLSLPT : List Nat :=
  checked argv 4 [digitAt argv 1, digitAt argv 2, digitAt argv 3, lengthAt argv 2 (· ≤ 3)] [1, 2, 3]

def readsPING : List Nat :=
  checked argv 3 [(1, isValidIp (arg argv 1)), digitAt argv 2, lengthAt argv 2 (· != 0)] [1, 2]

/-- The arguments are converted before they are checked; a station does not read the channel. -/
def readsWQSOPT : List Nat :=
  queried argv
    (if argv.length ≠ 6 then []
    else
      1 :: (if (atoi (arg argv 1)).toUInt8 = 0 then [] else [2]) ++ [3, 4, 5] ++
        (tests [digitAt argv 1, lengthAt argv 1 (· == 1), digitAt argv 2, lengthAt argv 2 (· ≤ 2), digitAt argv 3,
          lengthAt argv 3 (· == 1), digitAt argv 4, lengthAt argv 4 (· == 1), digitAt argv 5, lengthAt argv 5 (· == 1)]).1)

def readsWTXRATE : List Nat := queried argv (if argv.length = 2 then [1] else [])

def readsWSCANAP : List Nat :=
  if env.mallocOk then checked argv 2 [digitAt argv 1, lengthAt argv 1 (· != 0)] [1] else []

def readsWSBCN : List Nat :=
  queried argv
    (checked argv 3 [digitAt argv 1, digitAt argv 2, lengthAt argv 2 (· == 1)]
      (if g.sysParam.wifiCfg.protocol = 0 then [] else [1, 2]))

/-- The network mode decides whether the number of tries is read. -/
def readsWSCAP : List Nat :=
  queried argv
    (checked argv 4 [lengthAt argv 1 (· ≤ 32), lengthAt argv 1 (0 < ·), lengthAt argv 2 (· ≤ 64)]
      (if g.sysParam.wifiCfg.protocol = 0 then
        (tests [digitAt argv 3, lengthAt argv 3 (· != 0)]).1 ++
          if (tests [digitAt argv 3, lengthAt argv 3 (· != 0)]).2 then 3 :: if wscapTrytime argv then [1, 2] else [] else []
      else if g.sysParam.wifiCfg.protocol = 2 ∨ g.sysParam.wifiCfg.protocol = 1 then [1, 2] else []))

def readsWPHYMODE : List Nat := queried argv (checked argv 2 [digitAt argv 1, lengthAt argv 1 (· == 1)] [1])

/-- The parts get `argv` one further each, and two arguments. The address is
not read for a server, whose type the second part may just have stored. -/
def readsNQSCNN : List Nat :=
  queried argv
    (if argv.length = 5 then
      [1, 2, 3] ++ if (responseNTYPE (responseNMODE g (arg argv 1)).2 (arg argv 2)).2.userParam.socketType = 1 then [] else [4]
    else [])

def readsNLOCIP : List Nat :=
  queried argv
    (checked argv 4 [(1, isValidIp (arg argv 1))]
      ([2, 3] ++ if nlocipMode argv = true ∧ g.linked = false then [1] else []))

def readsPort : List Nat := checked argv 2 [digitAt argv 1] [1]

/-- `sendto` reads the text of the second argument. -/
def readsBCTTXDATA : List Nat :=
  checked argv 3 [digitAt argv 1]
    (1 :: if atoi (arg argv 1) ≤ 256 ∧ atoi (arg argv 1) ≠ 0 ∧ g.linked = true ∧ ¬g.broadcast.txSockfd < 0 then [2] else [])

/-- The arguments a handler reads; those not listed take none and only look at `argc`. -/
def handlerReads : Request → List Nat
  | .baudrate => readsBAUDRATE argv
  | .uartft | .uartfl => readsNumber argv
  | .lslpt => readsLSLPT argv
  | .ping => readsPING argv
  | .wqsopt => readsWQSOPT argv
  | .wphymode => readsWPHYMODE argv
  | .wtxrate => readsWTXRATE argv
  | .wscanap => readsWSCANAP env argv
  | .wsbcn => readsWSBCN g argv
  | .wscap => readsWSCAP g argv
  | .nqscnn => readsNQSCNN g argv
  | .nlocip => readsNLOCIP g argv
  | .bcttxstart | .bctrxstart => readsPort argv
  | .bcttxdata => readsBCTTXDATA g argv
  | .help | .ver | .sver | .save | .factory | .rst | .systime | .mslp | .ipconfig | .mac | .wsmtconf | .wstop
  | .wsaconf | .airkiss | .bcttxstop | .bctrxstop | .quit => []

/-- `processCommand` reads the name, and its handler the rest. -/
def commandReads : List Nat :=
  0 :: match stringTorequest (arg argv 0) with
    | some request => handlerReads env g argv request
    | none => []

end

/-! ## No handler but one reads too far -/

section
variable {env : Env} {g : Globals} {argv : List (List UInt8)} {n : Nat} {ts : List (Nat × Bool)} {more : List Nat}

def Passed (argc : Nat) (reads : List Nat) : Prop := ∀ i ∈ reads, i < argc

theorem passed_nil : Passed n [] := fun _ h => absurd h List.not_mem_nil

theorem passed_append {l l' : List Nat} : Passed n (l ++ l') ↔ Passed n l ∧ Passed n l' := List.forall_mem_append

theorem passed_ite {c : Prop} [Decidable c] {l l' : List Nat} (h : Passed n l) (h' : Passed n l') :
    Passed n (if c then l else l') := by
  split
  · exact h
  · exact h'

theorem passed_tests (h : ∀ t ∈ ts, t.1 < n) : Passed n (tests ts).1 := by
  induction ts with
  | nil => exact passed_nil
  | cons t ts ih =>
    have ht := h t List.mem_cons_self
    have ih := ih fun t ht => h t (List.mem_cons_of_mem _ ht)
    rw [tests]
    split
    · exact List.forall_mem_cons.mpr ⟨ht, ih⟩
    · exact List.forall_mem_singleton.mpr ht

theorem passed_checked (h : ∀ t ∈ ts, t.1 < n) (hm : Passed n more) : Passed argv.length (checked argv n ts more) := by
  rw [checked]
  split
  · exact passed_nil
  · rename_i hn
    rw [Decidable.of_not_not hn]
    exact passed_append.mpr ⟨passed_tests h, passed_ite hm passed_nil⟩

theorem passed_queried (h : Passed argv.length more) : Passed argv.length (queried argv more) := by
  rw [queried]
  refine passed_append.mpr ⟨?_, passed_ite passed_nil h⟩
  split
  · rename_i hn
    rw [hn]
    exact List.forall_mem_singleton.mpr (by decide)
  · exact passed_nil

theorem passed_number : Passed argv.length (checked argv 2 [digitAt argv 1] [1]) :=
  passed_checked (by simp [digitAt]) (by simp [Passed])

theorem readsBAUDRATE_passed : Passed argv.length (readsBAUDRATE argv) ↔ 2 ≤ argv.length := by
  rw [readsBAUDRATE]
  constructor
  · intro h
    exact h 1 List.mem_cons_self
  · intro h
    exact List.forall_mem_cons.mpr ⟨h, passed_ite passed_nil passed_number⟩

theorem readsLSLPT_passed : Passed argv.length (readsLSLPT argv) :=
  passed_checked (by simp [digitAt, lengthAt]) (by simp [Passed])

theorem readsPING_passed : Passed argv.length (readsPING argv) :=
  passed_checked (by simp [digitAt, lengthAt]) (by simp [Passed])

theorem readsWQSOPT_passed : Passed argv.length (readsWQSOPT argv) := by
  apply passed_queried
  split
  · exact passed_nil
  · rename_i hn
    rw [Decidable.of_not_not hn]
    refine passed_append.mpr ⟨passed_append.mpr ⟨List.forall_mem_cons.mpr ⟨by decide, ?_⟩, by simp [Passed]⟩, ?_⟩
    · exact passed_ite passed_nil (by simp [Passed])
    · exact passed_tests (by simp [digitAt, lengthAt])

theorem readsWTXRATE_passed : Passed argv.length (readsWTXRATE argv) := by
  apply passed_queried
  split
  · rename_i hn
    rw [hn]
    exact List.forall_mem_singleton.mpr (by decide)
  · exact passed_nil

theorem readsWSCANAP_passed : Passed argv.length (readsWSCANAP env argv) :=
  passed_ite (passed_checked (by simp [digitAt, lengthAt]) (by simp [Passed])) passed_nil

theorem readsWSBCN_passed : Passed argv.length (readsWSBCN g argv) :=
  passed_queried (passed_checked (by simp [digitAt, lengthAt]) (passed_ite passed_nil (by simp [Passed])))

theorem readsWSCAP_passed : Passed argv.length (readsWSCAP g argv) := by
  have hset : Passed 4 [1, 2] := by simp [Passed]
  have htry : Passed 4 (tests [digitAt argv 3, lengthAt argv 3 (· != 0)]).1 := passed_tests (by simp [digitAt, lengthAt])
  refine passed_queried (passed_checked (by simp [lengthAt]) ?_)
  refine passed_ite (passed_append.mpr ⟨htry, passed_ite ?_ passed_nil⟩) (passed_ite hset passed_nil)
  exact List.forall_mem_cons.mpr ⟨by decide, passed_ite hset passed_nil⟩

theorem readsWPHYMODE_passed : Passed argv.length (readsWPHYMODE argv) :=
  passed_queried (passed_checked (by simp [digitAt, lengthAt]) (by simp [Passed]))

theorem readsNQSCNN_passed : Passed argv.length (readsNQSCNN g argv) := by
  apply passed_queried
  split
  · rename_i hn
    rw [hn]
    exact passed_append.mpr ⟨by simp [Passed], passed_ite passed_nil (by simp [Passed])⟩
  · exact passed_nil

theorem readsNLOCIP_passed : Passed argv.length (readsNLOCIP g argv) :=
  passed_queried (passed_checked (by simp)
    (passed_append.mpr ⟨by simp [Passed], passed_ite (by simp [Passed]) passed_nil⟩))

theorem readsBCTTXDATA_passed : Passed argv.length (readsBCTTXDATA g argv) :=
  passed_checked (by simp [digitAt])
    (List.forall_mem_cons.mpr ⟨by decide, passed_ite (by simp [Passed]) passed_nil⟩)

/-- Every handler keeps to its arguments, save for the baud rate asked without any. -/
theorem handlerReads_passed (request : Request) :
    Passed argv.length (handlerReads env g argv request) ↔ (request = .baudrate → 2 ≤ argv.length) := by
  have hsafe : request ≠ .baudrate → Passed argv.length (handlerReads env g argv request) := by
    intro hr
    cases request with
    | baudrate => exact absurd rfl hr
    | uartft | uartfl => exact passed_queried passed_number
    | lslpt => exact readsLSLPT_passed
    | ping => exact readsPING_passed
    | wqsopt => exact readsWQSOPT_passed
    | wphymode => exact readsWPHYMODE_passed
    | wtxrate => exact readsWTXRATE_passed
    | wscanap => exact readsWSCANAP_passed
    | wsbcn => exact readsWSBCN_passed
    | wscap => exact readsWSCAP_passed
    | nqscnn => exact readsNQSCNN_passed
    | nlocip => exact readsNLOCIP_passed
    | bcttxstart | bctrxstart => exact passed_number
    | bcttxdata => exact readsBCTTXDATA_passed
    | help | ver | sver | save | factory | rst | systime | mslp | ipconfig | mac | wsmtconf | wstop | wsaconf
    | airkiss | bcttxstop | bctrxstop | quit => exact passed_nil
  constructor
  · rintro h rfl
    exact readsBAUDRATE_passed.mp h
  · intro h
    by_cases hr : request = .baudrate
    · subst hr
      exact readsBAUDRATE_passed.mpr (h rfl)
    · exact hsafe hr

theorem commandReads_passed (h0 : argv ≠ []) : Passed argv.length (commandReads env g argv) ↔
    (stringTorequest (arg argv 0) = some .baudrate → 2 ≤ argv.length) := by
  have hpos := List.length_pos_iff.mpr h0
  rw [commandReads, Passed, List.forall_mem_cons, and_iff_right hpos]
  cases hr : stringTorequest (arg argv 0) with
  | none => exact ⟨fun _ => nofun, fun _ => passed_nil⟩
  | some request =>
    simp only [Option.some.injEq]
    exact handlerReads_passed request

end

/-! ## The pieces -/

section
variable {m m' : Nat → UInt8} {a k n : Nat} {delim : UInt8} {t w r : List UInt8}

theorem splitComma_last (h : 44 ∉ w) : splitComma w = [w] := by
  induction w with
  | nil => rfl
  | cons c w ih =>
    rw [List.mem_cons, not_or] at h
    have hc : (c == 44) = false := beq_eq_false_iff_ne.mpr (Ne.symm h.1)
    simp only [splitComma, hc, ih h.2]
    rfl

theorem splitComma_cut (h : 44 ∉ w) : splitComma (w ++ 44 :: r) = w :: splitComma r := by
  induction w with
  | nil => rfl
  | cons c w ih =>
    rw [List.mem_cons, not_or] at h
    have hc : (c == 44) = false := beq_eq_false_iff_ne.mpr (Ne.symm h.1)
    simp only [List.cons_append, splitComma, hc, ih h.2]
    rfl

theorem cut_cases (c : UInt8) (t : List UInt8) : c ∉ t ∨ ∃ w r, t = w ++ c :: r ∧ c ∉ w := by
  induction t with
  | nil => exact .inl List.not_mem_nil
  | cons d t ih =>
    by_cases hd : c = d
    · exact .inr ⟨[], t, by rw [hd, List.nil_append], List.not_mem_nil⟩
    · rcases ih with h | ⟨w, r, rfl, hw⟩
      · exact .inl (by rw [List.mem_cons, not_or]; exact ⟨hd, h⟩)
      · exact .inr ⟨d :: w, r, rfl, by rw [List.mem_cons, not_or]; exact ⟨hd, hw⟩⟩

/-- The text is its pieces with commas between them, and no piece holds one. -/
theorem splitComma_join : ∀ (k : Nat) (t : List UInt8), t.length ≤ k →
    (∀ q ∈ splitComma t, 44 ∉ q) ∧ [44].intercalate (splitComma t) = t ∧ (splitComma t).length = t.count 44 + 1
  | k, t, hk => by
    rcases cut_cases 44 t with h | ⟨w, r, rfl, hw⟩
    · rw [splitComma_last h, List.count_eq_zero.mpr h]
      exact ⟨fun q hq => by rwa [List.mem_singleton.mp hq], by simp [List.intercalate], rfl⟩
    · cases k with
      | zero => simp at hk
      | succ k =>
        obtain ⟨hfree, hjoin, hlen⟩ := splitComma_join k r (by simp at hk; omega)
        rw [splitComma_cut hw]
        refine ⟨fun q hq => ?_, ?_, ?_⟩
        · rcases List.mem_cons.mp hq with rfl | hq
          · exact hw
          · exact hfree q hq
        · cases hs : splitComma r with
          | nil => rw [hs] at hlen; cases hlen
          | cons q qs =>
            rw [hs] at hjoin
            rw [List.intercalate_cons_cons, hjoin]
            simp
        · rw [List.length_cons, hlen, List.count_append, List.count_cons_self, List.count_eq_zero.mpr hw]
          omega

theorem splitComma_le : ∀ (k : Nat) (t : List UInt8), t.length ≤ k → ∀ q ∈ splitComma t, q.length ≤ t.length
  | k, t, hk, q, hq => by
    rcases cut_cases 44 t with h | ⟨w, r, rfl, hw⟩
    · rw [splitComma_last h] at hq
      exact Nat.le_of_eq (congrArg _ (List.mem_singleton.mp hq))
    · rw [List.length_append, List.length_cons] at hk ⊢
      cases k with
      | zero => omega
      | succ k =>
        rw [splitComma_cut hw] at hq
        rcases List.mem_cons.mp hq with rfl | hq
        · exact Nat.le_add_right _ _
        · have := splitComma_le k r (by omega) q hq
          omega

/-! ## The text in memory -/

theorem strsepStop_eq (hw : ∀ i, i < k → m (a + i) ≠ delim ∧ m (a + i) ≠ 0) (hk : m (a + k) = delim ∨ m (a + k) = 0)
    (hn : k ≤ n) : strsepStop m delim n a = a + k := by
  induction n generalizing a k with
  | zero => rw [strsepStop, Nat.le_zero.mp hn, Nat.add_zero]
  | succ n ih =>
    rw [strsepStop]
    cases k with
    | zero => exact if_pos hk
    | succ k =>
      have h0 := hw 0 (Nat.succ_pos k)
      rw [if_neg (by rw [not_or]; exact h0)]
      rw [ih (k := k) (fun i hi => by have := hw (i + 1) (by omega); rwa [show a + (i + 1) = a + 1 + i by omega] at this)
        (by rwa [show a + (k + 1) = a + 1 + k by omega] at hk) (by omega)]
      omega

theorem strsep_last (h : Holds m a t) (hd : delim ∉ t) (hn : t.length ≤ n) :
    strsep n m delim (some a) = ⟨some a, m, none⟩ := by
  have hstop : strsepStop m delim n a = a + t.length := by
    refine strsepStop_eq (fun i hi => ?_) (.inr h.ended) hn
    rw [h.char hi]
    exact ⟨fun he => hd (he ▸ List.getElem_mem hi), fun he => h.nonzero (he ▸ List.getElem_mem hi)⟩
  simp only [strsep, hstop, h.ended, if_true]

/-- Cutting at the delimiter ends the token there and leaves the rest behind it. -/
theorem strsep_cut (h : Holds m a (w ++ delim :: r)) (hd : delim ∉ w) (hn : w.length ≤ n) :
    strsep n m delim (some a) = ⟨some a, patch m (a + w.length) [0], some (a + w.length + 1)⟩ ∧
      Holds (patch m (a + w.length) [0]) a w ∧ Holds (patch m (a + w.length) [0]) (a + w.length + 1) r := by
  have hdelim : m (a + w.length) = delim := by
    rw [h.char (by simp)]
    simp
  have hchar : ∀ i (hi : i < w.length), m (a + i) = w[i] := fun i hi => by
    rw [h.char (by rw [List.length_append]; omega), List.getElem_append_left hi]
  have hnz : ∀ c ∈ w ++ delim :: r, c ≠ 0 := fun c hc he => h.nonzero (he ▸ hc)
  have hstop : strsepStop m delim n a = a + w.length := by
    refine strsepStop_eq (fun i hi => ?_) (.inl hdelim) hn
    rw [hchar i hi]
    exact ⟨fun he => hd (he ▸ List.getElem_mem hi), hnz _ (List.mem_append_left _ (List.getElem_mem hi))⟩
  refine ⟨?_, ⟨?_, ?_, ?_⟩, ⟨?_, ?_, ?_⟩⟩
  · simp only [strsep, hstop, hdelim]
    rw [if_neg (hnz delim (by simp))]
  · refine List.ext_getElem length_read fun i hi hi' => ?_
    rw [getElem_read, patch_below (by omega), hchar i hi']
  · exact fun h0 => hnz 0 (List.mem_append_left _ h0) rfl
  · exact patch_inside (i := 0) (by decide)
  · refine List.ext_getElem length_read fun i hi hi' => ?_
    rw [getElem_read, patch_above (by rw [List.length_singleton]; omega), show a + w.length + 1 + i = a + (w.length + 1 + i) by omega,
      h.char (by rw [List.length_append, List.length_cons]; omega), List.getElem_append_right (by omega)]
    simp only [show w.length + 1 + i - w.length = i + 1 by omega, List.getElem_cons_succ]
  · exact fun h0 => hnz 0 (by simp [h0]) rfl
  · have he := h.ended
    rw [List.length_append, List.length_cons] at he
    rw [patch_above (by rw [List.length_singleton]; omega), show a + w.length + 1 + r.length = a + (w.length + (r.length + 1)) by omega]
    exact he

def Pieces (m : Nat → UInt8) (ptrs : List Nat) (pieces : List (List UInt8)) : Prop :=
  List.Forall₂ (fun a w => Holds m a w) ptrs pieces

/-- The loop collects every piece and the null pointer, and changes nothing in front of the text. -/
theorem splitLoop_spec : ∀ (fuel : Nat) (m : Nat → UInt8) (a : Nat) (argv : List (Option Nat)) (t : List UInt8),
    Holds m a t → t.length ≤ n → t.length + 2 ≤ fuel →
    ∃ ptrs m', splitLoop n fuel ⟨m, some a, argv⟩ = ⟨m', none, argv ++ ptrs.map some ++ [none]⟩ ∧
      Pieces m' ptrs (splitComma t) ∧ ∀ x, x < a → m' x = m x
  | 0, m, a, argv, t, _, _, hf => by omega
  | fuel + 1, m, a, argv, t, h, hn, hf => by
    rcases cut_cases 44 t with hc | ⟨w, r, rfl, hw⟩
    · refine ⟨[a], m, ?_, ?_, fun _ _ => rfl⟩
      · cases fuel with
        | zero => omega
        | succ fuel =>
          have hlast : strsep n m 44 none = ⟨none, m, none⟩ := rfl
          simp only [splitLoop, strsep_last h hc hn, hlast, Option.isNone_some, Option.isNone_none, Bool.false_eq_true,
            if_false, if_true]
          simp
      · rw [splitComma_last hc]
        exact .cons h .nil
    · simp only [List.length_append, List.length_cons] at hn hf
      obtain ⟨hsep, hw', hr⟩ := strsep_cut h hw (n := n) (by omega)
      obtain ⟨ptrs, m', hloop, hpieces, hframe⟩ :=
        splitLoop_spec fuel _ (a + w.length + 1) (argv ++ [some a]) r hr (by omega) (by omega)
      refine ⟨a :: ptrs, m', ?_, ?_, fun x hx => ?_⟩
      · simp only [splitLoop, hsep, Option.isNone_some, Bool.false_eq_true, if_false, hloop]
        simp
      · rw [splitComma_cut hw]
        exact .cons (hw'.congr fun i hi => hframe _ (by omega)) hpieces
      · rw [hframe x (by omega), patch_below (by omega)]

theorem Pieces.read {ptrs : List Nat} {pieces : List (List UInt8)} (h : Pieces m ptrs pieces)
    (hn : ∀ w ∈ pieces, w.length ≤ n) : ptrs.map (fun a => read m a (strlen m a (n + 1))) = pieces := by
  induction h with
  | nil => rfl
  | cons hw _ ih =>
    rw [List.map_cons, hw.read_strlen (Nat.lt_succ_of_le (hn _ List.mem_cons_self)),
      ih fun w hw => hn w (List.mem_cons_of_mem _ hw)]

theorem dropWhile_whole (h : 61 ∉ t) : t.dropWhile (· != 61) = [] :=
  List.dropWhile_eq_nil_iff.mpr fun _ hc => bne_iff_ne.mpr fun he => h (he ▸ hc)

theorem dropWhile_cut (h : 61 ∉ w) : (w ++ 61 :: r).dropWhile (· != 61) = 61 :: r := by
  have hall : ∀ c ∈ w, (c != 61) = true := fun c hc => bne_iff_ne.mpr fun he => h (he ▸ hc)
  rw [List.dropWhile_append_of_pos hall]
  rfl

theorem parseParameter_whole (h : 61 ∉ t) : parseParameter t = [t] := by
  simp only [parseParameter, dropWhile_whole h]

theorem parseParameter_cut (h : 61 ∉ w) : parseParameter (w ++ 61 :: r) = w :: splitComma r := by
  have ht : (w ++ 61 :: r).takeWhile (· != 61) = w := by
    have hall : ∀ c ∈ w, (c != 61) = true := fun c hc => bne_iff_ne.mpr fun he => h (he ▸ hc)
    rw [List.takeWhile_append_of_pos hall]
    simp
  simp only [parseParameter, dropWhile_cut h, ht]

/-- In place the pieces are those of the text; behind an `=` the null pointer is stored as well. -/
theorem parseParameterAt_spec (h : Holds m a t) (hn : t.length ≤ n) :
    (parseParameterAt n m a).args n = parseParameter t ∧
      (parseParameterAt n m a).argv.length = if 61 ∈ t then (parseParameter t).length + 1 else 1 := by
  rcases cut_cases 61 t with hc | ⟨w, r, rfl, hw⟩
  · rw [parseParameter_whole hc, if_neg hc]
    simp only [parseParameterAt, strsep_last h hc hn]
    refine ⟨?_, rfl⟩
    show [read m a (strlen m a (n + 1))] = [t]
    rw [h.read_strlen (Nat.lt_succ_of_le hn)]
  · simp only [List.length_append, List.length_cons] at hn
    obtain ⟨hsep, hname, hr⟩ := strsep_cut h hw (n := n) (by omega)
    obtain ⟨ptrs, m', hloop, hpieces, hframe⟩ := splitLoop_spec (n := n) (n + 2) _ _ [some a] r hr (by omega) (by omega)
    have hlen : ptrs.length = (splitComma r).length := hpieces.length_eq
    have hshort : ∀ q ∈ splitComma r, q.length ≤ n := fun q hq =>
      Nat.le_trans (splitComma_le r.length r (Nat.le_refl _) q hq) (by omega)
    rw [parseParameter_cut hw, if_pos (by simp)]
    simp only [parseParameterAt, hsep, Option.isSome_some, if_true, hloop]
    constructor
    · have hname' : Holds m' a w := hname.congr fun i hi => hframe _ (by omega)
      have hptrs : ([some a] ++ ptrs.map some ++ [none]).reduceOption = a :: ptrs := by
        change ([some a] ++ ptrs.map some ++ [none]).filterMap id = a :: ptrs
        simp [List.filterMap_append]
      simp only [Splitter.args, hptrs, List.map_cons]
      rw [hname'.read_strlen (by omega), hpieces.read hshort]
    · simp [hlen]

end

/-! ## The command line -/

/-- The arguments are the text up to the first `=` and the pieces between the commas behind it. -/
def Splits (t : List UInt8) (args : List (List UInt8)) : Prop :=
  (61 ∉ t ∧ args = [t]) ∨ ∃ name pieces, args = name :: pieces ∧ pieces ≠ [] ∧ 61 ∉ name ∧ (∀ q ∈ pieces, 44 ∉ q) ∧
    t = name ++ 61 :: [44].intercalate pieces

theorem parseParameter_splits (t : List UInt8) : Splits t (parseParameter t) := by
  rcases cut_cases 61 t with hc | ⟨w, r, rfl, hw⟩
  · exact .inl ⟨hc, parseParameter_whole hc⟩
  · obtain ⟨hfree, hjoin, hlen⟩ := splitComma_join r.length r (Nat.le_refl _)
    refine .inr ⟨w, splitComma r, parseParameter_cut hw, fun h0 => ?_, hw, hfree, by rw [hjoin]⟩
    rw [h0] at hlen
    cases hlen

def commas (t : List UInt8) : Nat := (t.dropWhile (· != 61)).count 44

theorem parseParameter_length (t : List UInt8) : (parseParameter t).length = if 61 ∈ t then commas t + 2 else 1 := by
  rcases cut_cases 61 t with hc | ⟨w, r, rfl, hw⟩
  · rw [parseParameter_whole hc, if_neg hc]
    rfl
  · rw [parseParameter_cut hw, if_pos (by simp), List.length_cons, (splitComma_join r.length r (Nat.le_refl _)).2.2, commas,
      dropWhile_cut hw, List.count_cons_of_ne (by decide)]

/-- The pointers that are stored, the null pointer of the last call with them. -/
def argvStored (t : List UInt8) : Nat := if 61 ∈ t then (parseParameter t).length + 1 else 1

/-- No pointer is stored behind the array, and none is read that was not stored. -/
structure ArgvInside (env : Env) (g : Globals) (t : List UInt8) : Prop where
  stored : argvStored t ≤ maxSingleParameter
  passed : Passed (parseParameter t).length (commandReads env g (parseParameter t))

/-- At most 47 commas behind the `=`, and no baud rate command without one. -/
def ArgvFits (t : List UInt8) : Prop := commas t ≤ 47 ∧ ¬(61 ∉ t ∧ stringTorequest t = some .baudrate)

theorem argvStored_eq (t : List UInt8) : argvStored t = if 61 ∈ t then commas t + 3 else 1 := by
  rw [argvStored, parseParameter_length]
  split
  · rfl
  · rfl

theorem commas_whole {t : List UInt8} (h : 61 ∉ t) : commas t = 0 := by
  rw [commas, dropWhile_whole h]
  rfl

theorem argvStored_le_iff (t : List UInt8) : argvStored t ≤ maxSingleParameter ↔ commas t ≤ 47 := by
  rw [argvStored_eq, maxSingleParameter]
  by_cases hc : 61 ∈ t
  · rw [if_pos hc]
    omega
  · rw [if_neg hc, commas_whole hc]
    omega

theorem passed_iff (env : Env) (g : Globals) (t : List UInt8) :
    Passed (parseParameter t).length (commandReads env g (parseParameter t)) ↔
      ¬(61 ∉ t ∧ stringTorequest t = some .baudrate) := by
  have hlen := parseParameter_length t
  have hne : parseParameter t ≠ [] := fun h0 => by
    rw [h0] at hlen
    split at hlen <;> cases hlen
  have hpassed := @commandReads_passed env g _ hne
  by_cases hc : 61 ∈ t
  · rw [if_pos hc] at hlen
    exact iff_of_true (hpassed.mpr fun _ => by omega) fun hb => hb.1 hc
  · rw [hpassed, parseParameter_whole hc]
    exact ⟨fun h hb => absurd (h hb.2) (by simp), fun h hb => absurd ⟨hc, hb⟩ h⟩

theorem argvInside_iff (env : Env) (g : Globals) (t : List UInt8) : ArgvInside env g t ↔ ArgvFits t := by
  rw [ArgvFits, ← argvStored_le_iff, ← passed_iff env g]
  exact ⟨fun h => ⟨h.stored, h.passed⟩, fun h => ⟨h.1, h.2⟩⟩

/-- What is asked of one command: the array holds the pointers, the pieces are
the text's, and no argument is read that was not passed. -/
structure CommandSpec (env : Env) (g : Globals) (n : Nat) (t : List UInt8) (s : Splitter) : Prop where
  stored : s.argv.length ≤ maxSingleParameter
  splits : Splits t (s.args n)
  passed : Passed (s.args n).length (commandReads env g (s.args n))

/-- A command text is taken apart as it should be exactly when at most 47 commas follow its `=` and it
is not a baud rate command without one. -/
theorem command_arguments (env : Env) (g : Globals) {m : Nat → UInt8} {a n : Nat} {t : List UInt8} (h : Holds m a t)
    (hn : t.length ≤ n) : CommandSpec env g n t (parseParameterAt n m a) ↔
      commas t ≤ 47 ∧ ¬(61 ∉ t ∧ stringTorequest t = some .baudrate) := by
  obtain ⟨hargs, hstored⟩ := parseParameterAt_spec h hn
  rw [← argvStored] at hstored
  refine Iff.trans ?_ (argvInside_iff env g t)
  constructor
  · intro hs
    exact ⟨hstored ▸ hs.stored, hargs ▸ hs.passed⟩
  · intro hi
    refine ⟨hstored ▸ hi.stored, ?_, ?_⟩
    · rw [hargs]
      exact parseParameter_splits t
    · rw [hargs]
      exact hi.passed

theorem holds_stored {t : List UInt8} (h0 : 0 ∉ t) : Holds (patch (fun _ => 0) 0 t) 0 t :=
  ⟨read_patch, h0, by rw [patch_above (by omega)]⟩

theorem command_arguments_nqscnn :
    CommandSpec sampleEnv (Globals.factory sampleEnv) 200 (bytes "NQSCNN=1,0,80,10.0.0.1")
      (parseParameterAt 200 (patch (fun _ => 0) 0 (bytes "NQSCNN=1,0,80,10.0.0.1")) 0) :=
  (command_arguments sampleEnv (Globals.factory sampleEnv) (holds_stored (by decide)) (by decide)).mpr
    ⟨by decide, fun h => absurd h.1 (by decide)⟩

/-- The bare command compares an argument that was not passed, and 48 commas overrun the array. -/
theorem baudrate_reads_ahead :
    1 ∈ commandReads sampleEnv (Globals.factory sampleEnv) [bytes "BAUDRATE"] ∧
      ¬CommandSpec sampleEnv (Globals.factory sampleEnv) 200 (bytes "BAUDRATE")
        (parseParameterAt 200 (patch (fun _ => 0) 0 (bytes "BAUDRATE")) 0) ∧
      ¬CommandSpec sampleEnv (Globals.factory sampleEnv) 200 (bytes "PING=" ++ List.replicate 48 44)
        (parseParameterAt 200 (patch (fun _ => 0) 0 (bytes "PING=" ++ List.replicate 48 44)) 0) := by
  have hread : 1 ∈ commandReads sampleEnv (Globals.factory sampleEnv) [bytes "BAUDRATE"] := by decide
  refine ⟨hread, fun h => ?_, fun h => ?_⟩
  · have hargs := (parseParameterAt_spec (n := 200) (holds_stored (t := bytes "BAUDRATE") (by decide)) (by decide)).1
    have hpassed := h.passed
    rw [hargs, parseParameter_whole (by decide)] at hpassed
    exact absurd (hpassed 1 hread) (by decide)
  · have hstored := (parseParameterAt_spec (n := 200)
      (holds_stored (t := bytes "PING=" ++ List.replicate 48 44) (by decide)) (by decide)).2
    have h50 := h.stored
    rw [hstored, if_pos (by decide), parseParameter_length, if_pos (by decide)] at h50
    exact absurd h50 (by decide)

end SerialNet.Param
