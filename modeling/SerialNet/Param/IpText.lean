import Mathlib.Data.List.Basic
import Mathlib.Tactic.IntervalCases
import SerialNet.Param.AtAtomic

/-!
# Addresses as text

`is_valid_ip` and `inet_aton` on the four sections of an address. The first
counts in a word that wraps and takes a missing section for 0, the second reads
a section after `0` as octal.
-/

namespace SerialNet.Param

/-! ## Numbers in a base -/

def numberFrom (base n : Nat) : List UInt8 → Nat
  | [] => n
  | c :: s => numberFrom base (n * base + (c - 48).toNat) s

/-- What `inet_aton` makes of a section, before the word wraps. -/
def partNumber (sec : List UInt8) : Nat := numberFrom (if sec.head? = some 48 then 8 else 10) 0 sec

section
variable {base n : Nat} {s : List UInt8} {c : UInt8}

theorem decimalFrom_eq : decimalFrom n s = numberFrom 10 n s := by
  induction s generalizing n with
  | nil => rfl
  | cons c s ih => exact ih

theorem numberFrom_snoc : numberFrom base n (s ++ [c]) = numberFrom base n s * base + (c - 48).toNat := by
  induction s generalizing n with
  | nil => rfl
  | cons d s ih => exact ih

theorem numberFrom_mono {base' n' : Nat} (hb : base ≤ base') (hn : n ≤ n') : numberFrom base n s ≤ numberFrom base' n' s := by
  induction s generalizing n n' with
  | nil => exact hn
  | cons c s ih => exact ih (Nat.add_le_add_right (Nat.mul_le_mul hn hb) _)

theorem partNumber_le : partNumber s ≤ decimal s := by
  rw [partNumber, decimal, decimalFrom_eq]
  apply numberFrom_mono _ (Nat.le_refl 0)
  split
  · decide
  · exact Nat.le_refl 10

theorem digit_le (h : isDigit c = true) : (c - 48).toNat ≤ 9 := by
  revert h
  exact forall_byte (P := fun c => isDigit c = true → (c - 48).toNat ≤ 9) (by decide +kernel) c

/-- Octal and decimal agree on one digit behind zeros. -/
theorem partNumber_eq_iff (h : allDigits s = true) : partNumber s = decimal s ↔ (s.head? = some 48 → decimal s ≤ 9) := by
  rw [partNumber, decimal, decimalFrom_eq]
  by_cases h0 : s.head? = some 48
  · rw [if_pos h0]
    simp only [h0, true_implies]
    rcases List.eq_nil_or_concat s with rfl | ⟨init, d, rfl⟩
    · simp [numberFrom]
    · have hd : (d - 48).toNat ≤ 9 := by
        simp only [allDigits, List.all_append, List.all_cons, List.all_nil, Bool.and_true, Bool.and_eq_true,
          List.concat_eq_append] at h
        exact digit_le h.2
      have hle : numberFrom 8 0 init ≤ numberFrom 10 0 init := numberFrom_mono (by decide) (Nat.le_refl 0)
      rw [List.concat_eq_append, numberFrom_snoc, numberFrom_snoc]
      omega
  · rw [if_neg h0]
    simp [h0]

end

/-! ## is_valid_ip -/

section
variable {sec : UInt32} {dot : Nat} {ds rest s : List UInt8}

theorem isValidIpFrom_digits (h : allDigits ds = true) :
    isValidIpFrom sec dot (ds ++ rest) = isValidIpFrom (atoiFrom sec ds) dot rest := by
  induction ds generalizing sec with
  | nil => rfl
  | cons c ds ih =>
    simp only [allDigits, List.all_cons, Bool.and_eq_true] at h
    have hc : (c == 46) = false := by
      apply beq_eq_false_iff_ne.mpr
      rintro rfl
      exact absurd h.1 (by decide)
    rw [List.cons_append, isValidIpFrom, hc, if_neg Bool.false_ne_true, if_pos h.1, ih h.2, atoiFrom, if_pos h.1]

theorem digits_then (s : List UInt8) :
    allDigits s = true ∨ ∃ ds c t, s = ds ++ c :: t ∧ allDigits ds = true ∧ isDigit c = false := by
  induction s with
  | nil => exact .inl rfl
  | cons c s ih =>
    cases hc : isDigit c with
    | false => exact .inr ⟨[], c, s, rfl, rfl, hc⟩
    | true =>
      rcases ih with h | ⟨ds, d, t, rfl, hds, hd⟩
      · left
        simp only [allDigits, List.all_cons, Bool.and_eq_true]
        exact ⟨hc, h⟩
      · right
        refine ⟨c :: ds, d, t, rfl, ?_, hd⟩
        simp only [allDigits, List.all_cons, Bool.and_eq_true]
        exact ⟨hc, hds⟩

theorem isValidIpFrom_last : isValidIpFrom 0 3 s = true ↔ allDigits s = true ∧ atoi s ≤ 255 ∧ atoi s ≠ 0 := by
  rcases digits_then s with h | ⟨ds, c, t, rfl, hds, hc⟩
  · have hs := @isValidIpFrom_digits 0 3 s [] h
    rw [List.append_nil] at hs
    rw [hs]
    simp only [isValidIpFrom, atoi, h, true_and, beq_self_eq_true, Bool.and_true, Bool.and_eq_true, decide_eq_true_eq]
    rw [and_comm, UInt32.pos_iff_ne_zero]
  · rw [isValidIpFrom_digits hds]
    have hno : allDigits (ds ++ c :: t) = false := by simp [allDigits, hc]
    simp [isValidIpFrom, hno, hc]

theorem digits_inj {c c' : UInt8} {rest' : List UInt8} (hc : isDigit c = false) (hc' : isDigit c' = false) :
    ∀ {ds ds' : List UInt8}, allDigits ds = true → allDigits ds' = true → ds ++ c :: rest = ds' ++ c' :: rest' →
      ds = ds' ∧ c = c' ∧ rest = rest'
  | [], [], _, _, heq => ⟨rfl, List.cons.inj heq⟩
  | [], d :: ds', _, h', heq => by
    simp only [allDigits, List.all_cons, Bool.and_eq_true] at h'
    rw [(List.cons.inj heq).1, h'.1] at hc
    cases hc
  | d :: ds, [], h, _, heq => by
    simp only [allDigits, List.all_cons, Bool.and_eq_true] at h
    rw [← (List.cons.inj heq).1, h.1] at hc'
    cases hc'
  | d :: ds, d' :: ds', h, h', heq => by
    simp only [allDigits, List.all_cons, Bool.and_eq_true] at h h'
    obtain ⟨rfl, ht⟩ := List.cons.inj heq
    obtain ⟨rfl, hrest⟩ := digits_inj hc hc' h.2 h'.2 ht
    exact ⟨rfl, hrest⟩

theorem section_inj {ds' rest' : List UInt8} (h : allDigits ds = true) (h' : allDigits ds' = true)
    (heq : ds ++ 46 :: rest = ds' ++ 46 :: rest') : ds = ds' ∧ rest = rest' := by
  obtain ⟨hd, -, hr⟩ := digits_inj (by decide) (by decide) h h' heq
  exact ⟨hd, hr⟩

theorem isValidIpFrom_dot (h : dot < 3) : isValidIpFrom 0 dot s = true ↔
    ∃ ds t, s = ds ++ 46 :: t ∧ allDigits ds = true ∧ atoi ds ≤ 255 ∧ isValidIpFrom 0 (dot + 1) t = true := by
  rcases digits_then s with hs | ⟨ds, c, t, rfl, hds, hc⟩
  · have he := @isValidIpFrom_digits 0 dot s [] hs
    rw [List.append_nil] at he
    have hdot : (dot == 3) = false := by simpa using Nat.ne_of_lt h
    rw [he]
    simp only [isValidIpFrom, hdot, Bool.and_false, Bool.false_eq_true, false_iff]
    rintro ⟨ds, t, rfl, -⟩
    simp [allDigits, isDigit] at hs
  · rw [isValidIpFrom_digits hds]
    by_cases h46 : c = 46
    · subst h46
      have hturn : isValidIpFrom (atoiFrom 0 ds) dot (46 :: t) =
          if atoi ds ≤ 255 then isValidIpFrom 0 (dot + 1) t else false := by
        rw [isValidIpFrom, if_pos (by decide), if_neg (by omega)]
        rfl
      rw [hturn]
      constructor
      · intro hv
        split at hv
        · rename_i hle
          exact ⟨ds, t, rfl, hds, hle, hv⟩
        · cases hv
      · rintro ⟨ds', t', heq, hds', hle, hv⟩
        obtain ⟨rfl, rfl⟩ := section_inj hds hds' heq
        rw [if_pos hle]
        exact hv
    · have hturn : isValidIpFrom (atoiFrom 0 ds) dot (c :: t) = false := by
        simp [isValidIpFrom, h46, hc]
      rw [hturn]
      constructor
      · intro hv
        cases hv
      · rintro ⟨ds', t', heq, hds', -⟩
        exact absurd (digits_inj hc (by decide) hds hds' heq).2.1 h46

def quad (a b c d : List UInt8) : List UInt8 := a ++ 46 :: (b ++ 46 :: (c ++ 46 :: d))

/-- The sections of an address that is accepted, with the words their values wrap to. -/
structure Reached (a b c d : List UInt8) : Prop where
  digits : ∀ sec ∈ [a, b, c, d], allDigits sec = true
  small : ∀ sec ∈ [a, b, c, d], decimal sec % 2 ^ 32 ≤ 255
  last : decimal d % 2 ^ 32 ≠ 0

theorem quad_inj {a b c d a' b' c' d' : List UInt8} (h : ∀ sec ∈ [a, b, c, d], allDigits sec = true)
    (h' : ∀ sec ∈ [a', b', c', d'], allDigits sec = true) (heq : quad a b c d = quad a' b' c' d') :
    a = a' ∧ b = b' ∧ c = c' ∧ d = d' := by
  simp only [List.forall_mem_cons] at h h'
  obtain ⟨rfl, hbcd⟩ := section_inj h.1 h'.1 heq
  obtain ⟨rfl, hcd⟩ := section_inj h.2.1 h'.2.1 hbcd
  obtain ⟨rfl, rfl⟩ := section_inj h.2.2.1 h'.2.2.1 hcd
  exact ⟨rfl, rfl, rfl, rfl⟩

theorem atoi_le_iff (h : allDigits s = true) : atoi s ≤ 255 ↔ decimal s % 2 ^ 32 ≤ 255 := by
  rw [atoi_decimal h, UInt32.le_iff_toNat_le, UInt32.toNat_ofNat']
  rfl

theorem atoi_ne_zero_iff (h : allDigits s = true) : atoi s ≠ 0 ↔ decimal s % 2 ^ 32 ≠ 0 := by
  rw [atoi_decimal h, ne_eq, ← UInt32.toNat_inj, UInt32.toNat_ofNat']
  rfl

theorem isValidIp_iff : isValidIp s = true ↔ ∃ a b c d, s = quad a b c d ∧ Reached a b c d := by
  constructor
  · intro hv
    obtain ⟨a, t, rfl, ha, hla, hv⟩ := (isValidIpFrom_dot (by decide)).mp hv
    obtain ⟨b, t, rfl, hb, hlb, hv⟩ := (isValidIpFrom_dot (by decide)).mp hv
    obtain ⟨c, d, rfl, hc, hlc, hv⟩ := (isValidIpFrom_dot (by decide)).mp hv
    obtain ⟨hd, hld, hnz⟩ := isValidIpFrom_last.mp hv
    refine ⟨a, b, c, d, rfl, ?_, ?_, (atoi_ne_zero_iff hd).mp hnz⟩
    · simp only [List.forall_mem_cons]
      exact ⟨ha, hb, hc, hd, fun _ h => absurd h List.not_mem_nil⟩
    · simp only [List.forall_mem_cons]
      exact ⟨(atoi_le_iff ha).mp hla, (atoi_le_iff hb).mp hlb, (atoi_le_iff hc).mp hlc, (atoi_le_iff hd).mp hld,
        fun _ h => absurd h List.not_mem_nil⟩
  · rintro ⟨a, b, c, d, rfl, hdig, hsmall, hlast⟩
    simp only [List.forall_mem_cons] at hdig hsmall
    obtain ⟨ha, hb, hc, hd, -⟩ := hdig
    obtain ⟨hla, hlb, hlc, hld, -⟩ := hsmall
    apply (isValidIpFrom_dot (by decide)).mpr
    refine ⟨a, _, rfl, ha, (atoi_le_iff ha).mpr hla, (isValidIpFrom_dot (by decide)).mpr ?_⟩
    refine ⟨b, _, rfl, hb, (atoi_le_iff hb).mpr hlb, (isValidIpFrom_dot (by decide)).mpr ?_⟩
    refine ⟨c, d, rfl, hc, (atoi_le_iff hc).mpr hlc, isValidIpFrom_last.mpr ?_⟩
    exact ⟨hd, (atoi_le_iff hd).mpr hld, (atoi_ne_zero_iff hd).mpr hlast⟩

end

/-! ## inet_aton -/

section
variable {rest ds sec : List UInt8}

theorem atonDigits_digits (hrest : rest = [] ∨ ∃ t, rest = 46 :: t) (base n : Nat) (h : allDigits ds = true) :
    atonDigits (UInt32.ofNat base) (UInt32.ofNat n) (ds ++ rest) = (UInt32.ofNat (numberFrom base n ds), rest) := by
  induction ds generalizing n with
  | nil =>
    rcases hrest with rfl | ⟨t, rfl⟩
    · rfl
    · have hd : isDigit 46 = false := by decide
      have hx : isXDigit 46 = false := by decide
      simp only [List.nil_append, atonDigits, hd, hx, Bool.and_false, Bool.false_eq_true, if_false, numberFrom]
  | cons c ds ih =>
    simp only [allDigits, List.all_cons, Bool.and_eq_true] at h
    have hstep : UInt32.ofNat n * UInt32.ofNat base + (c - 48).toUInt32 = UInt32.ofNat (n * base + (c - 48).toNat) := by
      rw [UInt32.ofNat_add, UInt32.ofNat_mul, UInt32.ofNat_uInt8ToNat]
    rw [List.cons_append, atonDigits, if_pos h.1, hstep, ih _ h.2]
    rfl

theorem atonPart_digits (hrest : rest = [] ∨ ∃ t, rest = 46 :: t) (h : allDigits sec = true) (hne : sec ≠ []) :
    atonPart (sec ++ rest) = some (UInt32.ofNat (partNumber sec), rest) := by
  rcases sec with _ | ⟨c, ds⟩
  · exact absurd rfl hne
  · have hcd := h
    simp only [allDigits, List.all_cons, Bool.and_eq_true] at hcd
    by_cases h0 : c = 48
    · subst h0
      have hpart : partNumber (48 :: ds) = numberFrom 8 0 ds := rfl
      have hoctal : ∀ {x : UInt8} {t}, isDigit x = true ∨ x = 46 → atonPart (48 :: x :: t) = some (atonDigits 8 0 (x :: t)) := by
        intro x t hx
        have hno : (x == 120 || x == 88) = false := by
          rcases hx with hx | rfl
          · refine Bool.or_eq_false_iff.mpr ⟨beq_eq_false_iff_ne.mpr ?_, beq_eq_false_iff_ne.mpr ?_⟩
            · rintro rfl
              exact absurd hx (by decide)
            · rintro rfl
              exact absurd hx (by decide)
          · rfl
        simp only [atonPart, hno, show isDigit 48 = true from rfl, beq_self_eq_true, Bool.not_true, Bool.false_eq_true,
          if_false, if_true]
      have hrun := atonDigits_digits hrest 8 0 hcd.2
      rw [hpart]
      rcases ds with _ | ⟨d, ds⟩
      · rcases hrest with rfl | ⟨t, rfl⟩
        · rfl
        · exact (hoctal (.inr rfl)).trans (congrArg some hrun)
      · simp only [List.all_cons, Bool.and_eq_true] at hcd
        exact (hoctal (.inl hcd.2.1)).trans (congrArg some hrun)
    · have hpart : partNumber (c :: ds) = numberFrom 10 0 (c :: ds) := by
        rw [partNumber, List.head?_cons, if_neg fun he => h0 (Option.some.inj he)]
      have hc48 : (c == 48) = false := beq_eq_false_iff_ne.mpr h0
      have hturn : atonPart (c :: ds ++ rest) = some (atonDigits 10 0 (c :: ds ++ rest)) := by
        rw [List.cons_append, atonPart.eq_def]
        simp only [hcd.1, hc48, Bool.not_true, Bool.false_eq_true, if_false]
      rw [hturn, hpart]
      exact congrArg some (atonDigits_digits hrest 10 0 h)

theorem atonParts_dot {more : Nat} {t : List UInt8} (h : allDigits sec = true) (hne : sec ≠ []) :
    atonParts (more + 1) (sec ++ 46 :: t) = (atonParts more t).map fun r => (UInt32.ofNat (partNumber sec) :: r.1, r.2) := by
  rw [atonParts, atonPart_digits (.inr ⟨_, rfl⟩) h hne]
  rfl

theorem atonParts_end {more : Nat} (h : allDigits sec = true) (hne : sec ≠ []) :
    atonParts more sec = some ([UInt32.ofNat (partNumber sec)], []) := by
  have hp := @atonPart_digits [] sec (.inl rfl) h hne
  rw [List.append_nil] at hp
  rw [atonParts, hp]
  rfl

theorem ip4Addr_htonl (a b c d : UInt8) :
    ip4Addr (htonl (d.toUInt32 ||| (a.toUInt32 <<< 24) ||| (b.toUInt32 <<< 16) ||| (c.toUInt32 <<< 8))) = #v[a, b, c, d] := by
  have hbyte : ∀ {x y : UInt8}, (∀ i < 8, x.toBitVec.getLsbD i = y.toBitVec.getLsbD i) → x = y := fun h =>
    UInt8.toBitVec_inj.mp (BitVec.eq_of_getLsbD_eq h)
  have hword : ∀ {x y z w x' y' z' w' : UInt8}, x = x' → y = y' → z = z' → w = w' → #v[x, y, z, w] = #v[x', y', z', w'] := by
    rintro _ _ _ _ _ _ _ _ rfl rfl rfl rfl
    rfl
  apply hword
  all_goals
    apply hbyte
    intro i hi
    interval_cases i <;> simp [htonl]

/-- A section whose number fits a byte. -/
structure Section (sec : List UInt8) : Prop where
  digits : allDigits sec = true
  ne_nil : sec ≠ []
  small : decimal sec ≤ 255

theorem Section.toUInt32 (h : Section sec) : UInt32.ofNat (partNumber sec) = (UInt8.ofNat (partNumber sec)).toUInt32 := by
  have hle : partNumber sec ≤ 255 := Nat.le_trans partNumber_le h.small
  rw [← UInt32.toNat_inj, UInt8.toNat_toUInt32, UInt32.toNat_ofNat', UInt8.toNat_ofNat']
  omega

theorem inetAton_quad {a b c d : List UInt8} (ha : Section a) (hb : Section b) (hc : Section c) (hd : Section d) :
    (inetAton (quad a b c d)).map ip4Addr = some #v[UInt8.ofNat (partNumber a), UInt8.ofNat (partNumber b),
      UInt8.ofNat (partNumber c), UInt8.ofNat (partNumber d)] := by
  have hparts : atonParts 3 (quad a b c d) = some ([UInt32.ofNat (partNumber a), UInt32.ofNat (partNumber b),
      UInt32.ofNat (partNumber c), UInt32.ofNat (partNumber d)], []) := by
    rw [quad, atonParts_dot ha.digits ha.ne_nil, atonParts_dot hb.digits hb.ne_nil, atonParts_dot hc.digits hc.ne_nil,
      atonParts_end hd.digits hd.ne_nil]
    rfl
  rw [inetAton, hparts, ha.toUInt32, hb.toUInt32, hc.toUInt32, hd.toUInt32]
  have hle : ¬(UInt8.ofNat (partNumber d)).toUInt32 > 0xff := by
    rw [gt_iff_lt, UInt32.lt_iff_toNat_lt, UInt8.toNat_toUInt32]
    exact Nat.not_lt.mpr (Nat.le_of_lt_succ (UInt8.ofNat (partNumber d)).toNat_lt)
  dsimp only
  rw [atonJoin, if_neg hle, Option.map_some, Option.map_some, ip4Addr_htonl]

end

/-! ## The addresses of the commands -/

structure Octet (sec : List UInt8) (b : UInt8) : Prop where
  digits : allDigits sec = true
  ne_nil : sec ≠ []
  value : decimal sec = b.toNat

def Dotted (s : List UInt8) (o : Vector UInt8 4) : Prop :=
  ∃ a b c d, s = quad a b c d ∧ Octet a o[0] ∧ Octet b o[1] ∧ Octet c o[2] ∧ Octet d o[3] ∧ o[3] ≠ 0

/-- The commands that accept an address; `AT+NQSCNN` takes one for a client only. -/
inductive TakesAddress (env : Env) (g : Globals) (argv : List (List UInt8)) : List UInt8 → Prop where
  | nlocip (hlen : argv.length = 4) (hok : (responseNLOCIP env g argv).failed = false) : TakesAddress env g argv (arg argv 1)
  | nqscnn (hlen : argv.length = 5) (hclient : nqscnnType g.userParam argv ≠ 1)
      (hok : (responseNQSCNN env g argv).failed = false) : TakesAddress env g argv (arg argv 4)
  | ping (hok : (responsePING g argv).failed = false) : TakesAddress env g argv (arg argv 1)

/-- The check agrees with the format, and the conversion with both. -/
structure Converts (env : Env) (s : List UInt8) : Prop where
  valid : isValidIp s = true ↔ ∃ o, Dotted s o
  octets : ∀ g argv o, TakesAddress env g argv s → Dotted s o → (inetAton s).map ip4Addr = some o

/-- Among four sections that wrap to octets none is empty, none needs more than a word, and none
has a `0` before a number of two digits. -/
def Plain (s : List UInt8) : Prop :=
  ∀ a b c d, s = quad a b c d → Reached a b c d → ∀ sec ∈ [a, b, c, d],
    sec ≠ [] ∧ decimal sec < 2 ^ 32 ∧ (sec.head? = some 48 → decimal sec ≤ 9)

section
variable {env : Env} {g : Globals} {argv : List (List UInt8)} {s : List UInt8} {o : Vector UInt8 4}

theorem Octet.section {sec : List UInt8} {b : UInt8} (h : Octet sec b) : Section sec :=
  ⟨h.digits, h.ne_nil, h.value ▸ Nat.le_of_lt_succ b.toNat_lt⟩

/-- A ping that is not running takes every valid address. -/
theorem takesAddress_ping (hflag : g.pingFlag = false) (h : isValidIp s = true) : TakesAddress env g [[], s, [49]] s := by
  have hpass : ¬(([[], s, [49]] : List (List UInt8)).length ≠ 3 ∨ !isValidIp (arg [[], s, [49]] 1) ∨
      !strIsDigit (arg [[], s, [49]] 2) ∨ arg [[], s, [49]] 2 = []) := by
    simp [arg, h, strIsDigit, allDigits, Util.strlenMax, isDigit]
  refine TakesAddress.ping ?_
  rw [responsePING, if_neg hpass]
  split <;> simp [pingInit, hflag, Globals.fault, Answer.failed]

theorem dotted_reached (h : Dotted s o) : ∃ a b c d, s = quad a b c d ∧ Reached a b c d ∧
    Octet a o[0] ∧ Octet b o[1] ∧ Octet c o[2] ∧ Octet d o[3] := by
  obtain ⟨a, b, c, d, rfl, ha, hb, hc, hd, hnz⟩ := h
  refine ⟨a, b, c, d, rfl, ⟨?_, ?_, ?_⟩, ha, hb, hc, hd⟩
  · simp only [List.forall_mem_cons]
    exact ⟨ha.digits, hb.digits, hc.digits, hd.digits, fun _ h => absurd h List.not_mem_nil⟩
  · have hsmall : ∀ {sec b}, Octet sec b → decimal sec % 2 ^ 32 ≤ 255 := fun h =>
      Nat.le_trans (Nat.mod_le _ _) h.section.small
    simp only [List.forall_mem_cons]
    exact ⟨hsmall ha, hsmall hb, hsmall hc, hsmall hd, fun _ h => absurd h List.not_mem_nil⟩
  · have hlt := o[3].toNat_lt
    have hne : o[3].toNat ≠ 0 := fun h0 => hnz (UInt8.toNat_inj.mp h0)
    rw [hd.value]
    omega

/-- Sections that hold octets convert to them when octal makes no difference. -/
theorem convert_iff {a b c d : List UInt8} (ha : Octet a o[0]) (hb : Octet b o[1]) (hc : Octet c o[2])
    (hd : Octet d o[3]) : (inetAton (quad a b c d)).map ip4Addr = some o ↔
      ∀ sec ∈ [a, b, c, d], sec.head? = some 48 → decimal sec ≤ 9 := by
  have hone : ∀ {sec b}, Octet sec b → (UInt8.ofNat (partNumber sec) = b ↔ (sec.head? = some 48 → decimal sec ≤ 9)) := by
    intro sec b h
    have hle : partNumber sec < 2 ^ 8 :=
      Nat.lt_of_le_of_lt (Nat.le_trans partNumber_le h.section.small) (by decide)
    rw [← partNumber_eq_iff h.digits, ← UInt8.toNat_inj, UInt8.toNat_ofNat', Nat.mod_eq_of_lt hle, h.value]
  rw [inetAton_quad ha.section hb.section hc.section hd.section, Option.some_inj]
  simp only [List.forall_mem_cons]
  rw [← hone ha, ← hone hb, ← hone hc, ← hone hd]
  constructor
  · intro h
    rw [← h]
    exact ⟨rfl, rfl, rfl, rfl, fun _ h => absurd h List.not_mem_nil⟩
  · rintro ⟨h0, h1, h2, h3, -⟩
    rw [h0, h1, h2, h3]
    apply Vector.ext
    intro i hi
    interval_cases i <;> rfl

end

/-- The check and the conversion agree with the format on exactly the plain texts. -/
theorem ip_text_converts (env : Env) (s : List UInt8) : Converts env s ↔ Plain s := by
  constructor
  · intro h a b c d hs hreached
    subst hs
    have hvalid : isValidIp (quad a b c d) = true := isValidIp_iff.mpr ⟨a, b, c, d, rfl, hreached⟩
    obtain ⟨o, ho⟩ := h.valid.mp hvalid
    have hconv := h.octets { Globals.factory env with pingFlag := false } _ o (takesAddress_ping rfl hvalid) ho
    obtain ⟨a', b', c', d', heq, hreached', ha, hb, hc, hd⟩ := dotted_reached ho
    obtain ⟨rfl, rfl, rfl, rfl⟩ := quad_inj hreached.digits hreached'.digits heq
    have hoctal := (convert_iff ha hb hc hd).mp hconv
    have hsec : ∀ {sec b}, Octet sec b → sec ≠ [] ∧ decimal sec < 2 ^ 32 := fun h =>
      ⟨h.ne_nil, Nat.lt_of_le_of_lt h.section.small (by decide)⟩
    simp only [List.forall_mem_cons] at hoctal ⊢
    exact ⟨⟨(hsec ha).1, (hsec ha).2, hoctal.1⟩, ⟨(hsec hb).1, (hsec hb).2, hoctal.2.1⟩,
      ⟨(hsec hc).1, (hsec hc).2, hoctal.2.2.1⟩, ⟨(hsec hd).1, (hsec hd).2, hoctal.2.2.2.1⟩,
      fun _ h => absurd h List.not_mem_nil⟩
  · intro h
    refine ⟨⟨fun hvalid => ?_, fun ⟨o, ho⟩ => ?_⟩, fun g argv o _ ho => ?_⟩
    · obtain ⟨a, b, c, d, rfl, hreached⟩ := isValidIp_iff.mp hvalid
      have hplain := h a b c d rfl hreached
      have hoctet : ∀ sec ∈ [a, b, c, d], Octet sec (UInt8.ofNat (decimal sec)) := by
        intro sec hsec
        obtain ⟨hne, hlt, -⟩ := hplain sec hsec
        have hsmall := hreached.small sec hsec
        rw [Nat.mod_eq_of_lt hlt] at hsmall
        refine ⟨hreached.digits sec hsec, hne, ?_⟩
        rw [UInt8.toNat_ofNat', Nat.mod_eq_of_lt (Nat.lt_of_le_of_lt hsmall (by decide))]
      simp only [List.forall_mem_cons] at hoctet
      refine ⟨#v[UInt8.ofNat (decimal a), UInt8.ofNat (decimal b), UInt8.ofNat (decimal c), UInt8.ofNat (decimal d)],
        a, b, c, d, rfl, hoctet.1, hoctet.2.1, hoctet.2.2.1, hoctet.2.2.2.1, ?_⟩
      intro h0
      have hd0 : decimal d = 0 := by
        rw [hoctet.2.2.2.1.value]
        exact congrArg UInt8.toNat h0
      exact hreached.last (by rw [hd0]; rfl)
    · obtain ⟨a, b, c, d, hs, hreached, -⟩ := dotted_reached ho
      exact isValidIp_iff.mpr ⟨a, b, c, d, hs, hreached⟩
    · obtain ⟨a, b, c, d, rfl, hreached, ha, hb, hc, hd⟩ := dotted_reached ho
      exact (convert_iff ha hb hc hd).mpr fun sec hsec => (h a b c d rfl hreached sec hsec).2.2

/-- `1...1` is accepted. -/
theorem missing_sections_accepted : ¬∀ env s, Converts env s := by
  intro h
  have hquad : bytes "1...1" = quad (bytes "1") [] [] (bytes "1") := by decide +kernel
  have hvalid : isValidIp (bytes "1...1") = true := by decide +kernel
  obtain ⟨o, ho⟩ := (h sampleEnv (bytes "1...1")).valid.mp hvalid
  obtain ⟨a, b, c, d, heq, hreached, -, hb, -⟩ := dotted_reached ho
  have hdigits : ∀ sec ∈ [bytes "1", [], [], bytes "1"], allDigits sec = true := by decide +kernel
  obtain ⟨-, rfl, -⟩ := quad_inj hdigits hreached.digits (hquad.symm.trans heq)
  exact hb.ne_nil rfl

end SerialNet.Param
