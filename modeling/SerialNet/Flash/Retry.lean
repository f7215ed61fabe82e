import SerialNet.Flash.WriteFlash
import SerialNet.Lib.Retry

/-!
# Page programs that fail

`QSpiWriteOneSector`, `QSpiWriteAny` and `WriteFlash` on a chip whose page
programs take effect or not. A page gets ten attempts, and the loop's counter
is to tell afterwards whether one of them read back.
-/

namespace SerialNet.Flash

open Patch Retry

structure Chip where
  mem : Nat → UInt8
  programmed : List Nat

abbrev Pattern := Nat → Nat → Bool

def writeOnePage (effect : Bool) (adr : Nat) (pBuf : List UInt8) (c : Chip) : Chip where
  mem := if effect then programBytes c.mem adr pBuf else c.mem
  programmed := c.programmed ++ [adr]

def eraseSector (sectorAddr : Nat) (m : Nat → UInt8) : Nat → UInt8 :=
  fun x => if x / flashSectorSize = sectorAddr / flashSectorSize then 0xFF else m x

def readsBack (adr : Nat) (pBuf : List UInt8) (c : Chip) : Bool := read c.mem adr pBuf.length == pBuf

/-- `j = 10; while (j--)`: the chip and `j`, which is `top` when the loop ran out. -/
def writePage (top : Nat) (pat : Nat → Bool) (adr : Nat) (pBuf : List UInt8) (c : Chip) : Chip × Nat :=
  countdown (fun i => writeOnePage (pat i) adr pBuf) (readsBack adr pBuf) top 10 0 c

section
variable (pat : Pattern)

/-- The page loop of `QSpiWriteOneSector`, over `n` more pages. -/
def sectorLoop : Nat → Nat → Chip → Nat → List UInt8 → Chip × Int
  | 0, _, c, _, _ => (c, 0)
  | n + 1, page, c, writeAddr, pBuf =>
    let r := writePage 0xFFFFFFFF (pat page) writeAddr (pBuf.take flashPageSize) c
    if r.2 = 0 then (r.1, -1)
    else sectorLoop n (page + 1) r.1 (writeAddr + flashPageSize) (pBuf.drop flashPageSize)

def writeOneSector (m : Nat → UInt8) (sectorAddr : Nat) (pBuf : List UInt8) : Chip × Int :=
  sectorLoop pat (flashSectorSize / flashPageSize) 0 ⟨eraseSector sectorAddr m, []⟩ sectorAddr pBuf

/-- The page loop of `QSpiWriteAny`, whose lengths are kept in 16 bits. -/
def anyLoop : Nat → Nat → Chip → Nat → List UInt8 → Nat → Nat → Option (Chip × Int)
  | 0, _, _, _, _, _, _ => none
  | n + 1, page, c, writeAddr, pData, dataLen, pageremain =>
    let r := writePage 0xFFFF (pat page) writeAddr (pData.take pageremain) c
    if r.2 = 0 then some (r.1, -1)
    else if dataLen = pageremain then some (r.1, 0)
    else
      let dataLen' := (((dataLen : Int) - pageremain) % 2 ^ 16).toNat
      anyLoop n (page + 1) r.1 (writeAddr + pageremain) (pData.drop pageremain) dataLen'
        (if dataLen' > flashPageSize then flashPageSize else dataLen')

def writeAny (m : Nat → UInt8) (writeAddr : Nat) (pData : List UInt8) (dataLen : Nat) : Option (Chip × Int) :=
  let pageremain := flashPageSize - writeAddr % flashPageSize
  anyLoop pat (dataLen + 1) 0 ⟨m, []⟩ writeAddr pData dataLen (if dataLen ≤ pageremain then dataLen else pageremain)

end

structure AnyCall where
  pat : Pattern
  before : Nat → UInt8
  adr : Nat
  data : List UInt8
  after : Nat → UInt8
  ret : Int

def callAny (pat : Pattern) (m : Nat → UInt8) (writeAddr : Nat) (pData : List UInt8) (dataLen : Nat) : Option AnyCall :=
  (writeAny pat m writeAddr pData dataLen).map fun r => ⟨pat, m, writeAddr, pData, r.1.mem, r.2⟩

/-- The call `WriteFlash` makes for one sector. -/
def sectorCall (pat : Pattern) (m : Nat → UInt8) (pData : List UInt8) (writeAddr sectorNum sectorOff secreMain : Nat) :
    Option AnyCall :=
  let flashBuf := read m (sectorNum * flashSectorSize) flashSectorSize
  let i := (((flashBuf.drop sectorOff).take secreMain).takeWhile (· == 0xFF)).length
  if i < secreMain then
    let flashBuf := flashBuf.take sectorOff ++ pData.take secreMain ++ flashBuf.drop (sectorOff + secreMain)
    callAny pat (eraseSector (sectorNum * flashSectorSize) m) (sectorNum * flashSectorSize) flashBuf flashSectorSize
  else callAny pat m writeAddr (pData.take secreMain) secreMain

/-- The sector loop of `WriteFlash`: the calls it makes, each with a pattern of its own. -/
def flashLoop (pats : Nat → Pattern) :
    Nat → Nat → (Nat → UInt8) → List UInt8 → Nat → Nat → Nat → Nat → Nat → List AnyCall
  | 0, _, _, _, _, _, _, _, _ => []
  | n + 1, k, m, pData, dataLen, writeAddr, sectorNum, sectorOff, secreMain =>
    match sectorCall (pats k) m pData writeAddr sectorNum sectorOff secreMain with
    | none => []
    | some call =>
      if call.ret ≠ 0 ∨ dataLen = secreMain then [call]
      else
        let dataLen := (((dataLen : Int) - secreMain) % 2 ^ 32).toNat
        call :: flashLoop pats n (k + 1) call.after (pData.drop secreMain) dataLen (writeAddr + secreMain)
          (((sectorNum : Int) + 1) % 2 ^ 8).toNat 0 (if dataLen > flashSectorSize then flashSectorSize else dataLen)

def flashCalls (pats : Nat → Pattern) (m : Nat → UInt8) (pData : List UInt8) (dataLen burnStartPos : Nat) : List AnyCall :=
  let sectorOff := burnStartPos % flashSectorSize
  let secreMain := flashSectorSize - sectorOff
  flashLoop pats (dataLen + 1) 0 m pData dataLen burnStartPos (burnStartPos / flashSectorSize % 2 ^ 8) sectorOff
    (if dataLen ≤ secreMain then dataLen else secreMain)

/-! ## What the functions are to do -/

/-- The pages of a range, none across a page boundary. -/
def pages : Nat → Nat → List UInt8 → List (Nat × List UInt8)
  | 0, _, _ => []
  | n + 1, a, data =>
    if data.length ≤ flashPageSize - a % flashPageSize then [(a, data)]
    else
      (a, data.take (flashPageSize - a % flashPageSize)) ::
        pages n (a + (flashPageSize - a % flashPageSize)) (data.drop (flashPageSize - a % flashPageSize))

/-- The first of ten attempts at which each page reads back, counted from 0. -/
def outcomes (pat : Pattern) (m : Nat → UInt8) : Nat → List (Nat × List UInt8) → List (Option Nat)
  | _, [] => []
  | page, (adr, pBuf) :: rest =>
    (attempts (fun i => writeOnePage (pat page i) adr pBuf) (readsBack adr pBuf) 10 0 ⟨m, []⟩).2 ::
      outcomes pat m (page + 1) rest

/-- The result is 0 exactly when every page reads back at some attempt, and the
range then holds the data; a page that never does ends the call with a failure,
and no page behind it is programmed. -/
structure Honest (outs : List (Option Nat)) (ps : List (Nat × List UInt8)) (a : Nat) (data : List UInt8) (r : Chip × Int) :
    Prop where
  ret : r.2 = 0 ↔ none ∉ outs
  range : r.2 = 0 → read r.1.mem a data.length = data
  stops : ∀ i, outs[i]? = some none → r.2 = -1 ∧ ∀ (k : Nat) (p : Nat × List UInt8), i < k → ps[k]? = some p →
    p.1 ∉ r.1.programmed

/-- Every page reads back within nine attempts; or the first that does not does
at the tenth, and a later one never. -/
def Settled (outs : List (Option Nat)) : Prop :=
  (∀ o ∈ outs, quick 9 o = true) ∨ (none ∈ outs ∧ (outs.dropWhile (quick 9)).head? = some (some 9))

/-! ## One page -/

section
variable {m m' : Nat → UInt8} {a x : Nat} {l : List UInt8}

theorem nextInPage_eq {b : UInt8} (hpage : a % flashPageSize + (b :: l).length ≤ flashPageSize) (hl : l ≠ []) :
    nextInPage a = a + 1 := by
  have hpos := List.length_pos_iff.mpr hl
  rw [List.length_cons] at hpage
  unfold nextInPage flashPageSize at *
  omega

theorem programBytes_outside : ∀ {m : Nat → UInt8} {a : Nat} {l : List UInt8},
    a % flashPageSize + l.length ≤ flashPageSize → x < a ∨ a + l.length ≤ x → programBytes m a l x = m x
  | _, _, [], _, _ => rfl
  | m, a, b :: l, hpage, hx => by
    rw [List.length_cons] at hx
    have hne : x ≠ a := by omega
    by_cases hl : l = []
    · subst hl
      exact Function.update_of_ne hne _ _
    · have hnext := nextInPage_eq hpage hl
      have hpos := List.length_pos_iff.mpr hl
      rw [programBytes, hnext, programBytes_outside]
      · exact Function.update_of_ne hne _ _
      · rw [List.length_cons] at hpage
        unfold flashPageSize at *
        omega
      · omega

theorem programBytes_inside : ∀ {m : Nat → UInt8} {a : Nat} {l : List UInt8},
    a % flashPageSize + l.length ≤ flashPageSize → ∀ i (h : i < l.length), programBytes m a l (a + i) = m (a + i) &&& l[i]
  | m, a, b :: l, hpage, i, hi => by
    by_cases hl : l = []
    · subst hl
      obtain rfl : i = 0 := by simpa using hi
      exact Function.update_self ..
    · have hnext := nextInPage_eq hpage hl
      have hpos := List.length_pos_iff.mpr hl
      have hpage' : (a + 1) % flashPageSize + l.length ≤ flashPageSize := by
        rw [List.length_cons] at hpage
        unfold flashPageSize at *
        omega
      rw [programBytes, hnext]
      cases i with
      | zero =>
        rw [programBytes_outside hpage' (by omega), Nat.add_zero, Function.update_self]
        rfl
      | succ i =>
        rw [show a + (i + 1) = a + 1 + i by omega, programBytes_inside hpage' i (by simpa using hi),
          Function.update_of_ne (by omega)]
        rfl

end

section
variable {c c' : Chip} {a : Nat} {l : List UInt8} {effect : Bool} {pat : Nat → Bool} {top n i : Nat}

def Agree (a n : Nat) (c c' : Chip) : Prop := ∀ i, i < n → c.mem (a + i) = c'.mem (a + i)

theorem writeOnePage_agree (hpage : a % flashPageSize + l.length ≤ flashPageSize) (h : Agree a l.length c c') :
    Agree a l.length (writeOnePage effect a l c) (writeOnePage effect a l c') := by
  intro i hi
  cases effect with
  | false => exact h i hi
  | true =>
    show programBytes c.mem a l (a + i) = programBytes c'.mem a l (a + i)
    rw [programBytes_inside hpage i hi, programBytes_inside hpage i hi, h i hi]

theorem readsBack_agree (h : Agree a l.length c c') : readsBack a l c = readsBack a l c' := by
  rw [readsBack, readsBack, read_congr h]

/-- What a page's attempts come to depends on the page alone. -/
theorem attempts_agree (hpage : a % flashPageSize + l.length ≤ flashPageSize) (h : Agree a l.length c c') :
    (attempts (fun i => writeOnePage (pat i) a l) (readsBack a l) n i c).2 =
      (attempts (fun i => writeOnePage (pat i) a l) (readsBack a l) n i c').2 :=
  (@attempts_sim _ _ (fun i => writeOnePage (pat i) a l) _ n i c (fun i => writeOnePage (pat i) a l) _
    (Agree a l.length) (fun _ _ _ h => writeOnePage_agree hpage h) (fun _ _ h => readsBack_agree h) c' h).2

/-- The page is programmed, nothing outside it changes, and no other page is programmed. -/
structure Confined (a n : Nat) (c c' : Chip) : Prop where
  mem : ∀ x, x < a ∨ a + n ≤ x → c'.mem x = c.mem x
  programmed : ∀ x, x ∈ c'.programmed → x = a ∨ x ∈ c.programmed
  kept : ∀ x, x ∈ c.programmed → x ∈ c'.programmed

theorem writeOnePage_confined (hpage : a % flashPageSize + l.length ≤ flashPageSize) (h : Confined a l.length c c') :
    Confined a l.length c (writeOnePage effect a l c') := by
  refine ⟨fun x hx => ?_, fun x hx => ?_, fun x hx => List.mem_append_left _ (h.kept x hx)⟩
  · rw [← h.mem x hx]
    cases effect with
    | false => rfl
    | true => exact programBytes_outside hpage hx
  · rcases List.mem_append.mp hx with hx | hx
    · exact h.programmed x hx
    · exact .inl (List.mem_singleton.mp hx)

theorem attempts_confined (hpage : a % flashPageSize + l.length ≤ flashPageSize) :
    Confined a l.length c (attempts (fun i => writeOnePage (pat i) a l) (readsBack a l) n i c).1 :=
  attempts_keep (Confined a l.length c) (fun _ _ h => writeOnePage_confined hpage h)
    ⟨fun _ _ => rfl, fun _ h => .inr h, fun _ h => h⟩

theorem attempts_programmed :
    a ∈ (attempts (fun i => writeOnePage (pat i) a l) (readsBack a l) (n + 1) i c).1.programmed := by
  have hkeep := @attempts_keep _ (fun i => writeOnePage (pat i) a l) (readsBack a l) n (i + 1)
    (writeOnePage (pat i) a l c) (fun c => a ∈ c.programmed) (fun _ _ h => List.mem_append_left _ h)
    (List.mem_append_right _ List.mem_cons_self)
  rw [attempts]
  split
  · exact List.mem_append_right _ List.mem_cons_self
  · exact hkeep

/-- The loop's counter is zero exactly when the tenth attempt is the first that reads back. -/
theorem writePage_zero (htop : top ≠ 0) : (writePage top pat a l c).2 = 0 ↔
    (attempts (fun i => writeOnePage (pat i) a l) (readsBack a l) 10 0 c).2 = some 9 := countdown_zero htop

theorem writePage_chip : (writePage top pat a l c).1 =
    (attempts (fun i => writeOnePage (pat i) a l) (readsBack a l) 10 0 c).1 := countdown_fst

theorem writePage_reads : read (writePage top pat a l c).1.mem a l.length = l ↔
    (attempts (fun i => writeOnePage (pat i) a l) (readsBack a l) 10 0 c).2 ≠ none := by
  rw [writePage_chip]
  cases h : (attempts (fun i => writeOnePage (pat i) a l) (readsBack a l) 10 0 c).2 with
  | none =>
    have hf := attempts_failed h
    simpa [readsBack] using hf
  | some k =>
    have hok := attempts_ok h
    simpa [readsBack] using hok

end

/-! ## A row of pages -/

/-- The pages follow each other from `a` on; only a lone page may be empty. -/
def Tiled : Nat → List (Nat × List UInt8) → Prop
  | _, [] => True
  | a, p :: rest => p.1 = a ∧ a % flashPageSize + p.2.length ≤ flashPageSize ∧ (rest ≠ [] → 0 < p.2.length) ∧
    Tiled (a + p.2.length) rest

/-- The page loop both functions run. -/
def pageLoop (top : Nat) (pat : Pattern) : Nat → Chip → List (Nat × List UInt8) → Chip × Int
  | _, c, [] => (c, 0)
  | page, c, p :: rest =>
    let r := writePage top (pat page) p.1 p.2 c
    if r.2 = 0 then (r.1, -1) else pageLoop top pat (page + 1) r.1 rest

section
variable {pat : Pattern} {m : Nat → UInt8} {top : Nat}

theorem tiled_le : ∀ {ps : List (Nat × List UInt8)} {a : Nat}, Tiled a ps → ∀ p ∈ ps, a ≤ p.1
  | _ :: _, a, h, p, hp => by
    rcases List.mem_cons.mp hp with rfl | hp
    · exact Nat.le_of_eq h.1.symm
    · exact Nat.le_trans (Nat.le_add_right _ _) (tiled_le h.2.2.2 p hp)

theorem outcomes_length : ∀ (ps : List (Nat × List UInt8)) (page : Nat), (outcomes pat m page ps).length = ps.length
  | [], _ => rfl
  | (_, _) :: rest, page => congrArg Nat.succ (outcomes_length rest (page + 1))

theorem outcomes_bound : ∀ (ps : List (Nat × List UInt8)) (page : Nat), ∀ o ∈ outcomes pat m page ps, ∀ k, o = some k → k ≤ 9
  | (_, _) :: rest, page, o, ho, k, hk => by
    rcases List.mem_cons.mp ho with rfl | ho
    · have := (attempts_bound hk).2
      omega
    · exact outcomes_bound rest (page + 1) o ho k hk

theorem Tiled.apart {a : Nat} {p : Nat × List UInt8} {rest : List (Nat × List UInt8)} (h : Tiled a (p :: rest)) :
    ∀ q ∈ rest, q.1 ≠ a := by
  intro q hq
  have hlen := h.2.2.1 (List.ne_nil_of_mem hq)
  have hge := tiled_le h.2.2.2 q hq
  omega

/-- The loop stops behind the first page that reads back at the tenth attempt only. -/
structure Row (outs : List (Option Nat)) (ps : List (Nat × List UInt8)) (a : Nat) (c : Chip) (r : Chip × Int) : Prop where
  ret : (r.2 = 0 ∧ some 9 ∉ outs) ∨ (r.2 = -1 ∧ some 9 ∈ outs)
  below : ∀ x, x < a → r.1.mem x = c.mem x
  holds : some 9 ∉ outs → ((∀ p ∈ ps, read r.1.mem p.1 p.2.length = p.2) ↔ none ∉ outs)
  others : ∀ x, (∀ p ∈ ps, p.1 ≠ x) → (x ∈ r.1.programmed ↔ x ∈ c.programmed)
  programmed : ∀ k (p : Nat × List UInt8), ps[k]? = some p → (p.1 ∈ r.1.programmed ↔ some 9 ∉ outs.take k)

theorem row_nil {a : Nat} {c : Chip} : Row [] [] a c (c, 0) :=
  ⟨.inl ⟨rfl, List.not_mem_nil⟩, fun _ _ => rfl, fun _ => by simp, fun _ _ => Iff.rfl, fun _ _ h => by simp at h⟩

section
variable {o : Option Nat} {outs : List (Option Nat)} {a : Nat} {l : List UInt8} {rest : List (Nat × List UInt8)}
  {c c' : Chip} {r : Chip × Int}

theorem row_stop (ht : Tiled a ((a, l) :: rest)) (hfresh : ∀ p ∈ rest, p.1 ∉ c.programmed) (hc : Confined a l.length c c')
    (hself : a ∈ c'.programmed) : Row (some 9 :: outs) ((a, l) :: rest) a c (c', -1) where
  ret := .inr ⟨rfl, List.mem_cons_self⟩
  below x hx := hc.mem x (.inl hx)
  holds h := absurd List.mem_cons_self h
  others x hx := by
    have hne := hx _ List.mem_cons_self
    refine ⟨fun h => ?_, hc.kept x⟩
    rcases hc.programmed x h with rfl | h
    · exact absurd rfl hne
    · exact h
  programmed k p hk := by
    cases k with
    | zero =>
      cases hk
      simp [hself]
    | succ k =>
      have hmem : p ∈ rest := List.mem_of_getElem? hk
      rw [List.take_succ_cons]
      refine ⟨fun h => ?_, fun h => absurd List.mem_cons_self h⟩
      rcases hc.programmed _ h with h | h
      · exact absurd h (ht.apart p hmem)
      · exact absurd h (hfresh p hmem)

theorem row_cons (ht : Tiled a ((a, l) :: rest)) (ho : o ≠ some 9) (hreads : read c'.mem a l.length = l ↔ o ≠ none)
    (hc : Confined a l.length c c') (hself : a ∈ c'.programmed) (hr : Row outs rest (a + l.length) c' r) :
    Row (o :: outs) ((a, l) :: rest) a c r where
  ret := by
    rw [List.mem_cons, or_iff_right (Ne.symm ho)]
    exact hr.ret
  below x hx := (hr.below x (by omega)).trans (hc.mem x (.inl hx))
  holds h := by
    have hkeep : read r.1.mem a l.length = read c'.mem a l.length := read_congr fun i hi => hr.below _ (by omega)
    rw [List.mem_cons, not_or] at h
    rw [List.forall_mem_cons, hkeep, hreads, hr.holds h.2, List.mem_cons, not_or]
    exact and_congr_left fun _ => ne_comm
  others x hx := by
    have hrest : ∀ p ∈ rest, p.1 ≠ x := fun p hp => hx p (List.mem_cons_of_mem _ hp)
    rw [hr.others x hrest]
    refine ⟨fun h => ?_, hc.kept x⟩
    rcases hc.programmed x h with rfl | h
    · exact absurd rfl (hx _ List.mem_cons_self)
    · exact h
  programmed k p hk := by
    cases k with
    | zero =>
      cases hk
      rw [hr.others a ht.apart]
      simp [hself]
    | succ k =>
      rw [List.take_succ_cons, List.mem_cons, or_iff_right (Ne.symm ho)]
      exact hr.programmed k p hk

end

theorem pageLoop_row (htop : top ≠ 0) : ∀ (ps : List (Nat × List UInt8)) (page a : Nat) (c : Chip), Tiled a ps →
    (∀ x, a ≤ x → c.mem x = m x) → (∀ p ∈ ps, p.1 ∉ c.programmed) →
    Row (outcomes pat m page ps) ps a c (pageLoop top pat page c ps)
  | [], _, _, _, _, _, _ => row_nil
  | (adr, l) :: rest, page, a, c, ht, hm, hp => by
    obtain rfl : adr = a := ht.1
    have hpage := ht.2.1
    have hout : (attempts (fun i => writeOnePage (pat page i) adr l) (readsBack adr l) 10 0 ⟨m, []⟩).2 =
        (attempts (fun i => writeOnePage (pat page i) adr l) (readsBack adr l) 10 0 c).2 :=
      attempts_agree hpage fun i _ => (hm (adr + i) (Nat.le_add_right _ _)).symm
    have hconf : Confined adr l.length c (writePage top (pat page) adr l c).1 := by
      rw [writePage_chip]
      exact attempts_confined hpage
    have hself : adr ∈ (writePage top (pat page) adr l c).1.programmed := by
      rw [writePage_chip]
      exact attempts_programmed
    have hfresh : ∀ p ∈ rest, p.1 ∉ c.programmed := fun p hp' => hp p (List.mem_cons_of_mem _ hp')
    have hzero := @writePage_zero c adr l (pat page) top htop
    have hreads := @writePage_reads c adr l (pat page) top
    rw [← hout] at hzero hreads
    rw [outcomes, pageLoop]
    by_cases hj : (writePage top (pat page) adr l c).2 = 0
    · rw [hzero.mp hj, if_pos hj]
      exact row_stop ht hfresh hconf hself
    · rw [if_neg hj]
      refine row_cons ht (fun h => hj (hzero.mpr h)) hreads hconf hself ?_
      refine pageLoop_row htop rest (page + 1) _ _ ht.2.2.2 (fun x hx => ?_) fun p hp' h => ?_
      · exact (hconf.mem x (.inr hx)).trans (hm x (by omega))
      · rcases hconf.programmed _ h with h | h
        · exact ht.apart p hp' h
        · exact hfresh p hp' h

/-- Pages one after the other hold the data of the whole range. -/
theorem tiled_read : ∀ {ps : List (Nat × List UInt8)} {a : Nat}, Tiled a ps →
    ((∀ p ∈ ps, read m p.1 p.2.length = p.2) ↔ read m a (ps.flatMap Prod.snd).length = ps.flatMap Prod.snd)
  | [], _, _ => by simp
  | (adr, l) :: rest, a, ht => by
    obtain rfl : adr = a := ht.1
    rw [List.forall_mem_cons, tiled_read ht.2.2.2, List.flatMap_cons, List.length_append, read_add]
    constructor
    · rintro ⟨h1, h2⟩
      rw [h1, h2]
    · intro h
      exact List.append_inj h length_read

/-- The loop is honest exactly when its row of outcomes is settled. -/
theorem honest_iff {ps : List (Nat × List UInt8)} {page a : Nat} {c : Chip} {r : Chip × Int} {data : List UInt8}
    (ht : Tiled a ps) (hdata : ps.flatMap Prod.snd = data) (hr : Row (outcomes pat m page ps) ps a c r) :
    Honest (outcomes pat m page ps) ps a data r ↔ Settled (outcomes pat m page ps) := by
  have hlen := @outcomes_length pat m ps page
  have hzero : r.2 = 0 ↔ some 9 ∉ outcomes pat m page ps := by
    rcases hr.ret with ⟨h0, h9⟩ | ⟨h0, h9⟩
    · exact ⟨fun _ => h9, fun _ => h0⟩
    · exact ⟨fun h => by omega, fun h => absurd h9 h⟩
  have hneg : some 9 ∈ outcomes pat m page ps → r.2 = -1 := fun h => by
    rcases hr.ret with ⟨_, h9⟩ | ⟨h0, _⟩
    · exact absurd h h9
    · exact h0
  rw [Settled, ← faithful_iff (outcomes_bound ps page)]
  constructor
  · intro h
    refine ⟨hzero.symm.trans h.ret, fun i hi k hik hk => ?_⟩
    have hk' : k < ps.length := by omega
    have hnot := (h.stops i hi).2 k ps[k] hik (List.getElem?_eq_getElem hk')
    rw [hr.programmed k _ (List.getElem?_eq_getElem hk')] at hnot
    exact Classical.not_not.mp hnot
  · intro h
    refine ⟨hzero.trans h.1, fun h0 => ?_, fun i hi => ?_⟩
    · have h9 := hzero.mp h0
      have hall := (hr.holds h9).mpr (h.1.mp h9)
      rw [tiled_read ht, hdata] at hall
      exact hall
    · have h9 : some 9 ∈ outcomes pat m page ps := by
        by_contra h9
        exact h.1.mp h9 (List.mem_of_getElem? hi)
      refine ⟨hneg h9, fun k p hik hk => ?_⟩
      rw [hr.programmed k p hk]
      have hk' := (List.getElem?_eq_some_iff.mp hk).1
      exact fun hn => hn (h.2 i hi k hik (by omega))

end

/-! ## The pages of a call -/

section
variable {pat : Pattern} {m : Nat → UInt8}

theorem pages_tiled : ∀ (n a : Nat) (data : List UInt8), data.length < n →
    Tiled a (pages n a data) ∧ (pages n a data).flatMap Prod.snd = data
  | 0, _, _, h => absurd h (Nat.not_lt_zero _)
  | n + 1, a, data, h => by
    have hps : flashPageSize = 256 := rfl
    have hmod : a % flashPageSize < flashPageSize := Nat.mod_lt _ (by decide)
    rw [pages]
    by_cases hl : data.length ≤ flashPageSize - a % flashPageSize
    · rw [if_pos hl]
      exact ⟨⟨rfl, by simp only; omega, fun h => absurd rfl h, trivial⟩, by simp⟩
    · rw [if_neg hl]
      have htake : (data.take (flashPageSize - a % flashPageSize)).length = flashPageSize - a % flashPageSize := by
        rw [List.length_take]
        omega
      obtain ⟨ht, hd⟩ := pages_tiled n (a + (flashPageSize - a % flashPageSize))
        (data.drop (flashPageSize - a % flashPageSize)) (by rw [List.length_drop]; omega)
      refine ⟨⟨rfl, by simp only [htake]; omega, fun _ => by simp only [htake]; omega, ?_⟩, ?_⟩
      · simp only [htake]
        exact ht
      · rw [List.flatMap_cons, hd, List.take_append_drop]

theorem anyLoop_eq : ∀ (n page : Nat) (c : Chip) (a : Nat) (data : List UInt8), data.length < n → data.length < 2 ^ 16 →
    anyLoop pat n page c a data data.length (min data.length (flashPageSize - a % flashPageSize)) =
      some (pageLoop 0xFFFF pat page c (pages n a data))
  | 0, _, _, _, _, h, _ => absurd h (Nat.not_lt_zero _)
  | n + 1, page, c, a, data, h, h16 => by
    have hps : flashPageSize = 256 := rfl
    have hmod : a % flashPageSize < flashPageSize := Nat.mod_lt _ (by decide)
    rw [anyLoop, pages]
    by_cases hl : data.length ≤ flashPageSize - a % flashPageSize
    · rw [if_pos hl, Nat.min_eq_left hl, List.take_of_length_le (Nat.le_refl _)]
      simp only [pageLoop, if_true]
      split <;> rfl
    · rw [if_neg hl, Nat.min_eq_right (by omega)]
      have hlen : (((data.length : Int) - (flashPageSize - a % flashPageSize : Nat)) % 2 ^ 16).toNat =
          (data.drop (flashPageSize - a % flashPageSize)).length := by
        rw [List.length_drop]
        omega
      have hnext : (if (data.drop (flashPageSize - a % flashPageSize)).length > flashPageSize then flashPageSize
          else (data.drop (flashPageSize - a % flashPageSize)).length) =
            min (data.drop (flashPageSize - a % flashPageSize)).length
              (flashPageSize - (a + (flashPageSize - a % flashPageSize)) % flashPageSize) := by
        have haligned : (a + (flashPageSize - a % flashPageSize)) % flashPageSize = 0 := by
          show (a + (256 - a % 256)) % 256 = 0
          omega
        rw [haligned]
        split <;> omega
      simp only [pageLoop]
      split
      · rfl
      · rw [if_neg fun h => hl (Nat.le_of_eq h), hlen, hnext]
        exact anyLoop_eq n (page + 1) _ _ _ (by rw [List.length_drop]; omega) (by rw [List.length_drop]; omega)

theorem writeAny_eq {a : Nat} {data : List UInt8} (h16 : data.length < 2 ^ 16) :
    writeAny pat m a data data.length = some (pageLoop 0xFFFF pat 0 ⟨m, []⟩ (pages (data.length + 1) a data)) := by
  have hmin : (if data.length ≤ flashPageSize - a % flashPageSize then data.length
      else flashPageSize - a % flashPageSize) = min data.length (flashPageSize - a % flashPageSize) := by
    split <;> omega
  simp only [writeAny, hmin]
  exact anyLoop_eq _ 0 _ a data (Nat.lt_succ_self _) h16

theorem sectorLoop_eq : ∀ (n N page : Nat) (c : Chip) (a : Nat) (buf : List UInt8), a % flashPageSize = 0 →
    buf.length = flashPageSize * (n + 1) → buf.length < N →
    sectorLoop pat (n + 1) page c a buf = pageLoop 0xFFFFFFFF pat page c (pages N a buf)
  | _, 0, _, _, _, _, _, _, h => absurd h (Nat.not_lt_zero _)
  | n, N + 1, page, c, a, buf, ha, hb, hN => by
    have hps : flashPageSize = 256 := rfl
    rw [hps] at hb
    rw [sectorLoop, pages, ha, Nat.sub_zero]
    cases n with
    | zero =>
      have hl : buf.length ≤ flashPageSize := by omega
      rw [if_pos hl, List.take_of_length_le hl]
      rfl
    | succ n =>
      have hl : ¬buf.length ≤ flashPageSize := by omega
      rw [if_neg hl]
      simp only [pageLoop]
      split
      · rfl
      · exact sectorLoop_eq n N (page + 1) _ _ _ ((Nat.add_mod_right ..).trans ha) (by rw [List.length_drop, hps]; omega) (by rw [List.length_drop]; omega)

/-- The pages run from a call's start, none of them programmed before. -/
theorem pages_row {top N a : Nat} {data : List UInt8} (htop : top ≠ 0) (h : data.length < N) :
    Row (outcomes pat m 0 (pages N a data)) (pages N a data) a ⟨m, []⟩ (pageLoop top pat 0 ⟨m, []⟩ (pages N a data)) :=
  pageLoop_row htop _ 0 a ⟨m, []⟩ (pages_tiled N a data h).1 (fun _ _ => rfl) fun _ _ h => by cases h

end

/-! ## Every attempt takes effect -/

section
variable {d : Device} {c : Chip} {a : Nat} {l : List UInt8}

theorem tryPage_effective (h : d.mem = c.mem) (j : Nat) : ∀ i,
    (tryPage d a l j).1.mem = (countdown (fun _ => writeOnePage true a l) (readsBack a l) 0xFFFF j i c).1.mem ∧
      (tryPage d a l j).2 = (countdown (fun _ => writeOnePage true a l) (readsBack a l) 0xFFFF j i c).2 := by
  induction j generalizing d c with
  | zero => exact fun _ => ⟨h, rfl⟩
  | succ j ih =>
    intro i
    have hmem : (qspiFlashWriteOnePage d a l).mem = (writeOnePage true a l c).mem := congrArg (programBytes · a l) h
    have hread : (read (qspiFlashWriteOnePage d a l).mem a l.length = l) ↔
        readsBack a l (writeOnePage true a l c) = true := by
      rw [hmem, readsBack, beq_iff_eq]
    rw [tryPage, countdown]
    by_cases hok : readsBack a l (writeOnePage true a l c) = true
    · rw [if_pos hok, if_pos (hread.mpr hok)]
      exact ⟨hmem, rfl⟩
    · rw [if_neg hok, if_neg (fun hr => hok (hread.mp hr))]
      exact ih hmem (i + 1)

def outcome (r : Option (Chip × Int)) : Option ((Nat → UInt8) × Int) := r.map fun r => (r.1.mem, r.2)

theorem anyLoop_effective (n : Nat) : ∀ (page : Nat) (d : Device) (c : Chip) (a : Nat) (pData : List UInt8)
    (dataLen pageremain : Nat), d.mem = c.mem →
    outcome (anyLoop (fun _ _ => true) n page c a pData dataLen pageremain) =
      (qspiWriteAnyLoop n d a pData dataLen pageremain).map fun r => (r.1.mem, r.2) := by
  induction n with
  | zero => exact fun _ _ _ _ _ _ _ _ => rfl
  | succ n ih =>
    intro page d c a pData dataLen pageremain h
    obtain ⟨hmem, hj⟩ := @tryPage_effective d c a (pData.take pageremain) h 10 0
    rw [anyLoop, qspiWriteAnyLoop]
    generalize hr : tryPage d a (pData.take pageremain) 10 = r at hmem hj
    obtain ⟨d', j⟩ := r
    dsimp only at hmem hj ⊢
    rw [writePage, hj]
    split
    · exact congrArg some (Prod.ext hmem.symm rfl)
    · split
      · exact congrArg some (Prod.ext hmem.symm rfl)
      · cases h₁ : d'.store 16 ((dataLen : Int) - pageremain) with
        | mk dataLen' d₁ =>
          obtain ⟨rfl, rfl⟩ := Prod.mk.inj h₁
          have hnext : (if (((dataLen : Int) - pageremain) % 2 ^ 16).toNat > flashPageSize then flashPageSize
              else (((dataLen : Int) - pageremain) % 2 ^ 16).toNat) ≤ 256 := by
            unfold flashPageSize
            split <;> omega
          dsimp only at hnext ⊢
          generalize (if (((dataLen : Int) - pageremain) % 2 ^ 16).toNat > flashPageSize then flashPageSize
              else (((dataLen : Int) - pageremain) % 2 ^ 16).toNat) = next at hnext ⊢
          cases h₂ : Device.store ⟨d'.mem, d'.trace ++ [.store 16 ((dataLen : Int) - pageremain)]⟩ 16 (next : Int) with
          | mk next' d₂ =>
            obtain ⟨hn, rfl⟩ := Prod.mk.inj h₂
            obtain rfl : next' = next := by omega
            exact ih (page + 1) _ _ _ _ _ _ hmem

/-- On a chip that obeys, the two models of `QSpiWriteAny` agree. -/
theorem writeAny_effective {pData : List UInt8} {dataLen : Nat} (h : dataLen < 2 ^ 16) :
    outcome (writeAny (fun _ _ => true) d.mem a pData dataLen) =
      (qspiWriteAny d a pData dataLen).map fun r => (r.1.mem, r.2) := by
  have hlen : ((dataLen : Int) % 2 ^ 16).toNat = dataLen := by omega
  have hrem : (((flashPageSize - a % flashPageSize : Nat) : Int) % 2 ^ 16).toNat = flashPageSize - a % flashPageSize := by
    unfold flashPageSize
    omega
  simp only [writeAny, qspiWriteAny, Device.store, hlen, hrem]
  split <;> exact anyLoop_effective _ 0 _ _ _ _ _ _ rfl

end
/-! ## WriteFlash -/

def AnyCall.outs (call : AnyCall) : List (Option Nat) :=
  outcomes call.pat call.before 0 (pages (call.data.length + 1) call.adr call.data)

/-- Taken for written, the range holds the data. -/
def AnyCall.Trusted (call : AnyCall) : Prop := call.ret = 0 → read call.after call.adr call.data.length = call.data

theorem callAny_trusted {pat : Pattern} {m : Nat → UInt8} {a : Nat} {data : List UInt8} {call : AnyCall}
    (h16 : data.length < 2 ^ 16) (h : callAny pat m a data data.length = some call) :
    call.Trusted ↔ (none ∈ call.outs → some 9 ∈ call.outs) := by
  have hr := @pages_row pat m 0xFFFF (data.length + 1) a data (by decide) (Nat.lt_succ_self _)
  obtain ⟨ht, hdata⟩ := pages_tiled (data.length + 1) a data (Nat.lt_succ_self _)
  rw [callAny, writeAny_eq h16, Option.map_some, Option.some.injEq] at h
  subst h
  simp only [AnyCall.Trusted, AnyCall.outs]
  generalize pageLoop 0xFFFF pat 0 ⟨m, []⟩ (pages (data.length + 1) a data) = r at hr ⊢
  have hread := tiled_read (m := r.1.mem) ht
  rw [hdata] at hread
  rcases hr.ret with ⟨h0, h9⟩ | ⟨h0, h9⟩
  · rw [← hread, hr.holds h9]
    exact ⟨fun h hn => absurd hn (h h0), fun h _ hn => h9 (h hn)⟩
  · exact ⟨fun _ _ => h9, fun _ h => by omega⟩

theorem sectorCall_trusted {pat : Pattern} {m : Nat → UInt8} {pData : List UInt8}
    {writeAddr sectorNum sectorOff secreMain : Nat} {call : AnyCall} (hn : secreMain ≤ pData.length)
    (hfit : sectorOff + secreMain ≤ flashSectorSize)
    (h : sectorCall pat m pData writeAddr sectorNum sectorOff secreMain = some call) :
    call.Trusted ↔ (none ∈ call.outs → some 9 ∈ call.outs) := by
  have hss : flashSectorSize = 4096 := rfl
  have htake : (pData.take secreMain).length = secreMain := by rw [List.length_take]; omega
  rw [sectorCall] at h
  dsimp only at h
  split at h
  · have hlen : ((read m (sectorNum * flashSectorSize) flashSectorSize).take sectorOff ++ pData.take secreMain ++
        (read m (sectorNum * flashSectorSize) flashSectorSize).drop (sectorOff + secreMain)).length = flashSectorSize := by
      simp only [List.length_append, htake, List.length_take, List.length_drop, length_read]
      omega
    rw [← hlen] at h
    refine callAny_trusted ?_ (by rw [hlen] at h ⊢; exact h)
    rw [hlen]
    decide
  · have h16 : (pData.take secreMain).length < 2 ^ 16 := by omega
    exact callAny_trusted h16 (by rw [htake]; exact h)

theorem flashLoop_trusted {pats : Nat → Pattern} : ∀ (n k : Nat) (m : Nat → UInt8) (pData : List UInt8)
    (writeAddr sectorNum sectorOff secreMain : Nat), pData.length < 2 ^ 32 → sectorOff ≤ flashSectorSize →
    secreMain = min pData.length (flashSectorSize - sectorOff) →
    ∀ call ∈ flashLoop pats n k m pData pData.length writeAddr sectorNum sectorOff secreMain,
      (call.Trusted ↔ (none ∈ call.outs → some 9 ∈ call.outs))
  | 0, _, _, _, _, _, _, _, _, _, _, _, hc => by cases hc
  | n + 1, k, m, pData, writeAddr, sectorNum, sectorOff, secreMain, h32, hoff, hmain, call, hc => by
    rw [flashLoop] at hc
    cases hs : sectorCall (pats k) m pData writeAddr sectorNum sectorOff secreMain with
    | none =>
      rw [hs] at hc
      cases hc
    | some first =>
      have hfirst := sectorCall_trusted (by omega) (by omega) hs
      simp only [hs] at hc
      split at hc
      · rw [List.mem_singleton.mp hc]
        exact hfirst
      · rcases List.mem_cons.mp hc with rfl | hc
        · exact hfirst
        · have hlen : (((pData.length : Int) - secreMain) % 2 ^ 32).toNat = (pData.drop secreMain).length := by
            rw [List.length_drop]
            omega
          have hnext : (if (pData.drop secreMain).length > flashSectorSize then flashSectorSize
              else (pData.drop secreMain).length) = min (pData.drop secreMain).length (flashSectorSize - 0) := by
            split <;> omega
          rw [hlen, hnext] at hc
          exact flashLoop_trusted n (k + 1) _ _ _ _ 0 _ (by rw [List.length_drop]; omega) (Nat.zero_le _) rfl call hc

theorem flashCalls_trusted {pats : Nat → Pattern} {m : Nat → UInt8} {pData : List UInt8} {pos : Nat}
    (h32 : pData.length < 2 ^ 32) : ∀ call ∈ flashCalls pats m pData pData.length pos,
      (call.Trusted ↔ (none ∈ call.outs → some 9 ∈ call.outs)) := by
  have hmin : (if pData.length ≤ flashSectorSize - pos % flashSectorSize then pData.length
      else flashSectorSize - pos % flashSectorSize) = min pData.length (flashSectorSize - pos % flashSectorSize) := by
    split <;> omega
  have hoff : pos % flashSectorSize < flashSectorSize := Nat.mod_lt _ (by decide)
  simp only [flashCalls, hmin]
  exact flashLoop_trusted _ 0 m pData pos _ _ _ h32 (Nat.le_of_lt hoff) rfl

/-- **Page programs that fail.** `QSpiWriteOneSector` and `QSpiWriteAny` do what they are to do exactly
when their outcomes are settled, and `WriteFlash` takes no unwritten page for written exactly when in
each of its calls a page that never reads back comes with one that does at the tenth attempt. -/
theorem page_retry (pats : Nat → Pattern) (m : Nat → UInt8) :
    (∀ (sectorAddr : Nat) (pBuf : Vector UInt8 flashSectorSize), sectorAddr % flashPageSize = 0 →
      let ps := pages (flashSectorSize + 1) sectorAddr pBuf.toList
      let outs := outcomes (pats 0) (eraseSector sectorAddr m) 0 ps
      Honest outs ps sectorAddr pBuf.toList (writeOneSector (pats 0) m sectorAddr pBuf.toList) ↔ Settled outs) ∧
    (∀ (a : Nat) (data : List UInt8), data.length < 2 ^ 16 →
      let ps := pages (data.length + 1) a data
      let outs := outcomes (pats 0) m 0 ps
      (∃ r, writeAny (pats 0) m a data data.length = some r ∧ Honest outs ps a data r) ↔ Settled outs) ∧
    ∀ (data : List UInt8) (pos : Nat), data.length < 2 ^ 32 →
      ((∀ call ∈ flashCalls pats m data data.length pos, call.Trusted) ↔
        ∀ call ∈ flashCalls pats m data data.length pos, none ∈ call.outs → some 9 ∈ call.outs) := by
  refine ⟨fun sectorAddr pBuf ha => ?_, fun a data h16 => ?_, fun data pos h32 => ?_⟩
  · have hlen : pBuf.toList.length < flashSectorSize + 1 := by simp
    obtain ⟨ht, hdata⟩ := pages_tiled (flashSectorSize + 1) sectorAddr pBuf.toList hlen
    have hrun : writeOneSector (pats 0) m sectorAddr pBuf.toList = pageLoop 0xFFFFFFFF (pats 0) 0
        ⟨eraseSector sectorAddr m, []⟩ (pages (flashSectorSize + 1) sectorAddr pBuf.toList) :=
      sectorLoop_eq 15 _ 0 _ _ _ ha (Vector.length_toList) hlen
    rw [hrun]
    exact honest_iff ht hdata (pages_row (by decide) hlen)
  · obtain ⟨ht, hdata⟩ := pages_tiled (data.length + 1) a data (Nat.lt_succ_self _)
    simp only [writeAny_eq h16, Option.some.injEq, exists_eq_left']
    exact honest_iff ht hdata (pages_row (by decide) (Nat.lt_succ_self _))
  · exact forall₂_congr fun call hc => flashCalls_trusted h32 call hc

theorem page_retry_obeyed : ∃ r, writeAny (fun _ _ => true) (fun _ => 0xFF) 0x1000 [1, 2, 3] 3 = some r ∧
    Honest [some 0] [(0x1000, [1, 2, 3])] 0x1000 [1, 2, 3] r :=
  ((page_retry (fun _ _ _ => true) fun _ => 0xFF).2.1 0x1000 [1, 2, 3] (by decide)).mpr (.inl (by decide))

/-- On a chip where no program takes effect both `QSpiWriteAny` and `WriteFlash`
take the page for written; where the tenth attempt does, the written page is
reported as failed. -/
theorem page_retry_inverted :
    (writeAny (fun _ _ => false) (fun _ => 0xFF) 0 [1, 2, 3] 3).map (fun r => (r.2, read r.1.mem 0 3)) =
      some (0, [0xFF, 0xFF, 0xFF]) ∧
    (writeAny (fun _ i => i == 9) (fun _ => 0xFF) 0 [1, 2, 3] 3).map (fun r => (r.2, read r.1.mem 0 3)) =
      some (-1, [1, 2, 3]) ∧
    (flashCalls (fun _ _ _ => false) (fun _ => 0xFF) [1, 2, 3] 3 0).map (fun c => (c.ret, read c.after c.adr 3)) =
      [(0, [0xFF, 0xFF, 0xFF])] :=
  ⟨by decide, by decide, by rfl⟩

end SerialNet.Flash
