import SerialNet.Flash.Device
import Mathlib.Data.List.Forall2
import Mathlib.Data.List.TakeWhile

/-!
# What WriteFlash writes

`WriteFlash` patches exactly its range: it never programs across a page, never
needs a bit set, and its narrow counters do not wrap.
-/

namespace SerialNet.Flash

open Patch

def Clean (d : Device) : Prop := ∀ e ∈ d.trace, e.Fine

section
variable {d d' : Device} {m : Nat → UInt8} {a n : Nat} {pData : List UInt8}

theorem Clean.snoc {t : List Event} {e : Event} (h : ∀ e ∈ t, e.Fine) (he : e.Fine) : ∀ e' ∈ t ++ [e], e'.Fine := by
  intro e' h'
  rcases List.mem_append.mp h' with h' | h'
  · exact h e' h'
  · rw [List.mem_singleton.mp h']; exact he

theorem store_fits (bits v : Nat) (h : Clean d) (hv : v < 2 ^ bits) :
    ∃ d', d.store bits v = (v, d') ∧ d'.mem = d.mem ∧ Clean d' := by
  refine ⟨_, Prod.ext ?_ rfl, rfl, Clean.snoc h ⟨Int.natCast_nonneg v, by exact_mod_cast hv⟩⟩
  have hmod : ((v : Int) % 2 ^ bits) = v := Int.emod_eq_of_lt (Int.natCast_nonneg v) (by exact_mod_cast hv)
  simp [Device.store, hmod]

/-! ## Pages -/

theorem and_ff (b : UInt8) : 0xFF &&& b = b := by
  have h : ∀ x : BitVec 8, 0xFF#8 &&& x = x := by decide
  exact UInt8.eq_of_toBitVec_eq (h b.toBitVec)

theorem programBytes_patch :
    ∀ {m : Nat → UInt8} {a : Nat} {l : List UInt8}, a % flashPageSize + l.length ≤ flashPageSize →
      (∀ i (h : i < l.length), m (a + i) &&& l[i] = l[i]) → programBytes m a l = patch m a l
  | _, _, [], _, _ => rfl
  | m, a, b :: l, hpage, hbits => by
    have hb : m a &&& b = b := hbits 0 (by simp)
    rw [programBytes, patch_cons, hb]
    cases l with
    | nil => rfl
    | cons c l =>
      have hnext : nextInPage a = a + 1 := by
        unfold nextInPage flashPageSize at *
        simp only [List.length_cons] at hpage
        omega
      rw [hnext]
      refine programBytes_patch ?_ fun i h => ?_
      · unfold flashPageSize at *
        simp only [List.length_cons] at hpage ⊢
        omega
      · rw [Function.update_of_ne (by omega), show a + 1 + i = a + (i + 1) by omega]
        exact hbits (i + 1) (by simpa using h)

theorem forall₂_read {l : List UInt8} (h : ∀ i (h : i < l.length), m (a + i) &&& l[i] = l[i]) :
    List.Forall₂ (fun o b : UInt8 => o &&& b = b) (read m a l.length) l := by
  refine List.forall₂_iff_get.mpr ⟨by simp, fun i h₁ h₂ => ?_⟩
  simp only [List.get_eq_getElem, getElem_read]
  exact h i h₂

theorem tryPage_erased (j : Nat) {pData : List UInt8} (hd : Clean d) (hpage : a % flashPageSize + pData.length ≤ flashPageSize)
    (hff : ∀ i, i < pData.length → d.mem (a + i) = 0xFF) :
    ∃ d', tryPage d a pData (j + 1) = (d', j) ∧ d'.mem = patch d.mem a pData ∧ Clean d' := by
  have hbits : ∀ i (h : i < pData.length), d.mem (a + i) &&& pData[i] = pData[i] := fun i h => by
    rw [hff i h, and_ff]
  have hmem : (qspiFlashWriteOnePage d a pData).mem = patch d.mem a pData := programBytes_patch hpage hbits
  refine ⟨qspiFlashWriteOnePage d a pData, ?_, hmem, Clean.snoc hd ⟨hpage, forall₂_read hbits⟩⟩
  simp only [tryPage]
  rw [if_pos (by rw [hmem, read_patch])]

/-! ## QSpiWriteAny -/

theorem qspiWriteAnyLoop_spec :
    ∀ (n : Nat) (d : Device) (a : Nat) (pData : List UInt8) (pageremain : Nat), Clean d → pData.length < n →
      pData.length < 2 ^ 16 → pageremain = min pData.length (flashPageSize - a % flashPageSize) →
      (∀ i, i < pData.length → d.mem (a + i) = 0xFF) →
      ∃ d', qspiWriteAnyLoop n d a pData pData.length pageremain = some (d', 0) ∧
        d'.mem = patch d.mem a pData ∧ Clean d'
  | 0, _, _, _, _, _, hn, _, _, _ => absurd hn (Nat.not_lt_zero _)
  | n + 1, d, a, pData, pageremain, hd, hn, h16, hrem, hff => by
    have hlen : (pData.take pageremain).length = pageremain := by rw [List.length_take]; omega
    have hpage : a % flashPageSize + (pData.take pageremain).length ≤ flashPageSize := by
      rw [hlen]; unfold flashPageSize at *; omega
    obtain ⟨d₁, htry, hmem₁, hd₁⟩ := tryPage_erased 9 hd hpage fun i hi => hff i (by omega)
    rw [qspiWriteAnyLoop, htry]
    dsimp only
    rw [if_neg (by decide)]
    by_cases hlast : pData.length = pageremain
    · rw [if_pos hlast]
      refine ⟨d₁, rfl, ?_, hd₁⟩
      rw [hmem₁, List.take_of_length_le (by omega)]
    · rw [if_neg hlast]
      have hdrop : (pData.drop pageremain).length = pData.length - pageremain := List.length_drop
      obtain ⟨d₂, hst₂, hmem₂, hd₂⟩ := store_fits 16 (pData.drop pageremain).length hd₁ (by omega)
      have hcast : ((pData.length : Int) - pageremain) = ((pData.drop pageremain).length : Nat) := by omega
      rw [hcast, hst₂]
      dsimp only
      have hnext : (if (pData.drop pageremain).length > flashPageSize then flashPageSize
          else (pData.drop pageremain).length) =
            min (pData.drop pageremain).length (flashPageSize - (a + pageremain) % flashPageSize) := by
        unfold flashPageSize at *; split <;> omega
      have hpos : 0 < pageremain := by unfold flashPageSize at *; omega
      obtain ⟨d₃, hst₃, hmem₃, hd₃⟩ := store_fits 16
        (min (pData.drop pageremain).length (flashPageSize - (a + pageremain) % flashPageSize)) hd₂ (by omega)
      rw [hnext, hst₃]
      dsimp only
      have hmem : d₃.mem = patch d.mem a (pData.take pageremain) := by rw [hmem₃, hmem₂, hmem₁]
      have hff' : ∀ i, i < (pData.drop pageremain).length → d₃.mem (a + pageremain + i) = 0xFF := fun i hi => by
        rw [hmem, patch_above (by rw [hlen]; omega), Nat.add_assoc]
        exact hff _ (by omega)
      obtain ⟨d', hloop, hmem', hd'⟩ := qspiWriteAnyLoop_spec n d₃ (a + pageremain) (pData.drop pageremain) _
        hd₃ (by omega) (by omega) rfl hff'
      refine ⟨d', hloop, ?_, hd'⟩
      rw [hmem', hmem]
      conv_rhs => rw [← List.take_append_drop pageremain pData]
      rw [patch_append, hlen]

theorem qspiWriteAny_spec (a : Nat) (pData : List UInt8) (hd : Clean d) (h16 : pData.length < 2 ^ 16)
    (hff : ∀ i, i < pData.length → d.mem (a + i) = 0xFF) :
    ∃ d', qspiWriteAny d a pData pData.length = some (d', 0) ∧ d'.mem = patch d.mem a pData ∧ Clean d' := by
  obtain ⟨d₁, hst₁, hmem₁, hd₁⟩ := store_fits 16 pData.length hd h16
  obtain ⟨d₂, hst₂, hmem₂, hd₂⟩ := store_fits 16 (flashPageSize - a % flashPageSize) hd₁
    (by unfold flashPageSize; omega)
  unfold qspiWriteAny
  rw [hst₁]
  dsimp only
  rw [hst₂]
  dsimp only
  rw [← hmem₁, ← hmem₂] at hff ⊢
  by_cases hle : pData.length ≤ flashPageSize - a % flashPageSize
  · obtain ⟨d₃, hst₃, hmem₃, hd₃⟩ := store_fits 16 pData.length hd₂ h16
    rw [if_pos hle, hst₃]
    rw [← hmem₃] at hff ⊢
    exact qspiWriteAnyLoop_spec _ d₃ a pData _ hd₃ (Nat.lt_succ_self _) h16 (by omega) hff
  · rw [if_neg hle]
    exact qspiWriteAnyLoop_spec _ d₂ a pData _ hd₂ (Nat.lt_succ_self _) h16 (by omega) hff

/-! ## Sectors -/

theorem erase_clean (hd : Clean d) (sectorNum : Nat) :
    Clean (qspiFlashEraseSector d (sectorNum * flashSectorSize)) :=
  Clean.snoc hd (Nat.mul_mod_left ..)

theorem erase_mem {sectorNum i : Nat} (h : i < flashSectorSize) :
    (qspiFlashEraseSector d (sectorNum * flashSectorSize)).mem (sectorNum * flashSectorSize + i) = 0xFF := by
  simp only [qspiFlashEraseSector]
  rw [if_pos (by unfold flashSectorSize at *; omega)]

theorem erase_mem_other (sectorNum : Nat) {x : Nat}
    (h : x < sectorNum * flashSectorSize ∨ sectorNum * flashSectorSize + flashSectorSize ≤ x) :
    (qspiFlashEraseSector d (sectorNum * flashSectorSize)).mem x = d.mem x := by
  simp only [qspiFlashEraseSector]
  rw [if_neg (by unfold flashSectorSize at *; omega)]

/-- The scan stops at the end only over erased bytes. -/
theorem scan_erased {l : List UInt8} (h : ¬(l.takeWhile (· == 0xFF)).length < l.length) :
    ∀ b ∈ l, b = 0xFF := by
  have hall : l.takeWhile (· == 0xFF) = l := by
    refine (List.takeWhile_prefix _).eq_of_length ?_
    have := (List.takeWhile_sublist (fun b : UInt8 => b == 0xFF) (l := l)).length_le
    omega
  intro b hb
  simpa using List.takeWhile_eq_self_iff.mp hall b hb

theorem writeSector_spec {sectorNum sectorOff secreMain : Nat} (hd : Clean d) (hn : secreMain ≤ pData.length)
    (hfit : sectorOff + secreMain ≤ flashSectorSize) :
    ∃ d', writeSector d pData (sectorNum * flashSectorSize + sectorOff) sectorNum sectorOff secreMain = some (d', 0) ∧
      d'.mem = patch d.mem (sectorNum * flashSectorSize + sectorOff) (pData.take secreMain) ∧ Clean d' := by
  have hss : flashSectorSize = 4096 := rfl
  have htake : (pData.take secreMain).length = secreMain := by rw [List.length_take]; omega
  have hrange : ∀ x, x < sectorNum * flashSectorSize ∨ sectorNum * flashSectorSize + flashSectorSize ≤ x →
      x < sectorNum * flashSectorSize + sectorOff ∨
        sectorNum * flashSectorSize + sectorOff + (pData.take secreMain).length ≤ x := by
    intro x hx
    generalize sectorNum * flashSectorSize = b at hx ⊢
    omega
  have hscan : ((read d.mem (sectorNum * flashSectorSize) flashSectorSize).drop sectorOff).take secreMain =
      read d.mem (sectorNum * flashSectorSize + sectorOff) secreMain := by
    rw [drop_read, take_read, Nat.min_eq_left (by omega)]
  unfold writeSector
  dsimp only
  rw [hscan]
  by_cases hused : ((read d.mem (sectorNum * flashSectorSize + sectorOff) secreMain).takeWhile (· == 0xFF)).length <
      secreMain
  · -- the erased sector gets its old bytes back around the new ones
    have hbuf := splice_read (m := d.mem) (a := sectorNum * flashSectorSize) (l := pData.take secreMain)
      (n := flashSectorSize) (i := sectorOff) (by omega)
    rw [htake] at hbuf
    rw [if_pos hused, hbuf]
    obtain ⟨d', hwrite, hmem, hd'⟩ := qspiWriteAny_spec (sectorNum * flashSectorSize)
      (read (patch d.mem (sectorNum * flashSectorSize + sectorOff) (pData.take secreMain))
        (sectorNum * flashSectorSize) flashSectorSize)
      (erase_clean hd sectorNum) (by rw [length_read]; decide) fun i hi => erase_mem (by simpa using hi)
    rw [length_read] at hwrite
    refine ⟨d', hwrite, ?_, hd'⟩
    rw [hmem]
    refine patch_read _ _ _ _ fun x hx => ?_
    rw [patch_outside (hrange x hx)]
    exact (erase_mem_other sectorNum hx).symm
  · rw [if_neg hused]
    have hff := scan_erased (l := read d.mem (sectorNum * flashSectorSize + sectorOff) secreMain) (by simpa using hused)
    have h := qspiWriteAny_spec (sectorNum * flashSectorSize + sectorOff) (pData.take secreMain) hd
      (by omega) fun i hi => hff _ (mem_read.mpr ⟨i, by omega, rfl⟩)
    rwa [htake] at h

/-! ## WriteFlash -/

theorem writeFlashLoop_spec (n : Nat) :
    ∀ (d : Device) (pData : List UInt8) (sectorNum sectorOff secreMain : Nat), Clean d →
      pData.length < n → sectorOff < flashSectorSize → secreMain = min pData.length (flashSectorSize - sectorOff) →
      sectorNum * flashSectorSize + sectorOff + pData.length ≤ nvmMaxSize →
      ∃ d', writeFlashLoop n d pData pData.length (sectorNum * flashSectorSize + sectorOff) sectorNum sectorOff
          secreMain = some d' ∧
        d'.mem = patch d.mem (sectorNum * flashSectorSize + sectorOff) pData ∧ Clean d' := by
  induction n with
  | zero => intro d pData sectorNum sectorOff secreMain hd hn; omega
  | succ n ih =>
    intro d pData sectorNum sectorOff secreMain hd hn hoff hmain hfit
    have hss : flashSectorSize = 4096 := rfl
    have hmax : nvmMaxSize = 0x80000 := rfl
    obtain ⟨d₁, hsec, hmem₁, hd₁⟩ := @writeSector_spec _ _ sectorNum _ _ hd (by omega : secreMain ≤ pData.length)
      (by omega : sectorOff + secreMain ≤ flashSectorSize)
    rw [writeFlashLoop, hsec, Option.bind_some]
    dsimp only
    rw [if_neg (by decide)]
    by_cases hlast : pData.length = secreMain
    · rw [if_pos hlast]
      refine ⟨d₁, rfl, ?_, hd₁⟩
      rw [hmem₁, List.take_of_length_le (by omega)]
    · rw [if_neg hlast]
      have hdrop : (pData.drop secreMain).length = pData.length - secreMain := List.length_drop
      have hmul : (sectorNum + 1) * flashSectorSize = sectorNum * flashSectorSize + flashSectorSize := Nat.succ_mul ..
      have haddr : sectorNum * flashSectorSize + sectorOff + secreMain = (sectorNum + 1) * flashSectorSize + 0 := by
        omega
      have hnum : sectorNum + 1 < 128 := by
        unfold flashSectorSize at *; omega
      obtain ⟨d₂, hst₂, hmem₂, hd₂⟩ := store_fits 8 (sectorNum + 1) hd₁ (by omega)
      obtain ⟨d₃, hst₃, hmem₃, hd₃⟩ := store_fits 32 (pData.drop secreMain).length hd₂ (by omega)
      have hnext : (if (pData.drop secreMain).length > flashSectorSize then flashSectorSize
          else (pData.drop secreMain).length) = min (pData.drop secreMain).length (flashSectorSize - 0) := by
        split <;> omega
      obtain ⟨d₄, hst₄, hmem₄, hd₄⟩ := store_fits 16 (min (pData.drop secreMain).length (flashSectorSize - 0)) hd₃
        (by omega)
      have hcast : ((pData.length : Int) - secreMain) = ((pData.drop secreMain).length : Nat) := by omega
      have hcast' : ((sectorNum : Int) + 1) = (sectorNum + 1 : Nat) := by omega
      rw [hcast', hst₂]
      dsimp only
      rw [hcast, hst₃]
      dsimp only
      rw [hnext, hst₄, haddr]
      dsimp only
      have hrest : (sectorNum + 1) * flashSectorSize + 0 + (pData.drop secreMain).length ≤ nvmMaxSize := by
        rw [← haddr, hdrop]
        generalize sectorNum * flashSectorSize = b at hfit ⊢
        omega
      obtain ⟨d', hloop, hmem', hd'⟩ := ih d₄ (pData.drop secreMain) (sectorNum + 1) 0 _ hd₄
        (by omega) (by decide) rfl hrest
      refine ⟨d', hloop, ?_, hd'⟩
      have htake : (pData.take secreMain).length = secreMain := by rw [List.length_take]; omega
      rw [hmem', hmem₄, hmem₃, hmem₂, hmem₁]
      conv_rhs => rw [← List.take_append_drop secreMain pData]
      rw [patch_append, htake, haddr]

theorem writeFlash_patch {pos : Nat} (hd : Clean d) (hfit : pos + pData.length ≤ nvmMaxSize) :
    ∃ d', writeFlash d pData pData.length pos = some d' ∧ d'.mem = patch d.mem pos pData ∧ Clean d' := by
  have hmax : nvmMaxSize = 0x80000 := rfl
  have hss : flashSectorSize = 4096 := rfl
  have hpos : pos / flashSectorSize * flashSectorSize + pos % flashSectorSize = pos := Nat.div_add_mod' ..
  have hoff : pos % flashSectorSize < flashSectorSize := Nat.mod_lt _ (by decide)
  have hnum : pos / flashSectorSize < 2 ^ 8 := by unfold flashSectorSize; omega
  obtain ⟨d₁, hst₁, hmem₁, hd₁⟩ := store_fits 8 (pos / flashSectorSize) hd hnum
  obtain ⟨d₂, hst₂, hmem₂, hd₂⟩ := store_fits 16 (pos % flashSectorSize) hd₁ (by omega)
  obtain ⟨d₃, hst₃, hmem₃, hd₃⟩ := store_fits 16 (flashSectorSize - pos % flashSectorSize) hd₂
    (by unfold flashSectorSize; omega)
  have hcast : ((flashSectorSize : Int) - (pos % flashSectorSize : Nat)) =
      (flashSectorSize - pos % flashSectorSize : Nat) := by omega
  rw [writeFlash, ← Int.natCast_ediv, hst₁]
  dsimp only
  rw [← Int.natCast_emod, hst₂]
  dsimp only
  rw [hcast, hst₃]
  dsimp only
  by_cases hle : pData.length ≤ flashSectorSize - pos % flashSectorSize
  · obtain ⟨d₄, hst₄, hmem₄, hd₄⟩ := store_fits 16 pData.length hd₃ (by unfold flashSectorSize at hle; omega)
    obtain ⟨d', hloop, hmem, hd'⟩ := writeFlashLoop_spec (pData.length + 1) d₄ pData (pos / flashSectorSize)
      (pos % flashSectorSize) pData.length hd₄ (Nat.lt_succ_self _) hoff (by omega) (by rw [hpos]; exact hfit)
    rw [hpos] at hloop hmem
    rw [if_pos hle, hst₄]
    exact ⟨d', hloop, by rw [hmem, hmem₄, hmem₃, hmem₂, hmem₁], hd'⟩
  · obtain ⟨d', hloop, hmem, hd'⟩ := writeFlashLoop_spec (pData.length + 1) d₃ pData (pos / flashSectorSize)
      (pos % flashSectorSize) (flashSectorSize - pos % flashSectorSize) hd₃ (Nat.lt_succ_self _) hoff (by omega)
      (by rw [hpos]; exact hfit)
    rw [hpos] at hloop hmem
    rw [if_neg hle]
    exact ⟨d', hloop, by rw [hmem, hmem₃, hmem₂, hmem₁], hd'⟩

/-- **WriteFlash.** Whatever the flash held, the range holds the data and every
other byte is as it was; no program crosses a page or needs a bit set, and no
counter wraps. -/
theorem writeFlash_spec (mem : Nat → UInt8) (data : List UInt8) (pos : Nat) (hfit : pos + data.length ≤ nvmMaxSize) :
    ∃ d, writeFlash ⟨mem, []⟩ data data.length pos = some d ∧
      (∀ i (h : i < data.length), d.mem (pos + i) = data[i]) ∧
      (∀ x, x < pos ∨ pos + data.length ≤ x → d.mem x = mem x) ∧ ∀ e ∈ d.trace, e.Fine := by
  obtain ⟨d, hwrite, hmem, hd⟩ := writeFlash_patch (d := ⟨mem, []⟩) (by simp [Clean]) hfit
  exact ⟨d, hwrite, fun i h => by rw [hmem, patch_inside], fun x hx => by rw [hmem, patch_outside hx], hd⟩

theorem writeFlash_spec_sample :
    ∃ d, writeFlash ⟨fun _ => 0, []⟩ [1, 2, 3] 3 4094 = some d ∧ d.mem 4096 = 3 := by
  obtain ⟨d, hwrite, hin, _⟩ := writeFlash_spec (fun _ => 0) [1, 2, 3] 4094 (by decide)
  exact ⟨d, hwrite, hin 2 (by decide)⟩

end

end SerialNet.Flash
