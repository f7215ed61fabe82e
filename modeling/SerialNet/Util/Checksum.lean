import SerialNet.Lib.Crc
import Mathlib.Data.List.GetD

/-!
# The checksums of util.c

`NST_GetCrc32` divides with an unreflected register, a byte at a time by 32
equations, and turns the result round; `NST_GetCrc8` looks each byte up.
-/

namespace SerialNet.Util

open Crc

/-! ## CRC-32 -/

/-- `crc_out`, from `in_data_buf` and `crc_buf`. -/
def crcOut (d c : Nat → Bool) : List Bool :=
  [
    d 1 ^^ d 7 ^^ c 30 ^^ c 24,
    d 0 ^^ d 1 ^^ d 6 ^^ d 7 ^^ c 31 ^^ c 30 ^^ c 25 ^^ c 24,
    d 0 ^^ d 1 ^^ d 5 ^^ d 6 ^^ d 7 ^^ c 31 ^^ c 30 ^^ c 26 ^^ c 25 ^^ c 24,
    d 0 ^^ d 4 ^^ d 5 ^^ d 6 ^^ c 31 ^^ c 27 ^^ c 26 ^^ c 25,
    d 1 ^^ d 3 ^^ d 4 ^^ d 5 ^^ d 7 ^^ c 30 ^^ c 28 ^^ c 27 ^^ c 26 ^^ c 24,
    d 0 ^^ d 1 ^^ d 2 ^^ d 3 ^^ d 4 ^^ d 6 ^^ d 7 ^^ c 31 ^^ c 30 ^^ c 29 ^^ c 28 ^^ c 27 ^^ c 25 ^^ c 24,
    d 0 ^^ d 1 ^^ d 2 ^^ d 3 ^^ d 5 ^^ d 6 ^^ c 31 ^^ c 30 ^^ c 29 ^^ c 28 ^^ c 26 ^^ c 25,
    d 0 ^^ d 2 ^^ d 4 ^^ d 5 ^^ d 7 ^^ c 31 ^^ c 29 ^^ c 27 ^^ c 26 ^^ c 24,
    d 3 ^^ d 4 ^^ d 6 ^^ d 7 ^^ c 28 ^^ c 27 ^^ c 25 ^^ c 24 ^^ c 0,
    d 2 ^^ d 3 ^^ d 5 ^^ d 6 ^^ c 29 ^^ c 28 ^^ c 26 ^^ c 25 ^^ c 1,
    d 2 ^^ d 4 ^^ d 5 ^^ d 7 ^^ c 29 ^^ c 27 ^^ c 26 ^^ c 24 ^^ c 2,
    d 3 ^^ d 4 ^^ d 6 ^^ d 7 ^^ c 28 ^^ c 27 ^^ c 25 ^^ c 24 ^^ c 3,
    d 1 ^^ d 2 ^^ d 3 ^^ d 5 ^^ d 6 ^^ d 7 ^^ c 30 ^^ c 29 ^^ c 28 ^^ c 26 ^^ c 25 ^^ c 24 ^^ c 4,
    d 0 ^^ d 1 ^^ d 2 ^^ d 4 ^^ d 5 ^^ d 6 ^^ c 31 ^^ c 30 ^^ c 29 ^^ c 27 ^^ c 26 ^^ c 25 ^^ c 5,
    d 0 ^^ d 1 ^^ d 3 ^^ d 4 ^^ d 5 ^^ c 31 ^^ c 30 ^^ c 28 ^^ c 27 ^^ c 26 ^^ c 6,
    d 0 ^^ d 2 ^^ d 3 ^^ d 4 ^^ c 31 ^^ c 29 ^^ c 28 ^^ c 27 ^^ c 7,
    d 2 ^^ d 3 ^^ d 7 ^^ c 29 ^^ c 28 ^^ c 24 ^^ c 8,
    d 1 ^^ d 2 ^^ d 6 ^^ c 30 ^^ c 29 ^^ c 25 ^^ c 9,
    d 0 ^^ d 1 ^^ d 5 ^^ c 31 ^^ c 30 ^^ c 26 ^^ c 10,
    d 0 ^^ d 4 ^^ c 31 ^^ c 27 ^^ c 11,
    d 3 ^^ c 28 ^^ c 12,
    d 2 ^^ c 29 ^^ c 13,
    d 7 ^^ c 24 ^^ c 14,
    d 1 ^^ d 6 ^^ d 7 ^^ c 30 ^^ c 25 ^^ c 24 ^^ c 15,
    d 0 ^^ d 5 ^^ d 6 ^^ c 31 ^^ c 26 ^^ c 25 ^^ c 16,
    d 4 ^^ d 5 ^^ c 27 ^^ c 26 ^^ c 17,
    d 1 ^^ d 3 ^^ d 4 ^^ d 7 ^^ c 30 ^^ c 28 ^^ c 27 ^^ c 24 ^^ c 18,
    d 0 ^^ d 2 ^^ d 3 ^^ d 6 ^^ c 31 ^^ c 29 ^^ c 28 ^^ c 25 ^^ c 19,
    d 1 ^^ d 2 ^^ d 5 ^^ c 30 ^^ c 29 ^^ c 26 ^^ c 20,
    d 0 ^^ d 1 ^^ d 4 ^^ c 31 ^^ c 30 ^^ c 27 ^^ c 21,
    d 0 ^^ d 3 ^^ c 31 ^^ c 28 ^^ c 22,
    d 2 ^^ c 23 ^^ c 29
  ]

/-- `for (i = 0; i < 32; i++) if (f(i)) v |= (1 << pos(i))`. -/
def orBits (f : Nat → Bool) (pos : Nat → Nat) : BitVec 32 :=
  (List.range 32).foldl (fun v i => if f i then v ||| 1#32 <<< pos i else v) 0#32

def calCrc32 (crcResult : BitVec 32) (data8 : BitVec 8) : BitVec 32 :=
  orBits (fun i => (crcOut data8.getLsbD crcResult.getLsbD).getD i false) id

def nstGetCrc32 (pData : List UInt8) : BitVec 32 :=
  let crcResult := pData.foldl (fun crcResult data => calCrc32 crcResult data.toBitVec) 0xFFFFFFFF#32
  ~~~(orBits crcResult.getLsbD (31 - ·))

/-! ## CRC-8 -/

def crc8Tbl : List UInt8 :=
  [
    0x00, 0x91, 0xe3, 0x72, 0x07, 0x96, 0xe4, 0x75, 0x0e, 0x9f, 0xed, 0x7c, 0x09, 0x98, 0xea, 0x7b,
    0x1c, 0x8d, 0xff, 0x6e, 0x1b, 0x8a, 0xf8, 0x69, 0x12, 0x83, 0xf1, 0x60, 0x15, 0x84, 0xf6, 0x67,
    0x38, 0xa9, 0xdb, 0x4a, 0x3f, 0xae, 0xdc, 0x4d, 0x36, 0xa7, 0xd5, 0x44, 0x31, 0xa0, 0xd2, 0x43,
    0x24, 0xb5, 0xc7, 0x56, 0x23, 0xb2, 0xc0, 0x51, 0x2a, 0xbb, 0xc9, 0x58, 0x2d, 0xbc, 0xce, 0x5f,
    0x70, 0xe1, 0x93, 0x02, 0x77, 0xe6, 0x94, 0x05, 0x7e, 0xef, 0x9d, 0x0c, 0x79, 0xe8, 0x9a, 0x0b,
    0x6c, 0xfd, 0x8f, 0x1e, 0x6b, 0xfa, 0x88, 0x19, 0x62, 0xf3, 0x81, 0x10, 0x65, 0xf4, 0x86, 0x17,
    0x48, 0xd9, 0xab, 0x3a, 0x4f, 0xde, 0xac, 0x3d, 0x46, 0xd7, 0xa5, 0x34, 0x41, 0xd0, 0xa2, 0x33,
    0x54, 0xc5, 0xb7, 0x26, 0x53, 0xc2, 0xb0, 0x21, 0x5a, 0xcb, 0xb9, 0x28, 0x5d, 0xcc, 0xbe, 0x2f,
    0xe0, 0x71, 0x03, 0x92, 0xe7, 0x76, 0x04, 0x95, 0xee, 0x7f, 0x0d, 0x9c, 0xe9, 0x78, 0x0a, 0x9b,
    0xfc, 0x6d, 0x1f, 0x8e, 0xfb, 0x6a, 0x18, 0x89, 0xf2, 0x63, 0x11, 0x80, 0xf5, 0x64, 0x16, 0x87,
    0xd8, 0x49, 0x3b, 0xaa, 0xdf, 0x4e, 0x3c, 0xad, 0xd6, 0x47, 0x35, 0xa4, 0xd1, 0x40, 0x32, 0xa3,
    0xc4, 0x55, 0x27, 0xb6, 0xc3, 0x52, 0x20, 0xb1, 0xca, 0x5b, 0x29, 0xb8, 0xcd, 0x5c, 0x2e, 0xbf,
    0x90, 0x01, 0x73, 0xe2, 0x97, 0x06, 0x74, 0xe5, 0x9e, 0x0f, 0x7d, 0xec, 0x99, 0x08, 0x7a, 0xeb,
    0x8c, 0x1d, 0x6f, 0xfe, 0x8b, 0x1a, 0x68, 0xf9, 0x82, 0x13, 0x61, 0xf0, 0x85, 0x14, 0x66, 0xf7,
    0xa8, 0x39, 0x4b, 0xda, 0xaf, 0x3e, 0x4c, 0xdd, 0xa6, 0x37, 0x45, 0xd4, 0xa1, 0x30, 0x42, 0xd3,
    0xb4, 0x25, 0x57, 0xc6, 0xb3, 0x22, 0x50, 0xc1, 0xba, 0x2b, 0x59, 0xc8, 0xbd, 0x2c, 0x5e, 0xcf
  ]

def nstGetCrc8 (ptr : List UInt8) : UInt8 := ptr.foldl (fun crc8 data => crc8Tbl.getD (crc8 ^^^ data).toNat 0) 0

/-! ## A word from its bits -/

section
variable {f : Nat → Bool} {pos : Nat → Nat} {j : Nat}

theorem getLsbD_orBits (hj : j < 32) : (orBits f pos).getLsbD j = (List.range 32).any fun i => f i && pos i == j := by
  have hfold : ∀ (l : List Nat) (v : BitVec 32),
      (l.foldl (fun v i => if f i then v ||| 1#32 <<< pos i else v) v).getLsbD j =
        (v.getLsbD j || l.any fun i => f i && pos i == j) := by
    intro l
    induction l with
    | nil =>
      intro v
      simp
    | cons i l ih =>
      intro v
      rw [List.foldl_cons, ih, List.any_cons]
      cases f i with
      | false => simp
      | true =>
        have hbit : (1#32 <<< pos i).getLsbD j = (pos i == j) := by
          rw [← BitVec.twoPow_eq, BitVec.getLsbD_twoPow]
          by_cases h : pos i = j <;> simp [h, hj]
        simp only [if_true, BitVec.getLsbD_or, hbit, Bool.true_and, Bool.or_assoc]
  rw [orBits, hfold, BitVec.getLsbD_zero, Bool.false_or]

theorem getLsbD_orBits_id (hj : j < 32) : (orBits f id).getLsbD j = f j := by
  rw [getLsbD_orBits hj, Bool.eq_iff_iff, List.any_eq_true]
  constructor
  · rintro ⟨i, -, hi⟩
    obtain ⟨hf, rfl⟩ : f i = true ∧ i = j := by simpa using hi
    exact hf
  · intro hf
    exact ⟨j, List.mem_range.mpr hj, by simp [hf]⟩

theorem orBits_reverse (c : BitVec 32) : orBits c.getLsbD (31 - ·) = c.reverse := by
  refine BitVec.eq_of_getLsbD_eq fun j hj => ?_
  rw [getLsbD_orBits hj, BitVec.getLsbD_reverse, BitVec.getMsbD, Bool.eq_iff_iff, List.any_eq_true]
  constructor
  · rintro ⟨i, hi, h⟩
    obtain ⟨hc, rfl⟩ : c.getLsbD i = true ∧ 31 - i = j := by simpa using h
    have hi' := List.mem_range.mp hi
    rw [show 32 - 1 - (31 - i) = i by omega, hc]
    simpa using hj
  · intro h
    have hc : c.getLsbD (32 - 1 - j) = true := by simpa [hj] using h
    exact ⟨32 - 1 - j, List.mem_range.mpr (by omega), by
      rw [hc, Bool.true_and, beq_iff_eq]
      omega⟩

end

/-! ## The equations -/

section
variable {c c' : BitVec 32} {d d' : BitVec 8}

theorem crcOut_xor (d d' c c' : Nat → Bool) : crcOut (fun i => d i ^^ d' i) (fun i => c i ^^ c' i) =
    List.zipWith (· ^^ ·) (crcOut d c) (crcOut d' c') := by
  have hcomm : Std.Commutative Bool.xor := ⟨Bool.xor_comm⟩
  simp only [crcOut, List.zipWith_cons_cons, List.zipWith_nil_left]
  repeat' refine congrArg₂ List.cons ?_ ?_
  all_goals ac_rfl

theorem calCrc32_xor : calCrc32 (c ^^^ c') (d ^^^ d') = calCrc32 c d ^^^ calCrc32 c' d' := by
  refine BitVec.eq_of_getLsbD_eq fun j hj => ?_
  have hd : (d ^^^ d').getLsbD = fun i => d.getLsbD i ^^ d'.getLsbD i := funext fun i => BitVec.getLsbD_xor
  have hc : (c ^^^ c').getLsbD = fun i => c.getLsbD i ^^ c'.getLsbD i := funext fun i => BitVec.getLsbD_xor
  simp only [calCrc32, BitVec.getLsbD_xor, getLsbD_orBits_id hj]
  rw [hd, hc, crcOut_xor]
  have hlen : j < (crcOut d.getLsbD c.getLsbD).length := hj
  have hlen' : j < (crcOut d'.getLsbD c'.getLsbD).length := hj
  rw [List.getD_eq_getElem _ _ hlen, List.getD_eq_getElem _ _ hlen',
    List.getD_eq_getElem _ _ (by rw [List.length_zipWith]; exact hj), List.getElem_zipWith]

theorem reverse_xor {n : Nat} : XorLinear (BitVec.reverse : BitVec n → BitVec n) := by
  intro x y
  refine BitVec.eq_of_getLsbD_eq fun j _ => ?_
  simp only [BitVec.getLsbD_reverse, BitVec.getLsbD_xor, BitVec.getMsbD_xor]

theorem setWidth_xor {n k : Nat} : XorLinear (BitVec.setWidth k : BitVec n → BitVec k) := fun _ _ =>
  BitVec.setWidth_xor

def poly32 : BitVec 32 := 0xEDB88320#32
def poly8 : BitVec 8 := 0xE0#8

/-- Turned round, the equations divide eight bits out. -/
theorem calCrc32_byte (c : BitVec 32) (d : BitVec 8) : (calCrc32 c d).reverse = byte poly32 c.reverse d := by
  have hregister : ∀ c : BitVec 32, (calCrc32 c 0#8).reverse = steps poly32 8 c.reverse := by
    refine XorLinear.ext (fun x y => ?_) ((steps_xor poly32 8).comp reverse_xor) (by decide +kernel)
    have hsum : calCrc32 (x ^^^ y) (0#8 ^^^ 0#8) = _ := calCrc32_xor
    rw [BitVec.xor_self] at hsum
    rw [hsum, reverse_xor]
  have hdata : ∀ d : BitVec 8, (calCrc32 0#32 d).reverse = steps poly32 8 (d.setWidth 32) := by
    refine XorLinear.ext (fun x y => ?_) ((steps_xor poly32 8).comp setWidth_xor) (by decide +kernel)
    have hsum : calCrc32 (0#32 ^^^ 0#32) (x ^^^ y) = _ := calCrc32_xor
    rw [BitVec.xor_self] at hsum
    rw [hsum, reverse_xor]
  have hsum : calCrc32 (c ^^^ 0#32) (0#8 ^^^ d) = calCrc32 c 0#8 ^^^ calCrc32 0#32 d := calCrc32_xor
  rw [BitVec.xor_zero, BitVec.zero_xor] at hsum
  rw [hsum, reverse_xor, hregister, hdata, byte, steps_xor]

/-- Over any data the register is the reflected one turned round. -/
theorem foldl_calCrc32 (data : List UInt8) : ∀ c : BitVec 32,
    (data.foldl (fun c d => calCrc32 c d.toBitVec) c).reverse = crc poly32 c.reverse (data.map UInt8.toBitVec) := by
  induction data with
  | nil =>
    intro c
    rfl
  | cons d data ih =>
    intro c
    rw [List.foldl_cons, ih, calCrc32_byte]
    rfl

theorem crc8Tbl_entry (i : Fin 256) : (crc8Tbl.getD i.1 0).toBitVec = steps poly8 8 (BitVec.ofNat 8 i.1) := by
  revert i
  decide +kernel

theorem foldl_crc8Tbl (data : List UInt8) : ∀ c : UInt8,
    (data.foldl (fun c d => crc8Tbl.getD (c ^^^ d).toNat 0) c).toBitVec =
      crc poly8 c.toBitVec (data.map UInt8.toBitVec) := by
  induction data with
  | nil =>
    intro c
    rfl
  | cons d data ih =>
    intro c
    have hentry := crc8Tbl_entry ⟨(c ^^^ d).toNat, (c ^^^ d).toNat_lt⟩
    have hindex : BitVec.ofNat 8 (c ^^^ d).toNat = c.toBitVec ^^^ d.toBitVec.setWidth 8 := by
      rw [BitVec.setWidth_eq, ← UInt8.toBitVec_xor]
      exact BitVec.eq_of_toNat_eq (by simp)
    rw [List.foldl_cons, ih, hentry, hindex]
    rfl

end

/-- **The checksums are the reflected divisions by their polynomials.** -/
theorem checksums_divide (data : List UInt8) :
    nstGetCrc32 data = ~~~(crc poly32 0xFFFFFFFF#32 (data.map UInt8.toBitVec)) ∧
    (nstGetCrc8 data).toBitVec = crc poly8 0#8 (data.map UInt8.toBitVec) := by
  refine ⟨?_, foldl_crc8Tbl data 0⟩
  have hinit : (0xFFFFFFFF#32).reverse = 0xFFFFFFFF#32 := by decide +kernel
  rw [nstGetCrc32, orBits_reverse, foldl_calCrc32, hinit]

-- the check value of "123456789"
example : nstGetCrc32 [49, 50, 51, 52, 53, 54, 55, 56, 57] = 0xCBF43926#32 := by decide +kernel

end SerialNet.Util
