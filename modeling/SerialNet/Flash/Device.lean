import Mathlib.Algebra.Order.Ring.Nat
import SerialNet.Lib.Patch

/-!
# The NOR flash and the code that writes it

`flash.c` and `WriteFlash` of `serialNet.c`. The device keeps a trace of what
was done to the chip and of every store to a narrow counter.
-/

namespace SerialNet.Flash

open Patch

abbrev flashPageSize : Nat := 256
abbrev flashSectorSize : Nat := 4096
abbrev nvmMaxSize : Nat := 0x80000

inductive Event where
  | erase (sectorAddr : Nat)
  /-- A page program of `data` over the bytes `old`. -/
  | program (adr : Nat) (data old : List UInt8)
  /-- A store of `value` to an unsigned counter of `bits` bits. -/
  | store (bits : Nat) (value : Int)

/-- An erase is aligned, a program stays in its page and sets no bit, a store
does not wrap. -/
def Event.Fine : Event → Prop
  | .erase sectorAddr => sectorAddr % flashSectorSize = 0
  | .program adr data old =>
    adr % flashPageSize + data.length ≤ flashPageSize ∧ List.Forall₂ (fun o b : UInt8 => o &&& b = b) old data
  | .store bits value => 0 ≤ value ∧ value < 2 ^ bits

structure Device where
  mem : Nat → UInt8
  trace : List Event

def Device.store (d : Device) (bits : Nat) (value : Int) : Nat × Device :=
  ((value % 2 ^ bits).toNat, { d with trace := d.trace ++ [.store bits value] })

/-! ## The chip -/

def qspiFlashEraseSector (d : Device) (sectorAddr : Nat) : Device where
  mem := fun x => if x / flashSectorSize = sectorAddr / flashSectorSize then 0xFF else d.mem x
  trace := d.trace ++ [.erase sectorAddr]

/-- The address the chip programs after `adr`: it stays in the page. -/
def nextInPage (adr : Nat) : Nat := adr / flashPageSize * flashPageSize + (adr + 1) % flashPageSize

/-- Programming can only clear bits. -/
def programBytes : (Nat → UInt8) → Nat → List UInt8 → Nat → UInt8
  | mem, _, [] => mem
  | mem, adr, b :: pBuf => programBytes (Function.update mem adr (mem adr &&& b)) (nextInPage adr) pBuf

def qspiFlashWriteOnePage (d : Device) (adr : Nat) (pBuf : List UInt8) : Device where
  mem := programBytes d.mem adr pBuf
  trace := d.trace ++ [.program adr pBuf (read d.mem adr pBuf.length)]

/-! ## QSpiWriteAny -/

/-- `while (j--)` over one page: it ends when the page reads back as written.
The result is the device and `j`. -/
def tryPage (d : Device) (writeAddr : Nat) (pData : List UInt8) : Nat → Device × Nat
  | 0 => (d, 0xFFFF)
  | j + 1 =>
    let d := qspiFlashWriteOnePage d writeAddr pData
    if read d.mem writeAddr pData.length = pData then (d, j) else tryPage d writeAddr pData j

/-- The page loop of `QSpiWriteAny`, or nothing when the fuel runs out. -/
def qspiWriteAnyLoop : Nat → Device → Nat → List UInt8 → Nat → Nat → Option (Device × Int)
  | 0, _, _, _, _, _ => none
  | n + 1, d, writeAddr, pData, dataLen, pageremain =>
    let (d, j) := tryPage d writeAddr (pData.take pageremain) 10
    if j = 0 then some (d, -1)
    else if dataLen = pageremain then some (d, 0)
    else
      let (dataLen', d) := d.store 16 (dataLen - pageremain)
      let (pageremain', d) := d.store 16 (if dataLen' > flashPageSize then flashPageSize else dataLen' : Nat)
      qspiWriteAnyLoop n d (writeAddr + pageremain) (pData.drop pageremain) dataLen' pageremain'

/-- `QSpiWriteAny` of the `dataLen` bytes at `pData`. -/
def qspiWriteAny (d : Device) (writeAddr : Nat) (pData : List UInt8) (dataLen : Nat) : Option (Device × Int) :=
  let (dataLen, d) := d.store 16 dataLen
  let (pageremain, d) := d.store 16 (flashPageSize - writeAddr % flashPageSize : Nat)
  let (pageremain, d) := if dataLen ≤ pageremain then d.store 16 dataLen else (pageremain, d)
  qspiWriteAnyLoop (dataLen + 1) d writeAddr pData dataLen pageremain

/-! ## WriteFlash -/

/-- One sector: the bytes already erased are programmed in place, else the
sector is erased and programmed again around the new bytes. -/
def writeSector (d : Device) (pData : List UInt8) (writeAddr sectorNum sectorOff secreMain : Nat) :
    Option (Device × Int) :=
  let flashBuf := read d.mem (sectorNum * flashSectorSize) flashSectorSize
  let i := (((flashBuf.drop sectorOff).take secreMain).takeWhile (· == 0xFF)).length
  if i < secreMain then
    let d := qspiFlashEraseSector d (sectorNum * flashSectorSize)
    let flashBuf := flashBuf.take sectorOff ++ pData.take secreMain ++ flashBuf.drop (sectorOff + secreMain)
    qspiWriteAny d (sectorNum * flashSectorSize) flashBuf flashSectorSize
  else qspiWriteAny d writeAddr (pData.take secreMain) secreMain

/-- The sector loop of `WriteFlash`, or nothing when the fuel runs out. -/
def writeFlashLoop : Nat → Device → List UInt8 → Nat → Nat → Nat → Nat → Nat → Option Device
  | 0, _, _, _, _, _, _, _ => none
  | n + 1, d, pData, dataLen, writeAddr, sectorNum, sectorOff, secreMain =>
    (writeSector d pData writeAddr sectorNum sectorOff secreMain).bind fun (d, err) =>
      if err ≠ 0 then some d
      else if dataLen = secreMain then some d
      else
        let (sectorNum, d) := d.store 8 (sectorNum + 1)
        let (dataLen, d) := d.store 32 (dataLen - secreMain)
        let (secreMain', d) := d.store 16 (if dataLen > flashSectorSize then flashSectorSize else dataLen : Nat)
        writeFlashLoop n d (pData.drop secreMain) dataLen (writeAddr + secreMain) sectorNum 0 secreMain'

/-- `WriteFlash` of the `dataLen` bytes at `pData`. -/
def writeFlash (d : Device) (pData : List UInt8) (dataLen burnStartPos : Nat) : Option Device :=
  let (sectorNum, d) := d.store 8 (burnStartPos / flashSectorSize)
  let (sectorOff, d) := d.store 16 (burnStartPos % flashSectorSize)
  let (secreMain, d) := d.store 16 (flashSectorSize - sectorOff)
  let (secreMain, d) := if dataLen ≤ secreMain then d.store 16 dataLen else (secreMain, d)
  writeFlashLoop (dataLen + 1) d pData dataLen burnStartPos sectorNum sectorOff secreMain

end SerialNet.Flash
