import SerialNet.Flash.WriteFlash
import SerialNet.Lib.Run
import SerialNet.Param.FormDecode
import SerialNet.Web.Server

/-!
# The firmware upload

`http_update` of `http_parser.c` and what `http_engine` does around it, segment
by segment. Addresses are counted from the hundredth byte before the receive
buffer, so that those before it can be told.
-/

namespace SerialNet.Upload

open Patch Param Run
open Web (Status)

abbrev recvBufferSize : Nat := 3120
abbrev nvmFwBakOffset : Nat := 0x34000
abbrev fwImgSizeMax : Nat := 0x30000
abbrev bootParamOffset : Nat := 0x33000
abbrev handshakingOffset : Nat := 256

abbrev recData : Nat := 100

def marker : List UInt8 := bytes "Nu_link"

def trailer : List UInt8 := bytes "DEADBEEF"

def folded (key : List UInt8) : List UInt8 := key.map toLower

/-- What one call of `recv` stores. -/
structure Segment where
  data : List UInt8
  received : data ≠ []
  fits : data.length ≤ recvBufferSize

/-! ## http_update -/

/-- What a call of `WriteFlash` stores. -/
inductive Stored
  | image | bootParam
  deriving DecidableEq

/-- A call of `WriteFlash`, with its length as computed, before it becomes a `UINT32`. -/
structure FlashCall where
  what : Stored
  len : Int
  pos : UInt32
  deriving DecidableEq

/-- What a call of `http_update` returns and leaves: the statics, the flash unless a
`WriteFlash` did not return, its calls, and the addresses it has read. -/
structure Turn where
  ret : Int
  fmwStartSign : Bool
  firmwareSize : UInt32
  flash : Option (Nat → UInt8)
  calls : List FlashCall
  touched : List Nat

def word (x : Int) : UInt32 := UInt32.ofNat (x % 2 ^ 32).toNat

def Turn.store (t : Turn) (what : Stored) (data : List UInt8) (len : Int) (pos : UInt32) : Turn :=
  { t with
    flash := t.flash.bind fun mem => (Flash.writeFlash ⟨mem, []⟩ data (word len).toNat pos.toNat).map Flash.Device.mem
    calls := t.calls ++ [⟨what, len, pos⟩] }

def Turn.burn (t : Turn) (m : Nat → UInt8) (rx : Nat) (len : Int) (pos : UInt32) : Turn :=
  let t := t.store .image (read m rx (word len).toNat) len pos
  { t with touched := t.touched ++ List.range' rx (word len).toNat }

/-- The loops that look for a key at the `n` addresses from `a` on. -/
def seek (m : Nat → UInt8) (key : List UInt8) : Nat → Nat → Option Nat × List Nat
  | _, 0 => (none, [])
  | a, n + 1 =>
    let (r, ts) := strncmpi m a key
    if r then (some a, ts) else let (found, ts') := seek m key (a + 1) n; (found, ts ++ ts')

/-- `boot_param` read from the flash, its first three fields set. -/
def bootParam (flash : Nat → UInt8) : List UInt8 :=
  [0x00, 0x40, 0x03, 0x00, 0x02, 0x00, 0x01, 0x00] ++ read flash (bootParamOffset + 8) 8

/-- `http_update`; `sizeof("DEADBEEF")` is 9. -/
def httpUpdate (m : Nat → UInt8) (rxLen : Nat) (updFlag : UInt32) (fmwStartSign : Bool) (firmwareSize : UInt32)
    (flash : Nat → UInt8) : Turn :=
  let (head, ts) := if updFlag ≤ 2 then seek m (folded marker) recData rxLen else (none, [])
  let t : Turn := ⟨1, fmwStartSign, firmwareSize, some flash, [], ts⟩
  match head with
  | some rx =>
    let len : Int := (recData + rxLen - rx : Nat) - handshakingOffset
    let t := t.burn m (rx + handshakingOffset) len 0x34000
    { t with fmwStartSign := true, firmwareSize := word len }
  | none =>
    if fmwStartSign then
      let rx := recData + rxLen - 100
      let (last, ts') := seek m (folded trailer) rx 100
      let t := { t with touched := ts ++ ts' }
      match last with
      | some at' =>
        let endOffset := at' - rx
        let len : Int := rxLen - 100 + endOffset
        let t := t.burn m recData len (0x34000 + firmwareSize)
        let t := t.store .bootParam (bootParam flash) 16 0x33000
        { t with ret := 0, fmwStartSign := false, firmwareSize := firmwareSize + word len + 256 + 9 }
      | none =>
        let t := t.burn m recData rxLen (0x34000 + firmwareSize)
        { t with firmwareSize := firmwareSize + word rxLen }
    else t

/-! ## http_engine -/

/-- What the handlers of the other requests may change. `running` is false behind
`BSP_ChipReset` and in a `WriteFlash` that does not return. -/
structure Board where
  status : Status
  mem : Nat → UInt8
  flash : Nat → UInt8
  running : Bool

/-- The board with the statics of `http_engine` and `http_update`, the calls of
`WriteFlash` by `http_update`, and the number of bytes received. -/
structure Receiver extends Board where
  updFlag : UInt32
  fmwStartSign : Bool
  firmwareSize : UInt32
  calls : List FlashCall
  taken : Nat

inductive Route
  | update | begin | serve | refuse | ignore
  deriving DecidableEq

/-- The comparisons of `http_engine`; none of its other paths begins like `/update`. -/
def route (s : Receiver) (rx : List UInt8) : Route :=
  let m := received s.mem recData rx
  if !s.running then .ignore
  else
    match s.status with
    | .send => .serve
    | .closed =>
      if (strncmpi m recData (bytes "get")).1 then .serve
      else if (strncmpi m recData (bytes "post")).1 then
        if (strncmpi m (recData + 5) (bytes "/update")).1 then .begin else .serve
      else if s.updFlag ≠ 0 then .update
      else .refuse

def Receiver.turn (s : Receiver) (rx : List UInt8) : Turn :=
  httpUpdate (received s.mem recData rx) rx.length s.updFlag s.fmwStartSign s.firmwareSize s.flash

/-- What `http_engine` makes of the result: the chip is reset at the end of an upload. -/
def Receiver.finish (s : Receiver) (t : Turn) : Receiver :=
  { s with
    flash := t.flash.getD s.flash
    running := t.flash.isSome && t.ret != 0
    updFlag := if t.ret = 0 then 0 else s.updFlag + 1
    fmwStartSign := t.fmwStartSign
    firmwareSize := t.firmwareSize
    calls := s.calls ++ t.calls }

/-- `http_engine`. `serve` is what the other requests do, and a transfer that goes on. -/
def httpEngine (serve : List UInt8 → Board → Board) (s : Receiver) (seg : Segment) : Receiver :=
  let rx := seg.data
  let next := { s with mem := received s.mem recData rx, taken := s.taken + rx.length }
  match route s rx with
  | .ignore => { s with taken := s.taken + rx.length }
  | .serve =>
    { next with
      toBoard := serve rx next.toBoard
      updFlag := if s.status = .send then s.updFlag else 0 }
  | .begin => { next with updFlag := 1 }
  | .update => next.finish (s.turn rx)
  | .refuse => next

/-- The receiver behind `POST /update`, whatever is left of an earlier upload. -/
def begun (mem flash : Nat → UInt8) (fmwStartSign : Bool) (firmwareSize : UInt32) : Receiver :=
  { status := .closed, mem := mem, flash := flash, running := true, updFlag := 1, fmwStartSign := fmwStartSign
    firmwareSize := firmwareSize, calls := [], taken := 0 }

/-! ## What a segment shows -/

/-- The first place at which a key is found, if the comparisons up to it end in the text. -/
def search (key : List UInt8) : List UInt8 → Option (Option Nat)
  | [] => some none
  | c :: v =>
    match compares (c :: v) key with
    | none => none
    | some true => some (some 0)
    | some false => (search key v).map (Option.map (· + 1))

inductive Sight
  /-- The marker is at `i`. -/
  | header (i : Nat)
  /-- The trailer is at `i`. -/
  | trailer (i : Nat)
  | body
  | idle
  deriving DecidableEq

/-- What the searches of `http_update` find, unless they leave the segment: the marker in
the first two segments, the trailer behind a marker in the last 100 bytes. -/
def sight (updFlag : UInt32) (fmwStartSign : Bool) (rx : List UInt8) : Option Sight :=
  (if updFlag ≤ 2 then search (folded marker) rx else some none).bind fun
    | some i => some (.header i)
    | none =>
      if fmwStartSign then
        if rx.length < 100 then none
        else
          (search (folded trailer) (rx.drop (rx.length - 100))).map fun
            | some i => .trailer (rx.length - 100 + i)
            | none => .body
      else some .idle

def Receiver.sight (s : Receiver) (rx : List UInt8) : Option Sight := Upload.sight s.updFlag s.fmwStartSign rx

/-- An image call keeps to the region of the backup image, the other to the sector before it. -/
def FlashCall.Confined (c : FlashCall) : Prop :=
  match c.what with
  | .image => nvmFwBakOffset ≤ c.pos.toNat ∧ c.pos.toNat + c.len.toNat ≤ nvmFwBakOffset + fwImgSizeMax
  | .bootParam => bootParamOffset ≤ c.pos.toNat ∧ c.pos.toNat + c.len.toNat ≤ nvmFwBakOffset

/-- The handshake is whole, and what is stored keeps to its region. -/
def Sight.Fits (firmwareSize : UInt32) (rx : List UInt8) : Sight → Prop
  | .header i => i + handshakingOffset ≤ rx.length
  | .trailer i => firmwareSize.toNat + i ≤ fwImgSizeMax
  | .body => firmwareSize.toNat + rx.length ≤ fwImgSizeMax
  | .idle => True

instance (firmwareSize : UInt32) (rx : List UInt8) : DecidablePred (Sight.Fits firmwareSize rx)
  | .header _ | .trailer _ | .body => inferInstanceAs (Decidable (_ ≤ _))
  | .idle => isTrue trivial

end SerialNet.Upload
