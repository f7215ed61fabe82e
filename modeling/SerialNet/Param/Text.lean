import Mathlib.Data.List.Basic
import SerialNet.Util.Strlen

/-!
# C strings of the command and web interfaces

The string functions of `str_lib.c`, `os_core.c` and `ip_addr.c`, over the
characters before the ending zero.
-/

namespace SerialNet.Param

def bytes (s : String) : List UInt8 := s.toList.map fun c => UInt8.ofNat c.toNat

theorem bytes_append (s t : String) : bytes (s ++ t) = bytes s ++ bytes t := by
  rw [bytes, String.toList_append, List.map_append]
  rfl

theorem forall_byte {P : UInt8 → Prop} (h : ∀ i : Fin 256, P (UInt8.ofNat i.1)) (d : UInt8) : P d := by
  have := h ⟨d.toNat, d.toNat_lt⟩
  rwa [UInt8.ofNat_toNat] at this

def isDigit (c : UInt8) : Bool := 48 ≤ c && c ≤ 57
def isSpace (c : UInt8) : Bool := c == 32 || (9 ≤ c && c ≤ 13)
def isLower (c : UInt8) : Bool := 97 ≤ c && c ≤ 122
def isXDigit (c : UInt8) : Bool := isDigit c || (65 ≤ c && c ≤ 70) || (97 ≤ c && c ≤ 102)
def toUpper (c : UInt8) : UInt8 := if isLower c then c - 32 else c
def toLower (c : UInt8) : UInt8 := if 65 ≤ c && c ≤ 90 then c + 32 else c

def allDigits (s : List UInt8) : Bool := s.all isDigit

/-- `str_is_digit` looks at the characters that `strlen` counts. -/
def strIsDigit (str : List UInt8) : Bool := allDigits (str.take Util.strlenMax)

/-! ## atoi -/

def atoiFrom (value : UInt32) : List UInt8 → UInt32
  | [] => value
  | c :: s => if isDigit c then atoiFrom (value * 10 + (c - 48).toUInt32) s else value

/-- The `atoi` of `os_core.c`: unsigned, wrapping, stopped by any other character. -/
def atoi (s : List UInt8) : UInt32 := atoiFrom 0 s

def decimalFrom (n : Nat) : List UInt8 → Nat
  | [] => n
  | c :: s => decimalFrom (n * 10 + (c - 48).toNat) s

def decimal (s : List UInt8) : Nat := decimalFrom 0 s

theorem atoiFrom_decimal {s : List UInt8} (h : allDigits s = true) (n : Nat) :
    atoiFrom (UInt32.ofNat n) s = UInt32.ofNat (decimalFrom n s) := by
  induction s generalizing n with
  | nil => rfl
  | cons c s ih =>
    simp only [allDigits, List.all_cons, Bool.and_eq_true] at h
    have hstep : UInt32.ofNat n * 10 + (c - 48).toUInt32 = UInt32.ofNat (n * 10 + (c - 48).toNat) := by
      rw [UInt32.ofNat_add, UInt32.ofNat_mul, UInt32.ofNat_uInt8ToNat]
      rfl
    rw [atoiFrom, if_pos h.1, hstep, ih h.2]
    rfl

theorem atoi_decimal {s : List UInt8} (h : allDigits s = true) : atoi s = UInt32.ofNat (decimal s) :=
  atoiFrom_decimal h 0

/-! ## is_valid_ip -/

/-- `section` is an `int`; read as unsigned, the test `0 ≤ section ≤ 255` is the upper bound alone. -/
def isValidIpFrom (sec : UInt32) (dot : Nat) : List UInt8 → Bool
  | [] => 0 < sec && sec ≤ 255 && dot == 3
  | c :: ip =>
    if c == 46 then
      if 3 < dot + 1 then false
      else if sec ≤ 255 then isValidIpFrom 0 (dot + 1) ip else false
    else if isDigit c then isValidIpFrom (sec * 10 + (c - 48).toUInt32) dot ip
    else false

def isValidIp (ip : List UInt8) : Bool := isValidIpFrom 0 0 ip

/-! ## inet_aton -/

def atonDigits (base val : UInt32) : List UInt8 → UInt32 × List UInt8
  | [] => (val, [])
  | c :: cp =>
    if isDigit c then atonDigits base (val * base + (c - 48).toUInt32) cp
    else if base == 16 && isXDigit c then
      atonDigits base ((val <<< 4) ||| (c + 10 - (if isLower c then 97 else 65)).toUInt32) cp
    else (val, c :: cp)

/-- One part: hexadecimal after `0x`, octal after `0`. -/
def atonPart : List UInt8 → Option (UInt32 × List UInt8)
  | [] => none
  | c :: cp =>
    if !isDigit c then none
    else if c == 48 then
      match cp with
      | x :: cp' => if x == 120 || x == 88 then some (atonDigits 16 0 cp') else some (atonDigits 8 0 cp)
      | [] => some (0, [])
    else some (atonDigits 10 0 (c :: cp))

/-- The parts between the dots, at most `more + 1` of them, and what follows. -/
def atonParts : Nat → List UInt8 → Option (List UInt32 × List UInt8)
  | more, cp =>
    match atonPart cp with
    | none => none
    | some (val, rest) =>
      if rest.head? == some 46 then
        match more with
        | 0 => none
        | more + 1 => (atonParts more rest.tail).map fun (vals, rest) => (val :: vals, rest)
      else some ([val], rest)

def atonJoin : List UInt32 → Option UInt32
  | [a] => some a
  | [a, b] => if b > 0xffffff then none else some (b ||| (a <<< 24))
  | [a, b, c] => if c > 0xffff then none else some (c ||| (a <<< 24) ||| (b <<< 16))
  | [a, b, c, d] => if d > 0xff then none else some (d ||| (a <<< 24) ||| (b <<< 16) ||| (c <<< 8))
  | _ => none

def htonl (x : UInt32) : UInt32 :=
  (x >>> 24) ||| ((x >>> 8) &&& (0xff00 : UInt32)) ||| ((x <<< 8) &&& (0xff0000 : UInt32)) ||| (x <<< 24)

/-- `inet_aton`: the address in network order, `none` where it returns 0 and stores nothing. -/
def inetAton (cp : List UInt8) : Option UInt32 :=
  match atonParts 3 cp with
  | some (vals, []) => (atonJoin vals).map htonl
  | some (vals, c :: _) => if isSpace c then (atonJoin vals).map htonl else none
  | none => none

/-- The four bytes of an address in memory, `ip4_addr1` to `ip4_addr4`. -/
def ip4Addr (addr : UInt32) : Vector UInt8 4 :=
  #v[addr.toUInt8, (addr >>> 8).toUInt8, (addr >>> 16).toUInt8, (addr >>> 24).toUInt8]

-- 192.168.0.100
example : (inetAton [49, 57, 50, 46, 49, 54, 56, 46, 48, 46, 49, 48, 48]).map ip4Addr =
    some #v[192, 168, 0, 100] := by decide

/-! ## Command lines -/

/-- The pieces between the commas, `strsep(&p, ",")` until it is exhausted. -/
def splitComma : List UInt8 → List (List UInt8)
  | [] => [[]]
  | c :: s =>
    if c == 44 then [] :: splitComma s
    else
      match splitComma s with
      | [] => [[c]]
      | t :: ts => (c :: t) :: ts

/-- `parseParameter`: the name up to the first `=`, then the arguments. -/
def parseParameter (args : List UInt8) : List (List UInt8) :=
  match args.dropWhile (· != 61) with
  | [] => [args]
  | _ :: rest => args.takeWhile (· != 61) :: splitComma rest

example : parseParameter (bytes "NQSCNN=1,0,80,10.0.0.1") =
    [bytes "NQSCNN", bytes "1", bytes "0", bytes "80", bytes "10.0.0.1"] := by decide

end SerialNet.Param
