import MiniHF.Lib.Bits

/-!
# FT8 payloads

A message is packed into 77 bits of a ten-byte payload: the fields of its type one
behind the other, most significant bit first, then the type number `i3`, and for
the types under `i3 = 0` the sub-type `n3` before it. Every field has an encoder
of its own; `encodeFtxPayload` calls them and packs what they return.

The encoders read C strings. A string in an array of `n + 1` characters is a
`CString n`, and reading it at its length gives the NUL. Arithmetic is on `Nat`
and narrowed once to the type the source computes in, which is what unsigned
arithmetic does. A `char` below zero is a byte above 127: it fails every range
test either way.
-/

namespace MiniHF.Ftx

open Buffer

/-! ## Packing bits -/

/-- `pack_bits`: the low `nbits` bits of `value`, highest first. -/
def packBits {m : Nat} (buf : Vector UInt8 m) (bitPos : Nat) (value : UInt64) (nbits : Nat) :
    Except Fault (Vector UInt8 m) :=
  Bits.writeBits buf bitPos (fun k => value &&& (1 <<< UInt64.ofNat (nbits - 1 - k)) != 0) nbits

/-- The bit of `buf` that the C code tests at `pos`. -/
def testBit (buf : List UInt8) (pos : Nat) : Bool :=
  buf.getD (pos / 8) 0 &&& (1 <<< UInt8.ofNat (7 - pos % 8)) != 0

/-- The first `i` turns of the loop of `unpack_bits`. -/
def unpackBitsLoop (buf : List UInt8) (bitPos nbits : Nat) : Nat → UInt64
  | 0 => 0
  | i + 1 =>
      let value := unpackBitsLoop buf bitPos nbits i
      if testBit buf (bitPos + i) then value ||| (1 <<< UInt64.ofNat (nbits - 1 - i)) else value

/-- `unpack_bits`. -/
def unpackBits {m : Nat} (buf : Vector UInt8 m) (bitPos nbits : Nat) : UInt64 :=
  unpackBitsLoop buf.toList bitPos nbits nbits

/-- `pack_bytes`: the first `nbits` bits of `src`. -/
def packBytes {m : Nat} (buf : Vector UInt8 m) (bitPos : Nat) (src : List UInt8) (nbits : Nat) :
    Except Fault (Vector UInt8 m) :=
  Bits.writeBits buf bitPos (testBit src) nbits

/-- `payload_clear`: whatever the buffer held is gone. -/
def payloadClear (_buf : Vector UInt8 10) : Vector UInt8 10 := Vector.replicate 10 0

def payloadSetI3 (buf : Vector UInt8 10) (i3 : UInt8) : Except Fault (Vector UInt8 10) :=
  packBits buf 74 (i3 &&& 0x07).toUInt64 3

def payloadSetN3 (buf : Vector UInt8 10) (n3 : UInt8) : Except Fault (Vector UInt8 10) :=
  packBits buf 71 (n3 &&& 0x07).toUInt64 3

/-! ## C strings -/

/-- The string in an array of `n + 1` characters. -/
structure CString (n : Nat) where
  chars : List UInt8
  /-- A NUL would have ended it. -/
  noNul : ∀ c ∈ chars, c ≠ 0
  /-- The last place is the NUL's. -/
  fits : chars.length ≤ n

/-- The characters of a string literal. -/
def literal (s : String) : List UInt8 := s.toList.map Char.toUInt8

/-- `s[i]`, up to the NUL at the end. -/
def charAt (s : List UInt8) (i : Nat) : UInt8 := s.getD i 0

/-- `c >= lo && c <= hi`. -/
def between (lo hi : Char) (c : UInt8) : Bool := lo.toUInt8 ≤ c && c ≤ hi.toUInt8

/-- `if (c >= 'a' && c <= 'z') c -= 32;` -/
def upper (c : UInt8) : UInt8 := if between 'a' 'z' c then c - 32 else c

/-- `strchr`: where `c` first stands in `s`. The NUL is part of the string. -/
def strchr (s : List UInt8) (c : UInt8) : Option Nat := (s ++ [0]).idxOf? c

/-- The index of a character in an alphabet, 0 when it is not there. -/
def charIndex (charset : List UInt8) (c : UInt8) : Nat := (strchr charset c).getD 0

/-- `c - '0'`. -/
def digit (c : UInt8) : Nat := c.toNat - '0'.toNat

/-- `c - 'A'`. -/
def letter (c : UInt8) : Nat := c.toNat - 'A'.toNat

/-- The space character. -/
def space : UInt8 := ' '.toUInt8

/-! ## The data of a message

A field of an enumeration's type that holds none of its constants is `other`. -/

/-- `c28_t`. -/
inductive C28 where
  | cq
  | cqMod (modifier : CString 4)
  | de
  | qrz
  | callsign (callsign : CString 6)
  | hash22 (hash : UInt32)
  | other

/-- `g15_t`. -/
inductive G15 where
  | grid (grid : CString 4)
  | report (report : Int8)
  | rrr
  | rr73
  | only73
  | blank
  | other

/-- `s13_t`. -/
inductive S13 where
  | serial (serial : UInt16)
  | state (state : CString 2)
  | other

/-- `r2_t`. -/
inductive R2 where
  | rrr
  | rr73
  | only73
  | blank
  | other

/-- `k3_fd_class_t`. -/
inductive K3FdClass where
  | a
  | b
  | c
  | d
  | e
  | f
  | other

structure FreeText where
  text : CString 13

structure Dxpedition where
  c28_0 : C28
  c28_1 : C28
  h10 : UInt16
  r5 : Int8

structure FieldDay where
  c28_0 : C28
  c28_1 : C28
  R1 : Bool
  n4 : UInt8
  k3 : K3FdClass
  S7 : CString 3
  transmitterCount : UInt8

structure Telemetry where
  data : Vector UInt8 9

structure Std where
  c28_0 : C28
  roverSuffix0 : Bool
  c28_1 : C28
  roverSuffix1 : Bool
  R1 : Bool
  g15 : G15

structure EuVhf2 where
  c28_0 : C28
  pSuffix0 : Bool
  c28_1 : C28
  pSuffix1 : Bool
  R1 : Bool
  g15 : G15

structure RttyRu where
  t1 : Bool
  c28_0 : C28
  c28_1 : C28
  R1 : Bool
  r3 : UInt8
  s13 : S13

structure Nonstd where
  h12 : UInt16
  c58 : CString 11
  h1 : Bool
  r2 : R2
  c1 : Bool

structure EuVhf5 where
  h12 : UInt16
  h22 : UInt32
  R1 : Bool
  r3 : UInt8
  s11 : UInt16
  g25 : CString 6

/-- `ftx_payload_t`. -/
inductive Payload where
  | freeText (p : FreeText)
  | dxpedition (p : Dxpedition)
  | fieldDay (p : FieldDay)
  | telemetry (p : Telemetry)
  | std (p : Std)
  | euVhf2 (p : EuVhf2)
  | rttyRu (p : RttyRu)
  | nonstd (p : Nonstd)
  | euVhf5 (p : EuVhf5)
  | other

/-! ## Callsigns -/

/-- The number of a `CQ` modifier's letters, base 27; anything but a letter counts 0. -/
def cqLetters (modifier : List UInt8) : Nat :=
  modifier.foldl
    (fun val c =>
      let c := upper c
      val * 27 + if between 'A' 'Z' c then letter c + 1 else 0)
    0

/-- `d_idx`: the last digit among the first three characters. -/
def lastDigit (call : List UInt8) : Option Nat :=
  (List.range (min call.length 3)).foldl
    (fun d i => if between '0' '9' (charAt call i) then some i else d) none

/-- `std6`: the callsign with its digit in the third of six places, or blank without one. -/
def std6 (call : List UInt8) : List UInt8 :=
  match lastDigit call with
  | none => List.replicate 6 space
  | some d => (List.replicate (2 - d) space ++ call ++ List.replicate 6 space).take 6

def a1 : List UInt8 := literal " 0123456789ABCDEFGHIJKLMNOPQRSTUVWXYZ"
def a2 : List UInt8 := literal "0123456789ABCDEFGHIJKLMNOPQRSTUVWXYZ"
def a3 : List UInt8 := literal "0123456789"
def a4 : List UInt8 := literal " ABCDEFGHIJKLMNOPQRSTUVWXYZ"

/-- `encode_c28`. -/
def encodeC28 : C28 → UInt32
  | .de => 0
  | .qrz => 1
  | .cq => 2
  | .cqMod modifier =>
      let s := modifier.chars
      if s.length = 0 then 2
      else if s.all (between '0' '9') && s.length == 3 then
        UInt32.ofNat
          (3 + (digit (charAt s 0) * 100 + digit (charAt s 1) * 10 + digit (charAt s 2)))
      else
        UInt32.ofNat (1003 + cqLetters s)
  | .hash22 hash => 2063592 + hash
  | .callsign callsign =>
      let s := std6 (callsign.chars.map upper)
      let i1 := charIndex a1 (charAt s 0)
      let i2 := charIndex a2 (charAt s 1)
      let i3 := charIndex a3 (charAt s 2)
      let i4 := charIndex a4 (charAt s 3)
      let i5 := charIndex a4 (charAt s 4)
      let i6 := charIndex a4 (charAt s 5)
      UInt32.ofNat
        (6257896 + i1 * 7085880 + i2 * 196830 + i3 * 19683 + i4 * 729 + i5 * 27 + i6)
  | .other => 0

def c58Charset : List UInt8 := literal " 0123456789ABCDEFGHIJKLMNOPQRSTUVWXYZ/"

/-- The first eleven characters, upper case, spaces behind them, base 38. -/
def callsign38 (callsign : List UInt8) : UInt64 :=
  let buf := (callsign.take 11).map upper ++ List.replicate (11 - min callsign.length 11) space
  UInt64.ofNat (buf.foldl (fun n c => n * 38 + charIndex c58Charset c) 0)

/-- `encode_c58`. -/
def encodeC58 (callsign : List UInt8) : UInt64 := callsign38 callsign

/-- `hash_callsign`, which has its own copy of the loop of `encode_c58`. -/
def hashCallsign (callsign : List UInt8) (nbits : Int) : UInt32 :=
  if nbits ≠ 10 ∧ nbits ≠ 12 ∧ nbits ≠ 22 then 0
  else
    let buf := (callsign.take 11).map upper ++ List.replicate (11 - min callsign.length 11) space
    let n := buf.foldl (fun n c => n * 38 + UInt64.ofNat (charIndex c58Charset c)) 0
    ((47055833459 * n) >>> UInt64.ofNat (64 - nbits.toNat)).toUInt32

/-! ## Locators, reports, serial numbers and sections -/

/-- `MAXGRID4`. -/
def maxGrid4 : Nat := 32400

/-- `encode_g15`. -/
def encodeG15 (g15 : G15) : UInt16 :=
  match g15 with
  | .grid grid =>
      let s := grid.chars
      if between 'A' 'Z' (charAt s 0) && between 'A' 'Z' (charAt s 1)
          && between '0' '9' (charAt s 2) && between '0' '9' (charAt s 3) then
        UInt16.ofNat
          (letter (charAt s 0) * 1800 + letter (charAt s 1) * 100 + digit (charAt s 2) * 10
            + digit (charAt s 3)) &&& 0x7FFF
      else 0
  | .blank => UInt16.ofNat (maxGrid4 + 1) &&& 0x7FFF
  | .rrr => UInt16.ofNat (maxGrid4 + 2) &&& 0x7FFF
  | .rr73 => UInt16.ofNat (maxGrid4 + 3) &&& 0x7FFF
  | .only73 => UInt16.ofNat (maxGrid4 + 4) &&& 0x7FFF
  | .report report => UInt16.ofInt (maxGrid4 + report.toInt + 35) &&& 0x7FFF
  | .other => UInt16.ofNat (maxGrid4 + 1) &&& 0x7FFF

/-- `encode_g25`. -/
def encodeG25 (grid : List UInt8) : UInt32 :=
  if grid.length ≠ 6 then 0
  else if between 'A' 'R' (charAt grid 0) && between 'A' 'R' (charAt grid 1)
      && between '0' '9' (charAt grid 2) && between '0' '9' (charAt grid 3)
      && between 'A' 'X' (charAt grid 4) && between 'A' 'X' (charAt grid 5) then
    UInt32.ofNat
      (letter (charAt grid 0) * 18 * 10 * 10 * 24 * 24 + letter (charAt grid 1) * 10 * 10 * 24 * 24
        + digit (charAt grid 2) * 10 * 24 * 24 + digit (charAt grid 3) * 24 * 24
        + letter (charAt grid 4) * 24 + letter (charAt grid 5))
  else 0

def sections : List String :=
  ["AB",  "AK",  "AL",  "AR",  "AZ",  "BC",  "CO",  "CT",  "DE",  "EB",
   "EMA", "ENY", "EPA", "EWA", "GA",  "GTA", "IA",  "ID",  "IL",  "IN",
   "KS",  "KY",  "LA",  "LAX", "MAR", "MB",  "MDC", "ME",  "MI",  "MN",
   "MO",  "MS",  "MT",  "NC",  "ND",  "NE",  "NFL", "NH",  "NL",  "NLI",
   "NM",  "NNJ", "NNY", "NT",  "NTX", "NV",  "OH",  "OK",  "ONE", "ONN",
   "ONS", "OR",  "ORG", "PAC", "PR",  "QC",  "RI",  "SB",  "SC",  "SCV",
   "SD",  "SDG", "SF",  "SFL", "SJV", "SK",  "SNJ", "STX", "SV",  "TN",
   "UT",  "VA",  "VI",  "VT",  "WCF", "WI",  "WMA", "WNY", "WPA", "WTX",
   "WV",  "WWA", "WY",  "DX"]

def states : List String :=
  ["AL",  "AK",  "AZ",  "AR",  "CA",  "CO",  "CT",  "DE",  "FL",  "GA",
   "HI",  "ID",  "IL",  "IN",  "IA",  "KS",  "KY",  "LA",  "ME",  "MD",
   "MA",  "MI",  "MN",  "MS",  "MO",  "MT",  "NE",  "NV",  "NH",  "NJ",
   "NM",  "NY",  "NC",  "ND",  "OH",  "OK",  "OR",  "PA",  "RI",  "SC",
   "SD",  "TN",  "TX",  "UT",  "VT",  "VA",  "WA",  "WV",  "WI",  "WY",
   "NB",  "NS",  "QC",  "ON",  "MB",  "SK",  "AB",  "BC",  "NWT", "NF",
   "LB",  "NU",  "YT",  "PEI", "DC"]

/-- The index of a name of at most three characters in a table, letter case aside. -/
def tableIndex (table : List String) (name : List UInt8) : Option Nat :=
  if name.length > 3 then none else (table.map literal).idxOf? (name.map upper)

/-- `encode_S7`. -/
def encodeS7 (name : List UInt8) : Int8 :=
  match tableIndex sections name with
  | some i => Int8.ofNat i
  | none => -1

/-- `encode_s13`. -/
def encodeS13 : S13 → UInt16
  | .serial serial => if serial ≤ 7999 then serial else 0
  | .state state =>
      match tableIndex states state.chars with
      | some i => UInt16.ofNat (8001 + i)
      | none => 0
  | .other => 0

/-- `encode_r2`. -/
def encodeR2 : R2 → UInt8
  | .blank => 0
  | .rrr => 1
  | .rr73 => 2
  | .only73 => 3
  | .other => 0

/-- `encode_r3`. -/
def encodeR3 (report : Int) : UInt8 :=
  if report < 2 ∨ report > 9 then 0 else UInt8.ofInt (report - 2)

/-- `encode_r5`: reports from -30 to 32 dB in steps of two. -/
def encodeR5 (reportDb : Int) : UInt8 :=
  let reportDb := if reportDb < -30 then -30 else reportDb
  let reportDb := if reportDb > 32 then 32 else reportDb
  let reportDb := (reportDb + 30).tdiv 2
  UInt8.ofInt reportDb &&& 0x1F

/-- `encode_k3`. -/
def encodeK3 : K3FdClass → UInt8
  | .a => 0
  | .b => 1
  | .c => 2
  | .d => 3
  | .e => 4
  | .f => 5
  | .other => 0

/-- `encode_s11`. -/
def encodeS11 (serial : UInt16) : UInt16 := serial &&& 0x07FF

/-! ## The 71-bit numbers -/

def f71Charset : List UInt8 := literal " 0123456789ABCDEFGHIJKLMNOPQRSTUVWXYZ+-./?"

/-- `result * 42 + carry`, byte by byte from the last one; also what is carried out of the first. -/
def times42 : List UInt8 → UInt16 → List UInt8 × UInt16
  | [], carry => ([], carry)
  | r :: result, carry =>
      let (result, carry) := times42 result carry
      let prod := r.toUInt16 * 42 + carry
      ((prod &&& 0xFF).toUInt8 :: result, prod >>> 8)

/-- The thirteen characters `encode_f71` reads: upper case, spaces before them. -/
def f71Buf (text : List UInt8) : List UInt8 :=
  List.replicate (13 - min text.length 13) space ++ (text.take 13).map upper

/-- `encode_f71`. -/
def encodeF71 (text : List UInt8) : List UInt8 :=
  (f71Buf text).foldl
    (fun result c => (times42 result (UInt8.ofNat (charIndex f71Charset c)).toUInt16).1)
    (List.replicate 9 0)

/-- A hexadecimal digit of either case; any other character counts 0. -/
def hexDigit (c : UInt8) : UInt8 :=
  if between '0' '9' c then c - '0'.toUInt8
  else if between 'A' 'F' c then c - 'A'.toUInt8 + 10
  else if between 'a' 'f' c then c - 'a'.toUInt8 + 10
  else 0

/-- `temp[i] |= b`. -/
def orByte {m : Nat} (temp : Vector UInt8 m) (i : Nat) (b : UInt8) :
    Except Fault (Vector UInt8 m) :=
  store temp i (temp.toList.getD i 0 ||| b)

/-- The loop of `encode_t71` over the nibbles. -/
def orNibbles (temp : Vector UInt8 9) (bitPos : Nat) : List UInt8 → Except Fault (Vector UInt8 9)
  | [] => .ok temp
  | nibble :: nibbles => do
      let byteIdx := bitPos / 8
      let bitOff := bitPos % 8
      let temp ←
        if bitOff ≤ 4 then orByte temp byteIdx (nibble <<< UInt8.ofNat (4 - bitOff))
        else do
          let temp ← orByte temp byteIdx (nibble >>> UInt8.ofNat (bitOff - 4))
          if byteIdx + 1 < 9 then orByte temp (byteIdx + 1) (nibble <<< UInt8.ofNat (12 - bitOff))
          else .ok temp
      orNibbles temp (bitPos + 4) nibbles

/-- The nibbles of `encode_t71`: of eighteen digits the first is cut to 7. -/
def t71Nibbles (hex : List UInt8) : List UInt8 :=
  match (hex.take 18).map hexDigit with
  | [] => []
  | n :: nibbles => (if nibbles.length = 17 ∧ n > 7 then 7 else n) :: nibbles

/-- `encode_t71`. -/
def encodeT71 (hex : List UInt8) : Except Fault (Vector UInt8 9) := do
  let nibbles := t71Nibbles hex
  if nibbles.length = 0 then .ok (Vector.replicate 9 0)
  else do
    let temp ← orNibbles (Vector.replicate 9 0) (72 - nibbles.length * 4) nibbles
    store temp 0 (temp.toList.getD 0 0 &&& 0x7F)

/-! ## The payload -/

/-- `flag ? 1 : 0`. -/
def flag (b : Bool) : UInt64 := if b then 1 else 0

/-- `encode_ftx_payload`. -/
def encodeFtxPayload (payload : Payload) (output : Vector UInt8 10) :
    Except Fault (Vector UInt8 10) :=
  let output := payloadClear output
  match payload with
  | .freeText p => do
      let textEncoded := encodeF71 p.text.chars
      let output ← packBytes output 0 textEncoded 71
      let output ← payloadSetI3 output 0
      let output ← payloadSetN3 output 0
      return output
  | .dxpedition p => do
      let c28_0Encoded := encodeC28 p.c28_0
      let c28_1Encoded := encodeC28 p.c28_1
      let h10Encoded := p.h10 &&& 0x3FF
      let r5Encoded := encodeR5 p.r5.toInt
      let output ← packBits output 0 c28_0Encoded.toUInt64 28
      let output ← packBits output 28 c28_1Encoded.toUInt64 28
      let output ← packBits output 56 h10Encoded.toUInt64 10
      let output ← packBits output 66 r5Encoded.toUInt64 5
      let output ← payloadSetI3 output 0
      let output ← payloadSetN3 output 1
      return output
  | .fieldDay p => do
      let c28_0Encoded := encodeC28 p.c28_0
      let c28_1Encoded := encodeC28 p.c28_1
      let n4Encoded := p.n4 &&& 0x0F
      let k3Encoded := encodeK3 p.k3 &&& 0x07
      let s7Val := encodeS7 p.S7.chars
      let s7Encoded := if s7Val ≥ 0 then s7Val.toUInt8 else 0
      let output ← packBits output 0 c28_0Encoded.toUInt64 28
      let output ← packBits output 28 c28_1Encoded.toUInt64 28
      let output ← packBits output 56 (flag p.R1) 1
      let output ← packBits output 57 n4Encoded.toUInt64 4
      let output ← packBits output 61 k3Encoded.toUInt64 3
      let output ← packBits output 64 s7Encoded.toUInt64 7
      let output ← payloadSetI3 output 0
      let output ← payloadSetN3 output (if p.transmitterCount > 16 then 4 else 3)
      return output
  | .telemetry p => do
      let output ← packBytes output 0 p.data.toList 71
      let output ← payloadSetI3 output 0
      let output ← payloadSetN3 output 5
      return output
  | .std p => do
      let c28_0Encoded := encodeC28 p.c28_0
      let c28_1Encoded := encodeC28 p.c28_1
      let g15Encoded := encodeG15 p.g15
      let output ← packBits output 0 c28_0Encoded.toUInt64 28
      let output ← packBits output 28 (flag p.roverSuffix0) 1
      let output ← packBits output 29 c28_1Encoded.toUInt64 28
      let output ← packBits output 57 (flag p.roverSuffix1) 1
      let output ← packBits output 58 (flag p.R1) 1
      let output ← packBits output 59 g15Encoded.toUInt64 15
      let output ← payloadSetI3 output 1
      return output
  | .euVhf2 p => do
      let c28_0Encoded := encodeC28 p.c28_0
      let c28_1Encoded := encodeC28 p.c28_1
      let g15Encoded := encodeG15 p.g15
      let output ← packBits output 0 c28_0Encoded.toUInt64 28
      let output ← packBits output 28 (flag p.pSuffix0) 1
      let output ← packBits output 29 c28_1Encoded.toUInt64 28
      let output ← packBits output 57 (flag p.pSuffix1) 1
      let output ← packBits output 58 (flag p.R1) 1
      let output ← packBits output 59 g15Encoded.toUInt64 15
      let output ← payloadSetI3 output 2
      return output
  | .rttyRu p => do
      let c28_0Encoded := encodeC28 p.c28_0
      let c28_1Encoded := encodeC28 p.c28_1
      let r3Encoded := encodeR3 p.r3.toNat
      let s13Encoded := encodeS13 p.s13
      let output ← packBits output 0 (flag p.t1) 1
      let output ← packBits output 1 c28_0Encoded.toUInt64 28
      let output ← packBits output 29 c28_1Encoded.toUInt64 28
      let output ← packBits output 57 (flag p.R1) 1
      let output ← packBits output 58 r3Encoded.toUInt64 3
      let output ← packBits output 61 s13Encoded.toUInt64 13
      let output ← payloadSetI3 output 3
      return output
  | .nonstd p => do
      let h12Encoded := p.h12 &&& 0x0FFF
      let c58Encoded := encodeC58 p.c58.chars
      let r2Encoded := encodeR2 p.r2
      let output ← packBits output 0 h12Encoded.toUInt64 12
      let output ← packBits output 12 c58Encoded 58
      let output ← packBits output 70 (flag p.h1) 1
      let output ← packBits output 71 r2Encoded.toUInt64 2
      let output ← packBits output 73 (flag p.c1) 1
      let output ← payloadSetI3 output 4
      return output
  | .euVhf5 p => do
      let h12Encoded := p.h12 &&& 0x0FFF
      let h22Encoded := p.h22 &&& 0x3FFFFF
      let r3Encoded := encodeR3 p.r3.toNat
      let s11Encoded := encodeS11 p.s11
      let g25Encoded := encodeG25 p.g25.chars
      let output ← packBits output 0 h12Encoded.toUInt64 12
      let output ← packBits output 12 h22Encoded.toUInt64 22
      let output ← packBits output 34 (flag p.R1) 1
      let output ← packBits output 35 r3Encoded.toUInt64 3
      let output ← packBits output 38 s11Encoded.toUInt64 11
      let output ← packBits output 49 g25Encoded.toUInt64 25
      let output ← payloadSetI3 output 5
      return output
  | .other => return output

end MiniHF.Ftx
