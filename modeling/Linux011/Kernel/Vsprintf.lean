import Linux011.Library.ByteMemory
import Linux011.Library.Printf

/-! `vsprintf.c`. The format is the bytes before its NUL, and reading behind the
NUL has no result; `str` is what has been written to the buffer so far, which
overlaps neither the format nor a string. -/
namespace Linux011.Vsprintf

open ByteMemory
open Printf (byte)

def zeroPad : BitVec 32 := 1#32
def sign : BitVec 32 := 2#32
def plus : BitVec 32 := 4#32
def space : BitVec 32 := 8#32
def left : BitVec 32 := 16#32
def special : BitVec 32 := 32#32
def small : BitVec 32 := 64#32

/-- `while (n-- > m) *str++ = c`, and `n` behind it. The first argument bounds
the rounds; `n - m` is enough. -/
def padDown (c : BitVec 8) (m : BitVec 32) : Nat → BitVec 32 → List (BitVec 8) × BitVec 32
  | 0, n => ([], n - 1#32)
  | rounds + 1, n =>
      if m.slt n then
        let (out, n) := padDown c m rounds (n - 1#32)
        (c :: out, n)
      else ([], n - 1#32)

def whileAbove (c : BitVec 8) (n m : BitVec 32) : List (BitVec 8) × BitVec 32 := padDown c m (n - m).toNat n

/-- `digits`. -/
def digitTable (type : BitVec 32) : List (BitVec 8) :=
  ['0', '1', '2', '3', '4', '5', '6', '7', '8', '9'].map byte ++
    (if type &&& small ≠ 0#32 then
      ['a', 'b', 'c', 'd', 'e', 'f', 'g', 'h', 'i', 'j', 'k', 'l', 'm', 'n', 'o', 'p', 'q', 'r', 's', 't',
        'u', 'v', 'w', 'x', 'y', 'z']
    else
      ['A', 'B', 'C', 'D', 'E', 'F', 'G', 'H', 'I', 'J', 'K', 'L', 'M', 'N', 'O', 'P', 'Q', 'R', 'S', 'T',
        'U', 'V', 'W', 'X', 'Y', 'Z']).map byte

/-- `do_div`: the quotient and the remainder of `divl`. -/
def doDiv (n base : BitVec 32) : BitVec 32 × BitVec 32 := (n / base, n % base)

/-- `tmp[i++] = digits[do_div(num, base)]` while `num` is not 0, with what `tmp`
holds, the last entry first. The first number is the room left in `tmp`. -/
def digitLoop (digits : List (BitVec 8)) (base : BitVec 32) :
    Nat → BitVec 32 → List (BitVec 8) → Option (List (BitVec 8))
  | 0, num, tmp => if num = 0#32 then some tmp else none
  | room + 1, num, tmp =>
      if num = 0#32 then some tmp
      else do
        let (quotient, remainder) := doDiv num base
        let digit ← digits[remainder.toNat]?
        digitLoop digits base room quotient (digit :: tmp)

/-- `sign`, which is 0 for none. -/
def signByte (num type : BitVec 32) : BitVec 8 :=
  if type &&& sign ≠ 0#32 ∧ num.slt 0#32 then byte '-'
  else if type &&& plus ≠ 0#32 then byte '+'
  else if type &&& space ≠ 0#32 then byte ' ' else 0#8

/-- What is written before the digits, and by how much `size` goes down for it. -/
def specialBytes (digits : List (BitVec 8)) (base type : BitVec 32) : Option (List (BitVec 8) × BitVec 32) :=
  if type &&& special ≠ 0#32 then
    if base = 8#32 then some ([byte '0'], 1#32)
    else if base = 16#32 then do
      let x ← digits[33]?
      some ([byte '0', x], 2#32)
    else some ([], 0#32)
  else some ([], 0#32)

/-- `tmp` before it is written. -/
def numberDigits (digits : List (BitVec 8)) (num base : BitVec 32) : Option (List (BitVec 8)) :=
  if num = 0#32 then some [byte '0'] else digitLoop digits base 36 num []

/-- `number` from the padding on; `front` is the sign and what `SPECIAL` asks
for. -/
def writeNumber (type size precision : BitVec 32) (front tmp : List (BitVec 8)) : List (BitVec 8) :=
  let c := if type &&& zeroPad ≠ 0#32 then byte '0' else byte ' '
  let i := BitVec.ofNat 32 tmp.length
  let precision := if precision.slt i then i else precision
  let size := size - precision
  let (blanks, size) :=
    if type &&& (zeroPad + left) = 0#32 then whileAbove (byte ' ') size 0#32 else ([], size)
  let (fill, size) := if type &&& left = 0#32 then whileAbove c size 0#32 else ([], size)
  let (zeros, _) := whileAbove (byte '0') precision i
  let (trailing, _) := whileAbove (byte ' ') size 0#32
  blanks ++ front ++ fill ++ zeros ++ tmp ++ trailing

/-- What `number` writes; it returns 0 for a base outside 2..36. -/
def number (num base size precision type : BitVec 32) : Option (List (BitVec 8)) := do
  let digits := digitTable type
  let type := if type &&& left ≠ 0#32 then type &&& ~~~zeroPad else type
  if base.slt 2#32 ∨ (36#32).slt base then none
  else
    let signByte := signByte num type
    let num := if type &&& sign ≠ 0#32 ∧ num.slt 0#32 then -num else num
    let size := if signByte ≠ 0#8 then size - 1#32 else size
    let signBytes := if signByte ≠ 0#8 then [signByte] else []
    let (specialBytes, specialWidth) ← specialBytes digits base type
    let tmp ← numberDigits digits num base
    some (writeNumber type (size - specialWidth) precision (signBytes ++ specialBytes) tmp)

/-- `*fmt`: the bytes of the format and its NUL can be read. -/
def deref (format : List (BitVec 8)) (fmt : Nat) : Option (BitVec 8) := (format ++ [0#8])[fmt]?

/-- `is_digit`; a `char` is signed. -/
def isDigit (c : BitVec 8) : Bool := (byte '0').sle c && c.sle (byte '9')

/-- `skip_atoi`: the value and the cursor behind the digits. Here and below the
first number bounds the rounds; a cursor makes at most one for each byte that
it can read. -/
def skipAtoi (format : List (BitVec 8)) : Nat → Nat → BitVec 32 → Option (BitVec 32 × Nat)
  | 0, _, _ => none
  | rounds + 1, fmt, i => do
      let c ← deref format fmt
      if isDigit c then skipAtoi format rounds (fmt + 1) (i * 10#32 + c.signExtend 32 - 0x30#32)
      else some (i, fmt)

/-- `repeat:`, which starts with `++fmt`. -/
def scanFlags (format : List (BitVec 8)) : Nat → Nat → BitVec 32 → Option (BitVec 32 × Nat)
  | 0, _, _ => none
  | rounds + 1, fmt, flags => do
      let fmt := fmt + 1
      let c ← deref format fmt
      if c = byte '-' then scanFlags format rounds fmt (flags ||| left)
      else if c = byte '+' then scanFlags format rounds fmt (flags ||| plus)
      else if c = byte ' ' then scanFlags format rounds fmt (flags ||| space)
      else if c = byte '#' then scanFlags format rounds fmt (flags ||| special)
      else if c = byte '0' then scanFlags format rounds fmt (flags ||| zeroPad)
      else some (flags, fmt)

/-- The locals that the scan of a directive fills in. `args` is how many
arguments `va_arg` has taken. -/
structure Scan where
  fmt : Nat
  args : Nat
  flags : BitVec 32
  fieldWidth : BitVec 32
  precision : BitVec 32

section

variable (format : List (BitVec 8)) (arg : Nat → BitVec 32)

/-- The branch for `'*'` leaves `fmt` where it is. -/
def scanWidth (scan : Scan) : Option Scan := do
  let scan := { scan with fieldWidth := -1#32 }
  let c ← deref format scan.fmt
  if isDigit c then
    let (fieldWidth, fmt) ← skipAtoi format (format.length + 1) scan.fmt 0#32
    some { scan with fmt, fieldWidth }
  else if c = byte '*' then
    let fieldWidth := arg scan.args
    if fieldWidth.slt 0#32 then
      some { scan with args := scan.args + 1, fieldWidth := -fieldWidth, flags := scan.flags ||| left }
    else some { scan with args := scan.args + 1, fieldWidth }
  else some scan

/-- Neither does the one for `'*'` here. -/
def scanPrecision (scan : Scan) : Option Scan := do
  let scan := { scan with precision := -1#32 }
  let c ← deref format scan.fmt
  if c = byte '.' then
    let scan := { scan with fmt := scan.fmt + 1 }
    let c ← deref format scan.fmt
    let scan ← if isDigit c then do
        let (precision, fmt) ← skipAtoi format (format.length + 1) scan.fmt 0#32
        some { scan with fmt, precision }
      else if c = byte '*' then some { scan with args := scan.args + 1, precision := arg scan.args }
      else some scan
    if scan.precision.slt 0#32 then some { scan with precision := 0#32 } else some scan
  else some scan

/-- The qualifier is stored and not used. -/
def scanQualifier (scan : Scan) : Option Scan := do
  let c ← deref format scan.fmt
  if c = byte 'h' || c = byte 'l' || c = byte 'L' then some { scan with fmt := scan.fmt + 1 } else some scan

/-- From a `'%'` to the conversion character. -/
def scanDirective (fmt args : Nat) : Option Scan := do
  let (flags, fmt) ← scanFlags format (format.length + 1) fmt 0#32
  let scan ← scanWidth format arg ⟨fmt, args, flags, -1#32, -1#32⟩
  let scan ← scanPrecision format arg scan
  scanQualifier format scan

/-- `vsprintf` between two rounds of its loop. -/
structure Printing where
  fmt : Nat
  args : Nat
  str : List (BitVec 8)
  memory : Memory

/-- `while (*p) p++`; `p` goes round 32 bits. -/
def strlenFrom (memory : Memory) : Nat → BitVec 32 → Option Nat
  | 0, _ => none
  | rounds + 1, p => if memory p.toNat = 0#8 then some 0 else (strlenFrom memory rounds (p + 1#32)).map (· + 1)

def strlen (memory : Memory) (s : BitVec 32) : Option (BitVec 32) :=
  (strlenFrom memory (2 ^ 32) s).map (BitVec.ofNat 32)

/-- `for (i = 0; i < len; i++) *str++ = *s++`. -/
def copyString (memory : Memory) (len : BitVec 32) : Nat → BitVec 32 → BitVec 32 → List (BitVec 8)
  | 0, _, _ => []
  | rounds + 1, i, s =>
      if i.slt len then memory s.toNat :: copyString memory len rounds (i + 1#32) (s + 1#32) else []

/-- `while (--n > 0) *str++ = ' '`, and `n` behind it. -/
def padFirst : Nat → BitVec 32 → List (BitVec 8) × BitVec 32
  | 0, n => ([], n - 1#32)
  | rounds + 1, n =>
      let n := n - 1#32
      if (0#32).slt n then
        let (out, n) := padFirst rounds n
        (byte ' ' :: out, n)
      else ([], n)

def whileFirst (n : BitVec 32) : List (BitVec 8) × BitVec 32 := padFirst (n - 1#32).toNat n

/-- `case 'c'`. -/
def convertChar (flags fieldWidth value : BitVec 32) : List (BitVec 8) :=
  let (before, fieldWidth) := if flags &&& left = 0#32 then whileFirst fieldWidth else ([], fieldWidth)
  let (behind, _) := whileFirst fieldWidth
  before ++ [value.setWidth 8] ++ behind

/-- `case 's'`. -/
def convertString (memory : Memory) (flags fieldWidth precision s : BitVec 32) : Option (List (BitVec 8)) := do
  let len ← strlen memory s
  let len := if precision.slt 0#32 then len else if precision.slt len then precision else len
  let (before, fieldWidth) := if flags &&& left = 0#32 then whileAbove (byte ' ') fieldWidth len else ([], fieldWidth)
  let (behind, _) := whileAbove (byte ' ') fieldWidth len
  some (before ++ copyString memory len len.toNat 0#32 s ++ behind)

/-- `switch(*fmt)`; a directive that the end of the format cuts off steps back
for the `fmt++` of the loop. -/
def convert (printing : Printing) (scan : Scan) : Option Printing := do
  let c ← deref format scan.fmt
  let value := arg scan.args
  let printed (out : List (BitVec 8)) : Printing :=
    { printing with fmt := scan.fmt, args := scan.args + 1, str := printing.str ++ out }
  if c = byte 'c' then some (printed (convertChar scan.flags scan.fieldWidth value))
  else if c = byte 's' then
    (convertString printing.memory scan.flags scan.fieldWidth scan.precision value).map printed
  else if c = byte 'o' then (number value 8#32 scan.fieldWidth scan.precision scan.flags).map printed
  else if c = byte 'p' then
    if scan.fieldWidth = -1#32 then
      (number value 16#32 8#32 scan.precision (scan.flags ||| zeroPad)).map printed
    else (number value 16#32 scan.fieldWidth scan.precision scan.flags).map printed
  else if c = byte 'x' then
    (number value 16#32 scan.fieldWidth scan.precision (scan.flags ||| small)).map printed
  else if c = byte 'X' then (number value 16#32 scan.fieldWidth scan.precision scan.flags).map printed
  else if c = byte 'd' ∨ c = byte 'i' then
    (number value 10#32 scan.fieldWidth scan.precision (scan.flags ||| sign)).map printed
  else if c = byte 'u' then (number value 10#32 scan.fieldWidth scan.precision scan.flags).map printed
  else if c = byte 'n' then
    some { printed [] with
      memory := store32 printing.memory value.toNat (BitVec.ofNat 32 printing.str.length) }
  else
    let str := if c = byte '%' then printing.str else printing.str ++ [byte '%']
    if c = 0#8 then some { printing with fmt := scan.fmt - 1, args := scan.args, str }
    else some { printing with fmt := scan.fmt, args := scan.args, str := str ++ [c] }

/-- The `for` loop. -/
def printLoop : Nat → Printing → Option Printing
  | 0, _ => none
  | rounds + 1, printing => do
      let c ← deref format printing.fmt
      if c = 0#8 then some printing
      else if c ≠ byte '%' then
        printLoop rounds { printing with fmt := printing.fmt + 1, str := printing.str ++ [c] }
      else
        let scan ← scanDirective format arg printing.fmt printing.args
        let printing ← convert format arg printing scan
        printLoop rounds { printing with fmt := printing.fmt + 1 }

/-- `vsprintf` is back: what the buffer holds, what is returned, how many
arguments have been taken, and memory. -/
structure Printed where
  buf : List (BitVec 8)
  returned : BitVec 32
  args : Nat
  memory : Memory

def vsprintf (memory : Memory) : Option Printed := do
  let printing ← printLoop format arg (format.length + 1) ⟨0, 0, [], memory⟩
  some ⟨printing.str ++ [0#8], BitVec.ofNat 32 printing.str.length, printing.args, printing.memory⟩

end

end Linux011.Vsprintf
