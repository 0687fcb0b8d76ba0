import Mathlib.Data.Nat.Digits.Defs
import Mathlib.Tactic.Common

/-! The language of C's format strings: its directives, and what each prints.
Arguments are 32-bit words; what string an address stands for is left open. -/
namespace Printf

/-- A character of a format or of a text. -/
abbrev Byte := BitVec 8

/-- The code of a character. -/
def byte (c : Char) : Byte := BitVec.ofNat 8 c.toNat

/-- The flags of a directive. -/
inductive Flag where
  | left
  | plus
  | space
  | special
  | zero
  deriving DecidableEq, Repr

/-- How a flag is written. -/
def Flag.byte : Flag → Byte
  | .left => Printf.byte '-'
  | .plus => Printf.byte '+'
  | .space => Printf.byte ' '
  | .special => Printf.byte '#'
  | .zero => Printf.byte '0'

/-- A digit as a character. -/
def digitByte (d : Fin 10) : Byte := 0x30#8 + BitVec.ofNat 8 d.val

/-- A number below `bound` in decimal digits. -/
structure Decimal (bound : Nat) where
  digits : List (Fin 10)
  nonempty : digits ≠ []
  small : digits.foldl (fun v d => 10 * v + d.val) 0 < bound
  deriving DecidableEq, Repr

/-- The number that the digits write. -/
def Decimal.value {bound : Nat} (n : Decimal bound) : Nat := n.digits.foldl (fun v d => 10 * v + d.val) 0

def Decimal.bytes {bound : Nat} (n : Decimal bound) : List Byte := n.digits.map digitByte

/-- A width or a precision; `star` takes it from the arguments. -/
inductive Amount (bound : Nat) where
  | number (n : Decimal bound)
  | star
  deriving DecidableEq, Repr

/-- What may stand in front of a conversion. -/
inductive Qualifier where
  | h
  | l
  | upperL
  deriving DecidableEq, Repr

/-- The conversions of the language. -/
inductive Conversion where
  | c
  | s
  | d
  | i
  | u
  | o
  | x
  | upperX
  | p
  deriving DecidableEq, Repr

/-- A zero at the start of a width would be a flag. -/
structure Directive (bound : Nat) where
  flags : List Flag
  width : Option (Amount bound)
  precision : Option (Amount bound)
  qualifier : Option Qualifier
  conversion : Conversion
  leading : ∀ n, width = some (.number n) → n.digits.head? ≠ some 0

/-- A text byte, or a directive. -/
inductive Piece (bound : Nat) where
  | text (b : Byte) (plain : b ≠ 0#8 ∧ b ≠ byte '%')
  | percent
  | directive (d : Directive bound)

section

variable {bound : Nat}

def Amount.bytes : Amount bound → List Byte
  | .number n => n.bytes
  | .star => [byte '*']

def Qualifier.byte : Qualifier → Byte
  | .h => Printf.byte 'h'
  | .l => Printf.byte 'l'
  | .upperL => Printf.byte 'L'

/-- The letter of a conversion. -/
def Conversion.byte : Conversion → Byte
  | .c => Printf.byte 'c'
  | .s => Printf.byte 's'
  | .d => Printf.byte 'd'
  | .i => Printf.byte 'i'
  | .u => Printf.byte 'u'
  | .o => Printf.byte 'o'
  | .x => Printf.byte 'x'
  | .upperX => Printf.byte 'X'
  | .p => Printf.byte 'p'

def widthBytes : Option (Amount bound) → List Byte
  | none => []
  | some amount => amount.bytes

def precisionBytes : Option (Amount bound) → List Byte
  | none => []
  | some amount => byte '.' :: amount.bytes

def qualifierBytes : Option Qualifier → List Byte
  | none => []
  | some q => [q.byte]

/-- A directive as it is written: flags, width, precision, qualifier, conversion. -/
def Directive.bytes (d : Directive bound) : List Byte :=
  byte '%' :: (d.flags.map Flag.byte ++ (widthBytes d.width ++ (precisionBytes d.precision ++
    (qualifierBytes d.qualifier ++ [d.conversion.byte]))))

def Piece.bytes : Piece bound → List Byte
  | .text b _ => [b]
  | .percent => [byte '%', byte '%']
  | .directive d => d.bytes

/-- A whole format as it is written. -/
def formatBytes (pieces : List (Piece bound)) : List Byte := pieces.flatMap Piece.bytes

end

/-- How a number is to be shown. -/
structure Style where
  left : Bool
  plus : Bool
  space : Bool
  special : Bool
  zero : Bool
  small : Bool
  signed : Bool
  deriving DecidableEq, Repr

/-- `body` after `head`, filled up to `width`: behind, with zeros between the
two, or in front. -/
def field (style : Style) (width : Nat) (head body : List Byte) : List Byte :=
  let missing := width - (head.length + body.length)
  if style.left then head ++ body ++ List.replicate missing (byte ' ')
  else if style.zero then head ++ List.replicate missing (byte '0') ++ body
  else List.replicate missing (byte ' ') ++ head ++ body

/-- Digits from the most significant one on; 0 has one. -/
def digitsOf (base n : Nat) : List Nat := if n = 0 then [0] else (Nat.digits base n).reverse

/-- Digits from 10 on are letters. -/
def numeralByte (small : Bool) (digit : Nat) : Byte :=
  if digit < 10 then byte '0' + BitVec.ofNat 8 digit
  else (if small then byte 'a' else byte 'A') + BitVec.ofNat 8 (digit - 10)

/-- The sign, or the blank in its place. -/
def signBytes (style : Style) (v : BitVec 32) : List Byte :=
  if style.signed ∧ v.toInt < 0 then [byte '-']
  else if style.plus then [byte '+']
  else if style.space then [byte ' '] else []

/-- What `#` puts in front of octal and hexadecimal numbers. -/
def prefixBytes (style : Style) (base : Nat) : List Byte :=
  if style.special then
    if base = 8 then [byte '0']
    else if base = 16 then [byte '0', if style.small then byte 'x' else byte 'X'] else []
  else []

/-- The number without its sign. -/
def magnitude (style : Style) (v : BitVec 32) : Nat := if style.signed then v.toInt.natAbs else v.toNat

/-- A number: sign and prefix, then at least `precision` digits. -/
def numeral (style : Style) (base width precision : Nat) (v : BitVec 32) : List Byte :=
  let digits := (digitsOf base (magnitude style v)).map (numeralByte style.small)
  field style width (signBytes style v ++ prefixBytes style base)
    (List.replicate (precision - digits.length) (byte '0') ++ digits)

/-- A directive whose stars have got their values. -/
structure Layout where
  style : Style
  width : Option Nat
  precision : Option Nat
  deriving DecidableEq, Repr

section

variable {bound : Nat} (string : BitVec 32 → List Byte) (arg : Nat → BitVec 32)

/-- A number of the format, or the argument that a star stands for. -/
def Amount.value (k : Nat) : Amount bound → Int
  | .number n => n.value
  | .star => (arg k).toInt

def starCount : Option (Amount bound) → Nat
  | some .star => 1
  | _ => 0

/-- The arguments that a directive takes for its stars. -/
def Directive.stars (d : Directive bound) : Nat := starCount d.width + starCount d.precision

/-- The arguments of the directive begin at number `k`. A negative width is
its absolute value and the flag `left`. -/
def Directive.layout (d : Directive bound) (k : Nat) : Layout :=
  let width := d.width.map (Amount.value arg k)
  let precision := d.precision.map (Amount.value arg (k + starCount d.width))
  { style :=
      { left := .left ∈ d.flags || width.any (· < 0)
        plus := .plus ∈ d.flags
        space := .space ∈ d.flags
        special := .special ∈ d.flags
        zero := .zero ∈ d.flags
        small := false
        signed := false }
    width := width.map Int.natAbs
    precision := precision.map Int.toNat }

/-- What one conversion prints of its argument. -/
def Conversion.render (layout : Layout) (v : BitVec 32) : Conversion → List Byte
  | .c => field { layout.style with zero := false } (layout.width.getD 0) [] [v.setWidth 8]
  | .s =>
      let text := match layout.precision with
        | none => string v
        | some n => (string v).take n
      field { layout.style with zero := false } (layout.width.getD 0) [] text
  | .d | .i =>
      numeral { layout.style with signed := true } 10 (layout.width.getD 0) (layout.precision.getD 0) v
  | .u => numeral layout.style 10 (layout.width.getD 0) (layout.precision.getD 0) v
  | .o => numeral layout.style 8 (layout.width.getD 0) (layout.precision.getD 0) v
  | .x =>
      numeral { layout.style with small := true } 16 (layout.width.getD 0) (layout.precision.getD 0) v
  | .upperX => numeral layout.style 16 (layout.width.getD 0) (layout.precision.getD 0) v
  | .p => match layout.width with
      | none => numeral { layout.style with zero := true } 16 8 (layout.precision.getD 0) v
      | some width => numeral layout.style 16 width (layout.precision.getD 0) v

/-- What a directive prints, with its arguments from number `k` on. -/
def Directive.render (d : Directive bound) (k : Nat) : List Byte :=
  d.conversion.render string (d.layout arg k) (arg (k + d.stars))

/-- The arguments that a piece takes. -/
def Piece.taken : Piece bound → Nat
  | .directive d => d.stars + 1
  | _ => 0

def Piece.render (k : Nat) : Piece bound → List Byte
  | .text b _ => [b]
  | .percent => [byte '%']
  | .directive d => d.render string arg k

/-- What the pieces print when their arguments begin at number `k`. -/
def render : Nat → List (Piece bound) → List Byte
  | _, [] => []
  | k, piece :: pieces => piece.render string arg k ++ render (k + piece.taken) pieces

/-- How many arguments they take. -/
def taken (pieces : List (Piece bound)) : Nat := (pieces.map Piece.taken).sum

end

end Printf
