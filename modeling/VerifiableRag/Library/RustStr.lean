import Mathlib.Data.Rat.Floor
import Mathlib.Algebra.Ring.Nat

/-!
Text of Rust's standard library: lossy UTF-8, and the grammar of `str::parse::<f64>`
in exact arithmetic.
-/
namespace RustStr

/-- How many continuation bytes a lead byte asks for, and the range of the first. -/
def sequence (b : UInt8) : Option (Nat × UInt8 × UInt8) :=
  if 0xC2 ≤ b ∧ b ≤ 0xDF then some (1, 0x80, 0xBF)
  else if b = 0xE0 then some (2, 0xA0, 0xBF)
  else if b = 0xED then some (2, 0x80, 0x9F)
  else if 0xE1 ≤ b ∧ b ≤ 0xEF then some (2, 0x80, 0xBF)
  else if b = 0xF0 then some (3, 0x90, 0xBF)
  else if 0xF1 ≤ b ∧ b ≤ 0xF3 then some (3, 0x80, 0xBF)
  else if b = 0xF4 then some (3, 0x80, 0x8F)
  else none

/-- `count` continuation bytes, the first between `low` and `high`, added to `code`. -/
def continuation : Nat → UInt8 → UInt8 → Nat → List UInt8 → Option Nat × List UInt8
  | 0, _, _, code, rest => (some code, rest)
  | _ + 1, _, _, _, [] => (none, [])
  | count + 1, low, high, code, b :: rest =>
    if low ≤ b ∧ b ≤ high then continuation count 0x80 0xBF (code * 64 + b.toNat % 64) rest
    else (none, b :: rest)

/-- The bits of a character in the lead byte before `count` others. -/
def leadBits (b : UInt8) (count : Nat) : Nat := b.toNat % 2 ^ (6 - count)

def lossyChars : Nat → List UInt8 → List Char
  | 0, _ => []
  | _, [] => []
  | fuel + 1, b :: rest =>
    if b < 0x80 then Char.ofNat b.toNat :: lossyChars fuel rest
    else
      match sequence b with
      | none => '\uFFFD' :: lossyChars fuel rest
      | some (count, low, high) =>
        match continuation count low high (leadBits b count) rest with
        | (some code, rest) => Char.ofNat code :: lossyChars fuel rest
        -- one replacement for the longest prefix of a character
        | (none, rest) => '\uFFFD' :: lossyChars fuel rest

/-- `String::from_utf8_lossy` -/
def fromUtf8Lossy (bytes : List UInt8) : String := String.ofList (lossyChars bytes.length bytes)

/-- What a float literal denotes, before rounding. -/
inductive Float where
  | nan
  | infinite (negative : Bool)
  | finite (value : ℚ)
  deriving DecidableEq

def isDigit (c : Char) : Bool := '0' ≤ c && c ≤ '9'

def digitsValue (digits : List Char) : Nat :=
  digits.foldl (fun n c => 10 * n + (c.toNat - '0'.toNat)) 0

def signed : List Char → Bool × List Char
  | '-' :: rest => (true, rest)
  | '+' :: rest => (false, rest)
  | rest => (false, rest)

def exponent : List Char → Option ℤ
  | [] => some 0
  | e :: rest =>
    if e = 'e' ∨ e = 'E' then
      let (negative, digits) := signed rest
      if digits ≠ [] ∧ digits.all isDigit then
        some (if negative then -digitsValue digits else digitsValue digits)
      else none
    else none

def scaled (n : Nat) (power : ℤ) : ℚ :=
  if 0 ≤ power then (n * 10 ^ power.toNat : Nat) else mkRat n (10 ^ (-power).toNat)

/-- `Digit* ['.' Digit*] [Exp]` with a digit on one side of the point. -/
def magnitude (text : List Char) : Option ℚ :=
  let whole := text.takeWhile isDigit
  let (fraction, rest) := match text.dropWhile isDigit with
    | '.' :: rest => (rest.takeWhile isDigit, rest.dropWhile isDigit)
    | rest => ([], rest)
  if whole = [] ∧ fraction = [] then none
  else (exponent rest).map fun (e : ℤ) =>
    scaled (digitsValue (whole ++ fraction)) (e - fraction.length)

def parseF64 (s : String) : Option Float :=
  let (negative, body) := signed s.toList
  let word := body.map Char.toLower
  if word = "nan".toList then some .nan
  else if word = "inf".toList ∨ word = "infinity".toList then some (.infinite negative)
  else (magnitude body).map fun q => .finite (if negative then -q else q)

end RustStr
