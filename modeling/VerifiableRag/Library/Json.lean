import VerifiableRag.Library.Float64
import VerifiableRag.Library.Unicode

/-!
Python's `json.loads` on bytes, as CPython's scanner reads them.
-/
namespace Json
open Bytes Float64

/-- A Python `str`, as the generalized UTF-8 of its code points. -/
abbrev Text := List UInt8

inductive LoadError where
  /-- `UnicodeDecodeError` -/
  | unicode
  /-- `json.JSONDecodeError` -/
  | decode
  /-- `ValueError`: an integer literal over the digit limit -/
  | digits
  /-- `RecursionError` -/
  | recursion
  deriving DecidableEq

inductive Value where
  | null
  | bool (b : Bool)
  | int (n : ℤ)
  | float (x : F64)
  | str (s : Text)
  | arr (items : List Value)
  | obj (members : List (Text × Value))

/-- `dict.get`: the last member of a name counts. -/
def lookup : List (Text × Value) → Text → Option Value
  | [], _ => none
  | (key, value) :: rest, name =>
    match lookup rest name with
    | some later => some later
    | none => if key = name then some value else none

section Strings

/-- A byte that stands for itself in a string literal. -/
def Plain (b : UInt8) : Prop := 0x20 ≤ b ∧ b ≠ 0x22 ∧ b ≠ 0x5C

instance (b : UInt8) : Decidable (Plain b) := inferInstanceAs (Decidable (_ ∧ _ ∧ _))

def escaped (c : UInt8) : Option UInt8 :=
  if c = 0x22 ∨ c = 0x5C ∨ c = 0x2F then some c
  else if c = 0x62 then some 0x08
  else if c = 0x66 then some 0x0C
  else if c = 0x6E then some 0x0A
  else if c = 0x72 then some 0x0D
  else if c = 0x74 then some 0x09
  else none

def hexDigit (c : UInt8) : Option Nat :=
  if 0x30 ≤ c ∧ c ≤ 0x39 then some (c.toNat - 0x30)
  else if 0x61 ≤ c ∧ c ≤ 0x66 then some (c.toNat - 0x61 + 10)
  else if 0x41 ≤ c ∧ c ≤ 0x46 then some (c.toNat - 0x41 + 10)
  else none

structure Hex where
  char : UInt8
  value : Nat
  reads : hexDigit char = some value

theorem Hex.unquoted (h : Hex) : h.char ≠ 0x22 := by
  intro same
  have reads := h.reads
  rw [same] at reads
  cases reads

def hex? (c : UInt8) : Option Hex :=
  match reads : hexDigit c with
  | some value => some ⟨c, value, reads⟩
  | none => none

inductive Item where
  | plain (b : UInt8) (plain : Plain b)
  | escape (c value : UInt8) (known : escaped c = some value)
  | unicode (a b c d : Hex)

abbrev Literal := List Item

def Item.text : Item → Text
  | plain b _ => [b]
  | escape c _ _ => [0x5C, c]
  | unicode a b c d => [0x5C, 0x75, a.char, b.char, c.char, d.char]

/-- The literal as it stands in the source, without its quotes. -/
def Literal.source (s : Literal) : Text := s.flatMap Item.text

def codeUnit (a b c d : Hex) : Nat :=
  ((a.value * 16 + b.value) * 16 + c.value) * 16 + d.value

/-- The string a literal denotes: two escapes that form a surrogate pair join. -/
def Literal.value : Literal → Text
  | [] => []
  | .plain b _ :: rest => b :: Literal.value rest
  | .escape _ b _ :: rest => b :: Literal.value rest
  | .unicode a b c d :: .unicode a' b' c' d' :: rest =>
    if Unicode.isHigh (codeUnit a b c d) ∧ Unicode.isLow (codeUnit a' b' c' d') then
      Unicode.encode (Unicode.join (codeUnit a b c d) (codeUnit a' b' c' d')) ++ Literal.value rest
    else Unicode.encode (codeUnit a b c d) ++ Literal.value (.unicode a' b' c' d' :: rest)
  | .unicode a b c d :: rest => Unicode.encode (codeUnit a b c d) ++ Literal.value rest

def plain? (b : UInt8) : Option Item := if plain : Plain b then some (.plain b plain) else none

def escape? (c : UInt8) : Option Item :=
  match known : escaped c with
  | some value => some (.escape c value known)
  | none => none

def unicode? (a b c d : UInt8) : Option Item :=
  match hex? a, hex? b, hex? c, hex? d with
  | some a, some b, some c, some d => some (.unicode a b c d)
  | _, _, _, _ => none

def consItem (item : Option Item) (rest : Except LoadError (Literal × Text)) :
    Except LoadError (Literal × Text) :=
  match item with
  | some item => rest.map fun (s, rest) => (item :: s, rest)
  | none => .error .decode

/-- The strict `scanstring` after the opening quote, up to the closing one. -/
def scanString : Text → Except LoadError (Literal × Text)
  | [] => .error .decode
  | b :: rest =>
    if b = 0x22 then .ok ([], rest)
    else if b = 0x5C then
      match rest with
      | [] => .error .decode
      | c :: rest =>
        if c = 0x75 then
          match rest with
          | a :: b :: c :: d :: rest => consItem (unicode? a b c d) (scanString rest)
          | _ => .error .decode
        else consItem (escape? c) (scanString rest)
    else consItem (plain? b) (scanString rest)

end Strings

section Numbers

def isDigit (c : UInt8) : Bool := 0x30 ≤ c ∧ c ≤ 0x39

structure NumberText where
  sign : Text
  whole : Text
  fraction : Text
  exponent : Text
  deriving DecidableEq

namespace NumberText

def source (n : NumberText) : Text := n.sign ++ (n.whole ++ (n.fraction ++ n.exponent))

def natural (digits : Text) : Nat := digits.foldl (fun n c => n * 10 + (c.toNat - 0x30)) 0

def isInt (n : NumberText) : Bool := n.fraction.isEmpty && n.exponent.isEmpty

def power (n : NumberText) : ℤ :=
  match n.exponent with
  | _ :: 0x2D :: digits => -natural digits
  | _ :: 0x2B :: digits => natural digits
  | _ :: digits => natural digits
  | [] => 0

/-- An `int` without fraction and exponent, else the nearest `float`. -/
def value (n : NumberText) : Value :=
  if n.isInt then .int (if n.sign.isEmpty then natural n.whole else -natural n.whole)
  else
    let decimals := n.fraction.drop 1
    let magnitude : ℚ := natural (n.whole ++ decimals) * (10 : ℚ) ^ (n.power - decimals.length)
    .float (ofRat (if n.sign.isEmpty then magnitude else -magnitude))

end NumberText

def scanSign (signs : Text) : Text → Text × Text
  | c :: rest => if c ∈ signs then ([c], rest) else ([], c :: rest)
  | [] => ([], [])

def scanWhole : Text → Option (Text × Text)
  | c :: rest =>
    if c = 0x30 then some ([c], rest)
    else if isDigit c then some (c :: rest.takeWhile isDigit, rest.dropWhile isDigit)
    else none
  | [] => none

/-- A point counts only before a digit. -/
def scanFraction : Text → Text × Text
  | c :: d :: rest =>
    if c = 0x2E ∧ isDigit d then
      (c :: d :: rest.takeWhile isDigit, rest.dropWhile isDigit)
    else ([], c :: d :: rest)
  | s => ([], s)

/-- An exponent without digits is given back. -/
def scanExponent : Text → Text × Text
  | c :: rest =>
    let (sign, digits) := scanSign [0x2B, 0x2D] rest
    if (c = 0x65 ∨ c = 0x45) ∧ digits.takeWhile isDigit ≠ [] then
      (c :: sign ++ digits.takeWhile isDigit, digits.dropWhile isDigit)
    else ([], c :: rest)
  | [] => ([], [])

/-- `_match_number`; `none` where no number starts. -/
def scanNumber (s : Text) : Option (NumberText × Text) := do
  let (sign, s) := scanSign [0x2D] s
  let (whole, s) ← scanWhole s
  let (fraction, s) := scanFraction s
  let (exponent, s) := scanExponent s
  return (⟨sign, whole, fraction, exponent⟩, s)

/-- `sys.int_max_str_digits`. -/
def maxDigits : Nat := 4300

def convert (n : NumberText) : Except LoadError Value :=
  if n.isInt ∧ maxDigits < n.whole.length then .error .digits else .ok n.value

end Numbers

section Values

inductive Constant where
  | null | true | false | nan | infinity | minusInfinity
  deriving DecidableEq

namespace Constant

def source : Constant → Text
  | null => utf8 "null"
  | true => utf8 "true"
  | false => utf8 "false"
  | nan => utf8 "NaN"
  | infinity => utf8 "Infinity"
  | minusInfinity => utf8 "-Infinity"

def value : Constant → Value
  | null => .null
  | true => .bool Bool.true
  | false => .bool Bool.false
  | nan => .float .nan
  | infinity => .float (.infinite Bool.false)
  | minusInfinity => .float (.infinite Bool.true)

end Constant

/-- The constants are tried before the numbers. -/
def scanConstant (s : Text) : Option (Constant × Text) :=
  [Constant.null, .true, .false, .nan, .infinity, .minusInfinity].findSome? fun c =>
    if c.source.isPrefixOf s then some (c, s.drop c.source.length) else none

def isSpace (c : UInt8) : Bool := c = 0x20 ∨ c = 0x09 ∨ c = 0x0A ∨ c = 0x0D

def skip (s : Text) : Text := s.dropWhile isSpace

def scanScalar (s : Text) : Except LoadError (Value × Text) :=
  match scanConstant s with
  | some (c, rest) => .ok (c.value, rest)
  | none =>
    match scanNumber s with
    | some (n, rest) => (convert n).map (·, rest)
    | none => .error .decode

mutual

/-- `scan_once`. The depth is what is left of the interpreter's recursion limit; the fuel
    counts calls and does not run out (`scanValue_fuel`). -/
def scanValue (fuel depth : Nat) (s : Text) : Except LoadError (Value × Text) :=
  match fuel with
  | 0 => .error .decode
  | fuel + 1 =>
    match s with
    | 0x22 :: rest => do
      let (s, rest) ← scanString rest
      return (.str s.value, rest)
    | 0x7B :: rest =>
      match depth with
      | 0 => .error .recursion
      | depth + 1 =>
        match skip rest with
        | 0x7D :: rest => .ok (.obj [], rest)
        | rest => do
          let (members, rest) ← scanMembers fuel depth rest
          return (.obj members, rest)
    | 0x5B :: rest =>
      match depth with
      | 0 => .error .recursion
      | depth + 1 =>
        match skip rest with
        | 0x5D :: rest => .ok (.arr [], rest)
        | rest => do
          let (items, rest) ← scanItems fuel depth rest
          return (.arr items, rest)
    | s => scanScalar s

/-- The loop of `_parse_object`, from a name on. -/
def scanMembers (fuel depth : Nat) (s : Text) : Except LoadError (List (Text × Value) × Text) :=
  match fuel with
  | 0 => .error .decode
  | fuel + 1 =>
    match s with
    | 0x22 :: rest => do
      let (name, rest) ← scanString rest
      match skip rest with
      | 0x3A :: rest => do
        let (value, rest) ← scanValue fuel depth (skip rest)
        match skip rest with
        | 0x7D :: rest => return ([(name.value, value)], rest)
        | 0x2C :: rest => do
          let (members, rest) ← scanMembers fuel depth (skip rest)
          return ((name.value, value) :: members, rest)
        | _ => .error .decode
      | _ => .error .decode
    | _ => .error .decode

/-- The loop of `_parse_array`, from an item on. -/
def scanItems (fuel depth : Nat) (s : Text) : Except LoadError (List Value × Text) :=
  match fuel with
  | 0 => .error .decode
  | fuel + 1 => do
    let (value, rest) ← scanValue fuel depth s
    match skip rest with
    | 0x5D :: rest => return ([value], rest)
    | 0x2C :: rest => do
      let (items, rest) ← scanItems fuel depth (skip rest)
      return (value :: items, rest)
    | _ => .error .decode

end

/-- `JSONDecoder.decode`. -/
def decodeJson (depth : Nat) (s : Text) : Except LoadError Value := do
  let (value, rest) ← scanValue (2 * s.length + 2) depth (skip s)
  if skip rest = [] then return value else .error .decode

/-- `json.loads` of bytes. -/
def loads (depth : Nat) (b : List UInt8) : Except LoadError Value :=
  match Unicode.decodeText b with
  | none => .error .unicode
  | some s => decodeJson depth s

end Values

end Json
