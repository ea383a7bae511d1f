import VerifiableRag.Library.Bytes

/-!
How Python decodes a JSON byte string to text. A `str` is kept as the generalized
UTF-8 of its code points, so a lone surrogate has a three-byte form of its own and
equal strings have equal bytes.
-/
namespace Unicode

/-- The generalized UTF-8 form of a code point. -/
def encode (c : Nat) : List UInt8 :=
  if c < 0x80 then [UInt8.ofNat c]
  else if c < 0x800 then [UInt8.ofNat (0xC0 + c / 64), UInt8.ofNat (0x80 + c % 64)]
  else if c < 0x10000 then
    [UInt8.ofNat (0xE0 + c / 4096), UInt8.ofNat (0x80 + c / 64 % 64), UInt8.ofNat (0x80 + c % 64)]
  else
    [UInt8.ofNat (0xF0 + c / 262144), UInt8.ofNat (0x80 + c / 4096 % 64),
      UInt8.ofNat (0x80 + c / 64 % 64), UInt8.ofNat (0x80 + c % 64)]

def isHigh (u : Nat) : Bool := 0xD800 ≤ u ∧ u < 0xDC00
def isLow (u : Nat) : Bool := 0xDC00 ≤ u ∧ u < 0xE000

def join (high low : Nat) : Nat := 0x10000 + (high - 0xD800) * 0x400 + (low - 0xDC00)

def isContinuation (b : UInt8) : Bool := 0x80 ≤ b ∧ b ≤ 0xBF

/-- What the UTF-8 codec accepts with `surrogatepass`: no overlong form and nothing
    above U+10FFFF, but surrogates. -/
def wellFormed : List UInt8 → Bool
  | [] => true
  | b0 :: rest =>
    if b0 < 0x80 then wellFormed rest
    else if 0xC2 ≤ b0 ∧ b0 ≤ 0xDF then
      match rest with
      | b1 :: rest => isContinuation b1 && wellFormed rest
      | _ => false
    else if 0xE0 ≤ b0 ∧ b0 ≤ 0xEF then
      match rest with
      | b1 :: b2 :: rest =>
        decide (b0 = 0xE0 → 0xA0 ≤ b1) && isContinuation b1 && isContinuation b2 && wellFormed rest
      | _ => false
    else if 0xF0 ≤ b0 ∧ b0 ≤ 0xF4 then
      match rest with
      | b1 :: b2 :: b3 :: rest =>
        decide (b0 = 0xF0 → 0x90 ≤ b1) && decide (b0 = 0xF4 → b1 ≤ 0x8F) && isContinuation b1 &&
          isContinuation b2 && isContinuation b3 && wellFormed rest
      | _ => false
    else false

/-- `str.encode("utf-8")` succeeds: no surrogate among the characters. -/
def encodable (s : List UInt8) : Bool :=
  (s.zip s.tail).all fun p => !(p.1 == 0xED && 0xA0 ≤ p.2)

/-- `bytes.decode("utf-8")` succeeds. -/
def isUtf8 (b : List UInt8) : Bool := wellFormed b && encodable b

/-- `len` of a `str`: every byte but a continuation starts a character. -/
def chars : List UInt8 → Nat
  | [] => 0
  | _ :: rest => rest.countP (fun b => !isContinuation b) + 1

inductive Encoding where
  | utf8 | utf8Sig
  | utf16 | utf16be | utf16le
  | utf32 | utf32be | utf32le
  deriving DecidableEq

/-- `json.detect_encoding`: a byte order mark, else the pattern of zero bytes. -/
def detectEncoding (b : List UInt8) : Encoding :=
  if [0x00, 0x00, 0xFE, 0xFF].isPrefixOf b ∨ [0xFF, 0xFE, 0x00, 0x00].isPrefixOf b then .utf32
  else if [0xFE, 0xFF].isPrefixOf b ∨ [0xFF, 0xFE].isPrefixOf b then .utf16
  else if [0xEF, 0xBB, 0xBF].isPrefixOf b then .utf8Sig
  else match b with
    | b0 :: b1 :: b2 :: b3 :: _ =>
      if b0 = 0 then (if b1 ≠ 0 then .utf16be else .utf32be)
      else if b1 = 0 then (if b2 ≠ 0 ∨ b3 ≠ 0 then .utf16le else .utf32le)
      else .utf8
    | [b0, b1] => if b0 = 0 then .utf16be else if b1 = 0 then .utf16le else .utf8
    | _ => .utf8

def units (big : Bool) : List UInt8 → Option (List Nat)
  | [] => some []
  | [_] => none
  | a :: b :: rest =>
    (units big rest).map ((if big then a.toNat * 256 + b.toNat else b.toNat * 256 + a.toNat) :: ·)

/-- Surrogate pairs join; a lone surrogate passes. -/
def ofUnits : List Nat → List UInt8
  | [] => []
  | [u] => encode u
  | u :: v :: rest =>
    if isHigh u ∧ isLow v then encode (join u v) ++ ofUnits rest
    else encode u ++ ofUnits (v :: rest)

def ofUtf32 (big : Bool) : List UInt8 → Option (List UInt8)
  | [] => some []
  | a :: b :: c :: d :: rest =>
    let u := if big then Bytes.decode [a, b, c, d] else Bytes.decode [d, c, b, a]
    if u < 0x110000 then (ofUtf32 big rest).map (encode u ++ ·) else none
  | _ => none

/-- `bytes.decode(encoding, 'surrogatepass')`; `none` is `UnicodeDecodeError`. -/
def decodeAs (b : List UInt8) : Encoding → Option (List UInt8)
  | .utf8 => if wellFormed b then some b else none
  | .utf8Sig => if wellFormed (b.drop 3) then some (b.drop 3) else none
  | .utf16 => (units ([0xFE, 0xFF].isPrefixOf b) (b.drop 2)).map ofUnits
  | .utf16be => (units true b).map ofUnits
  | .utf16le => (units false b).map ofUnits
  | .utf32 => ofUtf32 ([0x00, 0x00, 0xFE, 0xFF].isPrefixOf b) (b.drop 4)
  | .utf32be => ofUtf32 true b
  | .utf32le => ofUtf32 false b

def decodeText (b : List UInt8) : Option (List UInt8) := decodeAs b (detectEncoding b)

theorem chars_le (s : List UInt8) : chars s ≤ s.length := by
  cases s with
  | nil => exact Nat.le_refl 0
  | cons b rest => exact Nat.succ_le_succ List.countP_le_length

theorem chars_pos {s : List UInt8} : 1 ≤ chars s ↔ s ≠ [] := by
  cases s with
  | nil => simp [chars]
  | cons b rest => simp [chars]

theorem detectEncoding_utf8 {b : List UInt8} (ascii : ∀ c, b.head? = some c → c < 0x80)
    (nonzero : ∀ c ∈ b, c ≠ 0) : detectEncoding b = .utf8 := by
  have mark : ∀ (c : UInt8) (rest : List UInt8), ¬ c < 0x80 ∨ c = 0 → ¬ (c :: rest).isPrefixOf b := by
    intro c rest foreign marked
    cases b with
    | nil => cases marked
    | cons b0 b =>
      rw [List.isPrefixOf_cons_cons, Bool.and_eq_true, beq_iff_eq] at marked
      rcases foreign with high | zero
      · exact high (marked.1 ▸ ascii b0 rfl)
      · exact nonzero b0 (by simp) (marked.1 ▸ zero)
  unfold detectEncoding
  rw [if_neg (not_or.mpr ⟨mark _ _ (by decide), mark _ _ (by decide)⟩),
    if_neg (not_or.mpr ⟨mark _ _ (by decide), mark _ _ (by decide)⟩), if_neg (mark _ _ (by decide))]
  split
  · rename_i _ b0 b1 b2 b3 _
    rw [if_neg (nonzero b0 (by simp)), if_neg (nonzero b1 (by simp))]
  · rename_i _ b0 b1
    rw [if_neg (nonzero b0 (by simp)), if_neg (nonzero b1 (by simp))]
  · rfl

theorem decodeText_utf8 {b : List UInt8} (ascii : ∀ c, b.head? = some c → c < 0x80)
    (nonzero : ∀ c ∈ b, c ≠ 0) : decodeText b = if wellFormed b then some b else none := by
  rw [decodeText, detectEncoding_utf8 ascii nonzero, decodeAs]

end Unicode
