import VerifiableRag.Library.Abi

/-!
The strict decoding of standard ABI data, which checks every pointer, every length and the
padding: of a tuple of byte strings, and of an argument list at its parameter types.
-/
namespace Abi
open Bytes

def encodeTuple (fields : List (List UInt8)) : List UInt8 :=
  uint 32 ++ abiEncode (fields.map Arg.bytes)

def ceil32 (n : Nat) : Nat := n + (32 - n % 32) % 32

def readWord (frame : List UInt8) (place : Nat) : Option Nat :=
  let word := (frame.drop place).take 32
  if word.length = 32 then some (decode word) else none

/-- The pointers of `count` dynamic values at the head of a frame: each points behind the head
    and into the frame. -/
def readPointers (frame : List UInt8) (headSize : Nat) : Nat → Nat → Option (List Nat)
  | 0, _ => some []
  | count + 1, place => do
    let pointer ← readWord frame place
    if headSize ≤ pointer ∧ pointer < frame.length then
      let pointers ← readPointers frame headSize count (place + 32)
      return pointer :: pointers
    else none

def readBytes (frame : List UInt8) (pointer : Nat) : Option (List UInt8) := do
  let size ← readWord frame pointer
  let data := (frame.drop (pointer + 32)).take (ceil32 size)
  if data.length = ceil32 size ∧ (data.drop size).all (· = 0) then return data.take size else none

/-- `count` dynamic values, their pointers first. -/
def readFields (frame : List UInt8) (count : Nat) : Option (List (List UInt8)) := do
  let pointers ← readPointers frame (32 * count) count 0
  pointers.mapM (readBytes frame)

def decodeTuple (count : Nat) (data : List UInt8) : Option (List (List UInt8)) := do
  match ← readPointers data 32 1 0 with
  | [pointer] => readFields (data.drop pointer) count
  | _ => none

section RoundTrip
variable {frame xs ys data : List UInt8} {place offset n : Nat}

theorem hasAt_left (held : HasAt frame place (xs ++ ys)) : HasAt frame place xs := by
  obtain ⟨rest, same⟩ := held
  exact ⟨ys ++ rest, by rw [same, List.append_assoc]⟩

theorem hasAt_right (held : HasAt frame place (xs ++ ys)) : HasAt frame (place + xs.length) ys := by
  obtain ⟨rest, same⟩ := held
  exact ⟨rest, by rw [← List.drop_drop, same, List.append_assoc, List.drop_left]⟩

theorem hasAt_length (held : HasAt frame place xs) (given : xs ≠ []) :
    place + xs.length ≤ frame.length := by
  obtain ⟨rest, same⟩ := held
  have sizes := congrArg List.length same
  rw [List.length_drop, List.length_append] at sizes
  have := List.length_pos_iff.mpr given
  omega

theorem readWord_uint (here : HasAt frame place (uint n)) (small : n < 2 ^ 256) :
    readWord frame place = some n := by
  have word := take_of_hasAt here (uint_length n)
  rw [readWord, word, if_pos (uint_length n), uint, decode_encode]
  exact congrArg some (Nat.mod_eq_of_lt small)

theorem padRight_ceil32 (data : List UInt8) : (padRight data).length = ceil32 data.length :=
  padRight_length data

theorem bytes_tail_length (data : List UInt8) :
    (Arg.bytes data).tail.length = 32 + ceil32 data.length := by
  rw [Arg.tail, List.length_append, uint_length, padRight_ceil32]

theorem bytes_tail_ne_nil (data : List UInt8) : (Arg.bytes data).tail ≠ [] := by
  intro empty
  have size := congrArg List.length empty
  rw [bytes_tail_length, List.length_nil] at size
  omega

theorem readBytes_tail (here : HasAt frame place (Arg.bytes data).tail)
    (small : data.length < 2 ^ 256) : readBytes frame place = some data := by
  have behind := hasAt_right here
  rw [uint_length] at behind
  have padded := take_of_hasAt behind (padRight_ceil32 data)
  have kept : (padRight data).take data.length = data := List.take_left' rfl
  have zeros : ((padRight data).drop data.length).all (· = 0) = true := by
    rw [padRight, List.drop_left' rfl, List.all_eq_true]
    intro b member
    exact decide_eq_true (List.eq_of_mem_replicate member)
  rw [readBytes, readWord_uint (hasAt_left here) small]
  simp only [Option.bind_eq_bind, Option.bind_some, padded]
  rw [if_pos ⟨padRight_ceil32 data, zeros⟩, kept]
  rfl

/-- Where the tails of these arguments start. -/
def pointers : Nat → List Arg → List Nat
  | _, [] => []
  | offset, arg :: rest => offset :: pointers (offset + arg.tail.length) rest

theorem readPointers_heads {headSize : Nat} (fields : List (List UInt8))
    (here : HasAt frame place (heads offset (fields.map Arg.bytes)))
    (tails : HasAt frame offset ((fields.map Arg.bytes).flatMap Arg.tail))
    (behind : headSize ≤ offset) (small : frame.length < 2 ^ 256) :
    readPointers frame headSize fields.length place =
      some (pointers offset (fields.map Arg.bytes)) := by
  induction fields generalizing place offset with
  | nil => rfl
  | cons field fields ih =>
    rw [List.map_cons] at here tails
    have next := hasAt_right here
    rw [Arg.head_length] at next
    have inside := hasAt_length (hasAt_left tails) (bytes_tail_ne_nil field)
    have positive := List.length_pos_iff.mpr (bytes_tail_ne_nil field)
    have word : readWord frame place = some offset := readWord_uint (hasAt_left here) (by omega)
    have later := ih next (hasAt_right tails) (by omega)
    rw [List.length_cons, readPointers, word, Option.bind_eq_bind, Option.bind_some,
      if_pos ⟨behind, by omega⟩]
    exact congrArg (Option.bind · _) later

theorem mapM_readBytes (fields : List (List UInt8))
    (tails : HasAt frame offset ((fields.map Arg.bytes).flatMap Arg.tail))
    (small : ∀ field ∈ fields, field.length < 2 ^ 256) :
    (pointers offset (fields.map Arg.bytes)).mapM (readBytes frame) = some fields := by
  induction fields generalizing offset with
  | nil => rfl
  | cons field fields ih =>
    rw [List.forall_mem_cons] at small
    have first := readBytes_tail (hasAt_left tails) small.1
    have later := ih (hasAt_right tails) small.2
    rw [List.map_cons, pointers, List.mapM_cons, first]
    simp only [Option.bind_eq_bind, Option.bind_some, later]
    rfl

theorem headSize_bytes (fields : List (List UInt8)) :
    ((fields.map Arg.bytes).map Arg.headSize).sum = 32 * fields.length := by
  induction fields with
  | nil => rfl
  | cons field fields ih =>
    rw [List.map_cons, List.map_cons, List.sum_cons, ih, Arg.headSize, List.length_cons]
    omega

theorem readFields_abiEncode {fields : List (List UInt8)}
    (size : (abiEncode (fields.map Arg.bytes)).length < 2 ^ 256)
    (small : ∀ field ∈ fields, field.length < 2 ^ 256) :
    readFields (abiEncode (fields.map Arg.bytes)) fields.length = some fields := by
  have headSize := headSize_bytes fields
  have heads_at := hasAt_here (heads (32 * fields.length) (fields.map Arg.bytes))
    ((fields.map Arg.bytes).flatMap Arg.tail)
  have tails_at : HasAt (abiEncode (fields.map Arg.bytes)) (32 * fields.length)
      ((fields.map Arg.bytes).flatMap Arg.tail) := by
    have skipped := hasAt_skip (heads_length (32 * fields.length) (fields.map Arg.bytes))
      (hasAt_here ((fields.map Arg.bytes).flatMap Arg.tail) [])
    rw [headSize, Nat.add_zero, List.append_nil] at skipped
    rw [abiEncode, headSize]
    exact skipped
  have found : readPointers (abiEncode (fields.map Arg.bytes)) (32 * fields.length) fields.length 0 =
      some (pointers (32 * fields.length) (fields.map Arg.bytes)) := by
    apply readPointers_heads fields ?_ tails_at (Nat.le_refl _) size
    rw [abiEncode, headSize]
    exact heads_at
  rw [readFields, found, Option.bind_eq_bind, Option.bind_some]
  exact mapM_readBytes fields tails_at small

/-- Decoding undoes encoding, as far as the encoding has lengths that fit a word. -/
theorem decodeTuple_encodeTuple {fields : List (List UInt8)} (given : fields ≠ [])
    (size : (encodeTuple fields).length < 2 ^ 256)
    (small : ∀ field ∈ fields, field.length < 2 ^ 256) :
    decodeTuple fields.length (encodeTuple fields) = some fields := by
  have total : (encodeTuple fields).length = 32 + (abiEncode (fields.map Arg.bytes)).length := by
    rw [encodeTuple, List.length_append, uint_length]
  have inside : 0 < (abiEncode (fields.map Arg.bytes)).length := by
    have nonempty := List.length_pos_iff.mpr given
    rw [abiEncode_length, headSize_bytes]
    omega
  have word : readWord (encodeTuple fields) 0 = some 32 :=
    readWord_uint (hasAt_here (uint 32) _) (by decide)
  have frame : (encodeTuple fields).drop 32 = abiEncode (fields.map Arg.bytes) :=
    List.drop_left' (uint_length 32)
  have pointer : readPointers (encodeTuple fields) 32 1 0 = some [32] := by
    rw [readPointers, word, Option.bind_eq_bind, Option.bind_some, if_pos ⟨Nat.le_refl _, by omega⟩]
    rfl
  rw [decodeTuple, pointer, Option.bind_eq_bind, Option.bind_some]
  simp only [frame]
  exact readFields_abiEncode (by omega) small

theorem tails_length_le {bound : Nat} {fields : List (List UInt8)}
    (small : ∀ field ∈ fields, field.length < bound) :
    ((fields.map Arg.bytes).flatMap Arg.tail).length ≤ fields.length * (bound + 63) := by
  induction fields with
  | nil => simp
  | cons field fields ih =>
    rw [List.forall_mem_cons] at small
    have later := ih small.2
    have first := small.1
    rw [List.map_cons, List.flatMap_cons, List.length_append, bytes_tail_length, ceil32,
      List.length_cons, Nat.succ_mul]
    omega

theorem encodeTuple_length (fields : List (List UInt8)) : (encodeTuple fields).length =
    32 + (32 * fields.length + ((fields.map Arg.bytes).flatMap Arg.tail).length) := by
  rw [encodeTuple, List.length_append, uint_length, abiEncode_length, headSize_bytes]

end RoundTrip

/-- The types at which an argument list is read. -/
inductive Kind where
  | static (count : Nat)
  | bytes
  | array

def Kind.headSize : Kind → Nat
  | static count => 32 * count
  | bytes => 32
  | array => 32

def Arg.kind : Arg → Kind
  | static words => .static words.length
  | bytes _ => .bytes
  | array _ => .array

def readWords (frame : List UInt8) : Nat → Nat → Option (List Word)
  | 0, _ => some []
  | count + 1, place => do
    let word ← readWord frame place
    let words ← readWords frame count (place + 32)
    return BitVec.ofNat 256 word :: words

def readArray (frame : List UInt8) (pointer : Nat) : Option (List Word) := do
  let count ← readWord frame pointer
  readWords frame count (pointer + 32)

/-- The pointer of a dynamic argument: it points behind the heads and into the frame. -/
def readPointer (frame : List UInt8) (headSize place : Nat) : Option Nat := do
  let pointer ← readWord frame place
  if headSize ≤ pointer ∧ pointer < frame.length then return pointer else none

def readArg (frame : List UInt8) (headSize place : Nat) : Kind → Option Arg
  | .static count => do
    let words ← readWords frame count place
    return .static words
  | .bytes => do
    let pointer ← readPointer frame headSize place
    let data ← readBytes frame pointer
    return .bytes data
  | .array => do
    let pointer ← readPointer frame headSize place
    let words ← readArray frame pointer
    return .array words

def readArgs (frame : List UInt8) (headSize : Nat) : List Kind → Nat → Option (List Arg)
  | [], _ => some []
  | kind :: kinds, place => do
    let arg ← readArg frame headSize place kind
    let args ← readArgs frame headSize kinds (place + kind.headSize)
    return arg :: args

/-- The arguments of a call, from the bytes behind its selector. -/
def decodeArgs (kinds : List Kind) (data : List UInt8) : Option (List Arg) :=
  readArgs data (kinds.map Kind.headSize).sum kinds 0

section Arguments
variable {frame data : List UInt8} {place offset headSize : Nat}

theorem kind_headSize (arg : Arg) : arg.kind.headSize = arg.headSize := by
  cases arg <;> rfl

theorem kinds_headSize (args : List Arg) :
    ((args.map Arg.kind).map Kind.headSize).sum = (args.map Arg.headSize).sum := by
  induction args with
  | nil => rfl
  | cons arg args ih => rw [List.map_cons, List.map_cons, List.sum_cons, kind_headSize, ih,
      List.map_cons, List.sum_cons]

theorem words_length (words : List Word) : (words.flatMap Word.bytes).length = 32 * words.length := by
  simp [List.length_flatMap, Nat.mul_comm]

theorem readWords_words (words : List Word) (here : HasAt frame place (words.flatMap Word.bytes)) :
    readWords frame words.length place = some words := by
  induction words generalizing place with
  | nil => rfl
  | cons w words ih =>
    rw [List.flatMap_cons] at here
    have first : readWord frame place = some w.toNat := readWord_uint (hasAt_left here) w.isLt
    have next := hasAt_right here
    rw [Word.bytes_length] at next
    rw [List.length_cons, readWords, first]
    simp only [Option.bind_eq_bind, Option.bind_some, ih next, BitVec.ofNat_toNat, BitVec.setWidth_eq]
    rfl

theorem readArray_tail (words : List Word) (here : HasAt frame place (Arg.array words).tail)
    (small : words.length < 2 ^ 256) : readArray frame place = some words := by
  have behind := hasAt_right here
  rw [uint_length] at behind
  rw [readArray, readWord_uint (hasAt_left here) small, Option.bind_eq_bind, Option.bind_some]
  exact readWords_words words behind

theorem readPointer_uint (here : HasAt frame place (uint offset)) (behind : headSize ≤ offset)
    (inside : offset < frame.length) (small : frame.length < 2 ^ 256) :
    readPointer frame headSize place = some offset := by
  rw [readPointer, readWord_uint here (by omega), Option.bind_eq_bind, Option.bind_some,
    if_pos ⟨behind, inside⟩]
  rfl

theorem inside_of_tail {size : List UInt8} {n : Nat} (here : HasAt frame place (uint n ++ size)) :
    place < frame.length ∧ 32 + size.length ≤ frame.length := by
  have given : uint n ++ size ≠ [] := by
    intro empty
    have sizes := congrArg List.length empty
    rw [List.length_append, uint_length, List.length_nil] at sizes
    omega
  have bound := hasAt_length here given
  rw [List.length_append, uint_length] at bound
  omega

/-- One argument is read back from its head and its tail. -/
theorem readArg_arg (arg : Arg) (head : HasAt frame place (arg.head offset))
    (tail : HasAt frame offset arg.tail) (behind : headSize ≤ offset)
    (small : frame.length < 2 ^ 256) : readArg frame headSize place arg.kind = some arg := by
  cases arg with
  | static words =>
    rw [Arg.kind, readArg, readWords_words words head]
    rfl
  | bytes data =>
    obtain ⟨inside, size⟩ := inside_of_tail tail
    rw [padRight_length] at size
    rw [Arg.kind, readArg, readPointer_uint head behind inside small, Option.bind_eq_bind,
      Option.bind_some, readBytes_tail tail (by omega)]
    rfl
  | array words =>
    obtain ⟨inside, size⟩ := inside_of_tail tail
    rw [words_length] at size
    rw [Arg.kind, readArg, readPointer_uint head behind inside small, Option.bind_eq_bind,
      Option.bind_some, readArray_tail words tail (by omega)]
    rfl

theorem readArgs_heads (args : List Arg) (here : HasAt frame place (heads offset args))
    (tails : HasAt frame offset (args.flatMap Arg.tail)) (behind : headSize ≤ offset)
    (small : frame.length < 2 ^ 256) :
    readArgs frame headSize (args.map Arg.kind) place = some args := by
  induction args generalizing place offset with
  | nil => rfl
  | cons arg args ih =>
    rw [List.flatMap_cons] at tails
    have first := readArg_arg arg (hasAt_left here) (hasAt_left tails) behind small
    have next := hasAt_right here
    rw [Arg.head_length, ← kind_headSize] at next
    have later := ih next (hasAt_right tails) (by omega)
    rw [List.map_cons, readArgs, first]
    simp only [Option.bind_eq_bind, Option.bind_some, later]
    rfl

/-- Decoding at the types of the arguments undoes the encoding of any argument list. -/
theorem decodeArgs_abiEncode (args : List Arg) (small : (abiEncode args).length < 2 ^ 256) :
    decodeArgs (args.map Arg.kind) (abiEncode args) = some args := by
  have heads_at := hasAt_here (heads (args.map Arg.headSize).sum args) (args.flatMap Arg.tail)
  have tails_at := hasAt_skip (heads_length (args.map Arg.headSize).sum args)
    (hasAt_here (args.flatMap Arg.tail) [])
  rw [Nat.add_zero, List.append_nil] at tails_at
  rw [decodeArgs, kinds_headSize]
  exact readArgs_heads args heads_at tails_at (Nat.le_refl _) small

end Arguments

end Abi
