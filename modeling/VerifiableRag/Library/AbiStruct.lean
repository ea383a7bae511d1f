import VerifiableRag.Library.AbiDecoding

/-!
The arguments of a call whose first parameter is a struct with a dynamic field: the struct
stands behind a pointer, in a frame of its own.
-/
namespace Abi
open Bytes

/-- The size of the heads behind which a struct of a call may stand. -/
def callHead (kinds : List Kind) : Nat := 32 + (kinds.map Kind.headSize).sum

def encodeStructCall (fields args : List Arg) : List UInt8 :=
  uint (callHead (args.map Arg.kind)) ++
    (heads (callHead (args.map Arg.kind) + (abiEncode fields).length) args ++
      (abiEncode fields ++ args.flatMap Arg.tail))

def decodeStructCall (fieldKinds kinds : List Kind) (data : List UInt8) :
    Option (List Arg × List Arg) := do
  let pointer ← readPointer data (callHead kinds) 0
  let fields ← decodeArgs fieldKinds (data.drop pointer)
  let args ← readArgs data (callHead kinds) kinds 32
  return (fields, args)

section RoundTrip
variable {fields args : List Arg}

theorem heads_args_length (offset : Nat) (args : List Arg) :
    32 + (heads offset args).length = callHead (args.map Arg.kind) := by
  rw [heads_length, callHead, kinds_headSize]

/-- A struct is read from its own frame, whatever stands behind it. -/
theorem decodeArgs_prefix (fields : List Arg) (rest : List UInt8)
    (small : (abiEncode fields ++ rest).length < 2 ^ 256) :
    decodeArgs (fields.map Arg.kind) (abiEncode fields ++ rest) = some fields := by
  have heads_at := hasAt_here (heads (fields.map Arg.headSize).sum fields)
    (fields.flatMap Arg.tail ++ rest)
  have tails_at := hasAt_skip (heads_length (fields.map Arg.headSize).sum fields)
    (hasAt_here (fields.flatMap Arg.tail) rest)
  rw [Nat.add_zero] at tails_at
  rw [abiEncode, List.append_assoc] at small ⊢
  rw [decodeArgs, kinds_headSize]
  exact readArgs_heads fields heads_at tails_at (Nat.le_refl _) small

/-- Decoding at the types of a call undoes its encoding. -/
theorem decodeStructCall_encode (given : 0 < (abiEncode fields).length)
    (small : (encodeStructCall fields args).length < 2 ^ 256) :
    decodeStructCall (fields.map Arg.kind) (args.map Arg.kind) (encodeStructCall fields args) =
      some (fields, args) := by
  have size := heads_args_length (callHead (args.map Arg.kind) + (abiEncode fields).length) args
  have whole : (encodeStructCall fields args).length = callHead (args.map Arg.kind) +
      ((abiEncode fields).length + (args.flatMap Arg.tail).length) := by
    simp only [encodeStructCall, List.length_append, uint_length]
    omega
  -- the pointer of the struct, the heads of the other arguments, the struct and the tails
  have pointer_at : HasAt (encodeStructCall fields args) 0 (uint (callHead (args.map Arg.kind))) :=
    hasAt_here _ _
  have heads_at : HasAt (encodeStructCall fields args) 32
      (heads (callHead (args.map Arg.kind) + (abiEncode fields).length) args) :=
    hasAt_skip (uint_length _) (hasAt_here _ _)
  have front : (uint (callHead (args.map Arg.kind)) ++
      heads (callHead (args.map Arg.kind) + (abiEncode fields).length) args).length =
        callHead (args.map Arg.kind) := by
    rw [List.length_append, uint_length, size]
  have frame : (encodeStructCall fields args).drop (callHead (args.map Arg.kind)) =
      abiEncode fields ++ args.flatMap Arg.tail := by
    rw [encodeStructCall, ← List.append_assoc]
    exact List.drop_left' front
  have tails_at : HasAt (encodeStructCall fields args)
      (callHead (args.map Arg.kind) + (abiEncode fields).length) (args.flatMap Arg.tail) := by
    refine ⟨[], ?_⟩
    rw [← List.drop_drop, frame, List.drop_left, List.append_nil]
  have pointer := readPointer_uint pointer_at (Nat.le_refl _) (by omega) small
  have struct := decodeArgs_prefix fields (args.flatMap Arg.tail)
    (by rw [← frame, List.length_drop]; omega)
  have others := readArgs_heads args heads_at tails_at (Nat.le_add_right _ _) small
  rw [decodeStructCall, pointer, Option.bind_eq_bind, Option.bind_some, frame, struct,
    Option.bind_eq_bind, Option.bind_some, others]
  rfl

end RoundTrip

end Abi
