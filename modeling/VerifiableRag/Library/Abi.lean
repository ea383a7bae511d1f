import VerifiableRag.Library.Bytes

/-!
The standard ABI encoding of an argument list (`abi.encode`): static words in
place, dynamic arguments behind offset words.
-/
namespace Abi
open Bytes

inductive Arg where
  /-- Words encoded in place: a value type, or a fixed array of them. -/
  | static (words : List Word)
  /-- `bytes` -/
  | bytes (data : List UInt8)
  /-- A dynamic array of value types. -/
  | array (words : List Word)

def uint (n : Nat) : List UInt8 := encode 32 n

def padRight (data : List UInt8) : List UInt8 :=
  data ++ List.replicate ((32 - data.length % 32) % 32) 0

namespace Arg

def headSize : Arg → Nat
  | static words => 32 * words.length
  | bytes _ => 32
  | array _ => 32

def tail : Arg → List UInt8
  | static _ => []
  | bytes data => uint data.length ++ padRight data
  | array words => uint words.length ++ words.flatMap Word.bytes

@[simp] theorem static_tail (words : List Word) : (static words).tail = [] := rfl

def head (offset : Nat) : Arg → List UInt8
  | static words => words.flatMap Word.bytes
  | bytes _ => uint offset
  | array _ => uint offset

theorem head_length (offset : Nat) (arg : Arg) : (arg.head offset).length = arg.headSize := by
  cases arg with
  | static words => simp [head, headSize, List.length_flatMap, Nat.mul_comm]
  | bytes data => simp [head, headSize, uint]
  | array words => simp [head, headSize, uint]

end Arg

def heads : Nat → List Arg → List UInt8
  | _, [] => []
  | offset, arg :: rest => arg.head offset ++ heads (offset + arg.tail.length) rest

def abiEncode (args : List Arg) : List UInt8 :=
  heads (args.map Arg.headSize).sum args ++ args.flatMap Arg.tail

theorem heads_length (offset : Nat) (args : List Arg) :
    (heads offset args).length = (args.map Arg.headSize).sum := by
  induction args generalizing offset with
  | nil => rfl
  | cons arg rest ih => simp [heads, Arg.head_length, ih]

theorem abiEncode_length (args : List Arg) :
    (abiEncode args).length =
      (args.map Arg.headSize).sum + (args.flatMap Arg.tail).length := by
  rw [abiEncode, List.length_append, heads_length]

theorem uint_length (n : Nat) : (uint n).length = 32 := encode_length 32 n

theorem uint_inj {m n : Nat} (same : uint m = uint n) : m % 2 ^ 256 = n % 2 ^ 256 := by
  have numbers := congrArg decode same
  rw [uint, uint, decode_encode, decode_encode] at numbers
  exact numbers

theorem padRight_length (data : List UInt8) :
    (padRight data).length = data.length + (32 - data.length % 32) % 32 := by
  rw [padRight, List.length_append, List.length_replicate]

theorem bytes_tail_injective {xs ys : List UInt8}
    (same : (Arg.bytes xs).tail = (Arg.bytes ys).tail) : xs = ys := by
  obtain ⟨lengths, padded⟩ := List.append_inj same (by rw [uint_length, uint_length])
  have sizes := congrArg List.length padded
  rw [padRight_length, padRight_length] at sizes
  have numbers := uint_inj lengths
  have size : xs.length = ys.length := by omega
  exact (List.append_inj padded size).1

end Abi
