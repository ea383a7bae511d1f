import VerifiableRag.Library.Cbor
import VerifiableRag.Library.Streaming

/-!
The reader of CBOR items takes one item off a stream.
-/
namespace Cbor
open Streaming

theorem readString_fronted (n : Nat) : Fronted (readString n) := fronted_take n

theorem readNumber_fronted (k : Nat) : Fronted (readNumber k) := by
  have read := (readString_fronted k).bind fun digits => fronted_some (Bytes.decode digits)
  intro s x rest taken
  rw [readNumber, Option.map_eq_bind] at taken
  obtain ⟨front, whole, again⟩ := read s x rest taken
  refine ⟨front, whole, ?_⟩
  intro other
  rw [readNumber, Option.map_eq_bind]
  exact again other

theorem readArgument_fronted (short : Nat) : Fronted (readArgument short) := by
  unfold readArgument
  split_ifs
  · exact fronted_some short
  · exact readNumber_fronted 1
  · exact readNumber_fronted 2
  · exact readNumber_fronted 4
  · exact readNumber_fronted 8
  · exact fronted_none

theorem readMany_fronted {α : Type} {read : List UInt8 → Option (α × List UInt8)}
    (each : Fronted read) (n : Nat) : Fronted (readMany read n) := by
  induction n with
  | zero => exact fronted_some []
  | succ n ih => exact each.bind fun item => ih.bind fun items => fronted_some (item :: items)

theorem readPair_fronted {α : Type} {read : List UInt8 → Option (α × List UInt8)}
    (each : Fronted read) : Fronted (readPair read) :=
  each.bind fun first => each.bind fun second => fronted_some (first, second)

theorem readSimple_fronted (short : Nat) : Fronted (readSimple short) := by
  unfold readSimple
  split
  · exact fronted_some _
  · exact fronted_some _
  · exact fronted_some _
  · exact (readNumber_fronted 8).bind fun bits => fronted_some (Value.float (BitVec.ofNat 64 bits))
  · exact fronted_none

theorem readBody_fronted {inner : List UInt8 → Option (Value × List UInt8)}
    (parts : Fronted inner) (major n : Nat) : Fronted (readBody inner major n) := by
  unfold readBody
  split
  · exact fronted_some _
  · exact fronted_some _
  · exact (readString_fronted n).bind fun data => fronted_some (Value.bytes data)
  · have text (data : List UInt8) : Fronted fun s : List UInt8 =>
        (ofUtf8 data).bind fun text => some (Value.text text, s) := by
      cases ofUtf8 data with
      | none => exact fronted_none
      | some text => exact fronted_some (Value.text text)
    exact (readString_fronted n).bind text
  · exact (readMany_fronted parts n).bind fun items => fronted_some (Value.array items)
  · exact (readMany_fronted (readPair_fronted parts) n).bind fun entries =>
      fronted_some (Value.map entries)
  · exact parts.bind fun item => fronted_some (Value.tag n item)
  · exact fronted_none

theorem readWith_fronted {inner : List UInt8 → Option (Value × List UInt8)}
    (parts : Fronted inner) : Fronted (readWith inner) := by
  apply Fronted.head (by rfl) (fun _ _ => rfl)
  intro b
  by_cases simple : b.toNat / 32 = 7
  · simp only [readWith, if_pos simple]
    exact readSimple_fronted _
  · simp only [readWith, if_neg simple]
    exact (readArgument_fronted _).bind fun n => readBody_fronted parts _ n

theorem readItem_fronted (depth : Nat) : Fronted (readItem depth) := by
  induction depth with
  | zero => exact readWith_fronted fronted_none
  | succ depth ih => exact readWith_fronted ih

end Cbor
