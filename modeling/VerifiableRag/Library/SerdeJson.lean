import Mathlib.Data.Rat.Floor

/-!
The JSON value of `serde_json` and its accessors, its numbers exact; values as texts, and
how deeply they nest.
-/
namespace SerdeJson

inductive Value where
  | null
  | bool (b : Bool)
  | number (n : ℚ)
  | string (s : String)
  | array (items : List Value)
  /-- A map: names are distinct. -/
  | object (members : List (String × Value))

namespace Value

def get : Value → String → Option Value
  | object members, name => members.lookup name
  | _, _ => none

def asStr : Value → Option String
  | string s => some s
  | _ => none

def asF64 : Value → Option ℚ
  | number n => some n
  | _ => none

def asArray : Value → Option (List Value)
  | array items => some items
  | _ => none

def asObject : Value → Option (List (String × Value))
  | object members => some members
  | _ => none

mutual

/-- How many arrays and objects lie inside one another. -/
def nesting : Value → Nat
  | array items => nestingItems items + 1
  | object members => nestingMembers members + 1
  | _ => 0

def nestingItems : List Value → Nat
  | [] => 0
  | item :: items => max item.nesting (nestingItems items)

def nestingMembers : List (String × Value) → Nat
  | [] => 0
  | (_, value) :: members => max value.nesting (nestingMembers members)

end

theorem nesting_object_le {members : List (String × Value)} {limit : Nat} :
    (object members).nesting ≤ limit ↔
      1 ≤ limit ∧ ∀ member ∈ members, member.2.nesting + 1 ≤ limit := by
  rw [nesting]
  induction members with
  | nil => simp [nestingMembers]
  | cons member members ih =>
    rw [nestingMembers, ← Nat.add_max_add_right, Nat.max_le, ih, List.forall_mem_cons]
    constructor
    · intro h
      exact ⟨h.2.1, h.1, h.2.2⟩
    · intro h
      exact ⟨h.2.1, h.1, h.2.2⟩

end Value

/-- The deepest nesting that the parser follows. -/
def RECURSION_LIMIT : Nat := 128

/-- `to_string` and `from_str`, between values and their texts. -/
structure Codec (Text : Type) where
  toString : Value → Text
  fromStr : Text → Option Value

/-- The writer writes every value and the parser inverts it up to its limit. -/
structure Codec.Lawful {Text : Type} (json : Codec Text) : Prop where
  reads (value : Value) :
    json.fromStr (json.toString value) = if value.nesting ≤ RECURSION_LIMIT then some value else none

/-- A value as its own text. -/
def plain : Codec Value where
  toString value := value
  fromStr value := if value.nesting ≤ RECURSION_LIMIT then some value else none

theorem plain_lawful : plain.Lawful where
  reads _ := rfl

/-- `Serialize` and `Deserialize` of a type. -/
structure Serde (V : Type) where
  serialize : V → Value
  deserialize : Value → Option V

def Serde.Lossless {V : Type} (serde : Serde V) : Prop :=
  ∀ v, serde.deserialize (serde.serialize v) = some v

/-- `usize` -/
def natural : Serde Nat where
  serialize n := .number n
  deserialize
    | .number q => if q.den = 1 ∧ 0 ≤ q.num then some q.num.toNat else none
    | _ => none

theorem natural_lossless : natural.Lossless := by
  intro n
  simp [natural]

end SerdeJson
