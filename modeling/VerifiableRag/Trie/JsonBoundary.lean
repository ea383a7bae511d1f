import VerifiableRag.Trie.Contents
import VerifiableRag.Library.SerdeJson

/-!
The trie as a JSON artifact: the derived `Serialize` and `Deserialize`, and which tries
the parser's recursion limit lets back in.
-/
namespace RagEngine
open OrderedAssoc SerdeJson

/-- A `TrieNode` as its type has it, with its children in order. -/
abbrev OrderedNode (V : Type) := { node : TrieNode V // node.Ordered }

/-- A `BTreeMap<char, TrieNode<V>>`. -/
structure Children (V : Type) where
  row : List (Char × TrieNode V)
  ordered : OrderedAssoc.Ordered row
  below : ∀ entry ∈ row, entry.2.Ordered

namespace Children
variable {V : Type}

def empty : Children V := ⟨[], .nil, nofun⟩

def put (ch : Char) (node : OrderedNode V) (children : Children V) : Children V where
  row := OrderedAssoc.put ch node.1 children.row
  ordered := ordered_put ch node.1 children.ordered
  below entry member := by
    rcases mem_put member with same | inside
    · rw [same]
      exact node.2
    · exact children.below entry inside

def node (children : Children V) (value : Option V) : OrderedNode V :=
  ⟨⟨children.row, value⟩, .intro children.ordered children.below⟩

end Children

namespace TrieNode
variable {V : Type} (serde : Serde V)

mutual

def toJson : TrieNode V → Value
  | ⟨children, value⟩ =>
    .object [("children", .object (childrenJson children)),
      ("value", (value.map serde.serialize).getD .null)]

def childrenJson : List (Char × TrieNode V) → List (String × Value)
  | [] => []
  | (ch, node) :: rest => (String.singleton ch, node.toJson) :: childrenJson rest

end

/-- The key of a map whose keys are characters. -/
def charKey (name : String) : Option Char :=
  match name.toList with
  | [ch] => some ch
  | _ => none

/-- `Option<V>`: null is `None` whatever `V` is. -/
def optionFromJson : Value → Option (Option V)
  | .null => some none
  | json => (serde.deserialize json).map some

mutual

/-- A struct is read from a map, or from its fields in their order. -/
def fromJson : Value → Option (OrderedNode V)
  | .object members => visitNode members none none
  | .array [children, value] =>
    (childrenFromJson children).bind fun children =>
      (optionFromJson serde value).map fun value => children.node value
  | _ => none

/-- The fields of a node in the order of the text; a missing `value` is `None`. -/
def visitNode : List (String × Value) → Option (Children V) → Option (Option V) →
    Option (OrderedNode V)
  | [], children, value => children.map fun children => children.node (value.getD none)
  | (name, json) :: rest, children, value =>
    if name = "children" then
      if children.isSome then none
      else (childrenFromJson json).bind fun children => visitNode rest (some children) value
    else if name = "value" then
      if value.isSome then none
      else (optionFromJson serde json).bind fun value => visitNode rest children (some value)
    else visitNode rest children value

def childrenFromJson : Value → Option (Children V)
  | .object members => visitChildren members .empty
  | _ => none

def visitChildren : List (String × Value) → Children V → Option (Children V)
  | [], children => some children
  | (name, json) :: rest, children =>
    (charKey name).bind fun ch =>
      (fromJson json).bind fun node => visitChildren rest (children.put ch node)

end

section ReadBack
variable {V : Type} (serde : Serde V)

/-- What is left of a value: `Option` reads null as `None`. -/
def kept (v : V) : Option V :=
  match serde.serialize v with
  | .null => none
  | _ => some v

theorem optionFromJson_value {serde : Serde V} (lossless : serde.Lossless) (value : Option V) :
    optionFromJson serde ((value.map serde.serialize).getD .null) =
      some (value.bind (kept serde)) := by
  cases value with
  | none => rfl
  | some v =>
    have back := lossless v
    rw [Option.map_some, Option.getD_some, Option.bind_some, kept]
    cases written : serde.serialize v with
    | null => rfl
    | bool | number | string | array | object =>
      rw [written] at back
      rw [optionFromJson, back]
      · rfl
      · exact nofun

mutual

/-- The node that is read for a node. -/
def readBack : TrieNode V → TrieNode V
  | ⟨children, value⟩ => ⟨readBackRow children, value.bind (kept serde)⟩

def readBackRow : List (Char × TrieNode V) → List (Char × TrieNode V)
  | [] => []
  | (ch, node) :: rest => (ch, node.readBack) :: readBackRow rest

end

theorem charKey_singleton (ch : Char) : charKey (String.singleton ch) = some ch := by
  rw [charKey, String.toList_singleton]

/-- The children of a node come back in their order, behind those already read. -/
theorem visitChildren_json {children : List (Char × TrieNode V)} {read : Children V}
    (each : ∀ child ∈ children, ∃ back, fromJson serde (child.2.toJson serde) = some back ∧
      back.1 = child.2.readBack serde)
    (row : OrderedAssoc.Ordered children)
    (behind : ∀ entry ∈ read.row, ∀ child ∈ children, entry.1 < child.1) :
    ∃ all, visitChildren serde (childrenJson serde children) read = some all ∧
      all.row = read.row ++ readBackRow serde children := by
  induction children generalizing read with
  | nil =>
    rw [readBackRow, List.append_nil, childrenJson]
    exact ⟨read, rfl, rfl⟩
  | cons child rest ih =>
    obtain ⟨least, tail⟩ := List.pairwise_cons.mp row
    obtain ⟨⟨back, reads, same⟩, each⟩ := List.forall_mem_cons.mp each
    have before : ∀ entry ∈ read.row, entry.1 < child.1 :=
      fun entry member => behind entry member child List.mem_cons_self
    have appended : (read.put child.1 back).row = read.row ++ [(child.1, child.2.readBack serde)] := by
      rw [← same]
      exact put_last child.1 back.1 before
    obtain ⟨all, visited, order⟩ := @ih (read.put child.1 back) each tail (by
      intro entry member later inside
      rw [appended] at member
      rcases List.mem_append.mp member with old | new
      · exact behind entry old later (List.mem_cons_of_mem child inside)
      · rw [List.mem_singleton.mp new]
        exact least later inside)
    refine ⟨all, ?_, ?_⟩
    · rw [childrenJson, visitChildren, charKey_singleton, Option.bind_some, reads, Option.bind_some,
        visited]
    · rw [order, appended, readBackRow, List.append_assoc, List.singleton_append]

theorem visitNode_written (children value : Value) :
    visitNode serde [("children", children), ("value", value)] none none =
      (childrenFromJson serde children).bind fun children =>
        (optionFromJson serde value).bind fun value => some (children.node value) := by
  simp [visitNode]

theorem fromJson_toJson {serde : Serde V} (lossless : serde.Lossless) {node : TrieNode V}
    (ordered : node.Ordered) : ∃ back, fromJson serde (node.toJson serde) = some back ∧
      back.1 = node.readBack serde := by
  induction ordered with
  | @intro children value row below ih =>
    have nothing_before : ∀ entry ∈ (Children.empty : Children V).row, ∀ child ∈ children,
        entry.1 < child.1 := by
      intro entry member
      cases member
    obtain ⟨all, visited, order⟩ :=
      visitChildren_json serde (fun child member => ih child member) row nothing_before
    refine ⟨all.node (value.bind (kept serde)), ?_, ?_⟩
    · rw [toJson, fromJson, visitNode_written, childrenFromJson, visited, Option.bind_some,
        optionFromJson_value lossless, Option.bind_some]
    · change TrieNode.mk all.row _ = _
      rw [readBack, order]
      rfl

theorem readBackRow_eq_self {children : List (Char × TrieNode V)} :
    readBackRow serde children = children ↔
      ∀ child ∈ children, child.2.readBack serde = child.2 := by
  induction children with
  | nil => simp [readBackRow]
  | cons child rest ih =>
    rw [readBackRow, List.cons.injEq, ih, List.forall_mem_cons]
    exact and_congr_left fun _ => ⟨congrArg Prod.snd, fun same => by rw [same]⟩

theorem bind_kept {value : Option V} :
    value.bind (kept serde) = value ↔ ∀ v, value = some v → serde.serialize v ≠ .null := by
  cases value with
  | none => exact ⟨fun _ => nofun, fun _ => rfl⟩
  | some v =>
    rw [Option.bind_some, kept]
    cases written : serde.serialize v with
    | null => simp [written]
    | bool | number | string | array | object => simp [written]

/-- A node comes back as it was unless a value under it is written as null. -/
theorem readBack_eq_self {node : TrieNode V} (ordered : node.Ordered) :
    node.readBack serde = node ↔
      ∀ key v, node.lookup key = some v → serde.serialize v ≠ .null := by
  induction ordered with
  | @intro children value row below ih =>
    rw [readBack, TrieNode.mk.injEq, readBackRow_eq_self, bind_kept]
    constructor
    · intro same key v found
      cases key with
      | nil => exact same.2 v found
      | cons ch key =>
        rw [lookup_cons, Option.bind_eq_some_iff] at found
        obtain ⟨child, listed, found⟩ := found
        have member := (mem_iff_lookup row).mpr listed
        exact (ih _ member).mp (same.1 _ member) key v found
    · intro written
      refine ⟨?_, written []⟩
      intro child member
      rw [ih child member]
      intro key v found
      refine written (child.1 :: key) v ?_
      rw [lookup_cons, (mem_iff_lookup row).mp member]
      exact found

end ReadBack

section Nesting
variable {V : Type} (serde : Serde V)

/-- Two objects for each character of a key, and what its own node and its value add. -/
def depthOf (key : List Char) (v : V) : Nat := 2 * key.length + 1 + max 1 (serde.serialize v).nesting

theorem childrenJson_eq (children : List (Char × TrieNode V)) : childrenJson serde children =
    children.map fun child => (String.singleton child.1, child.2.toJson serde) := by
  induction children with
  | nil => rw [childrenJson, List.map_nil]
  | cons child rest ih => rw [childrenJson, ih, List.map_cons]

theorem toJson_nesting_step {children : List (Char × TrieNode V)} {value : Option V} {limit : Nat} :
    (toJson serde ⟨children, value⟩).nesting ≤ limit ↔
      2 ≤ limit ∧ (∀ child ∈ children, (child.2.toJson serde).nesting + 2 ≤ limit) ∧
        ∀ v, value = some v → (serde.serialize v).nesting + 1 ≤ limit := by
  have inside : (∀ child ∈ childrenJson serde children, child.2.nesting + 1 ≤ limit - 1) ↔
      ∀ child ∈ children, (child.2.toJson serde).nesting + 1 ≤ limit - 1 := by
    rw [childrenJson_eq, List.forall_mem_map]
  have own : ((value.map serde.serialize).getD .null).nesting + 1 ≤ limit ↔
      1 ≤ limit ∧ ∀ v, value = some v → (serde.serialize v).nesting + 1 ≤ limit := by
    cases value with
    | none => simp [Value.nesting]
    | some v =>
      simp only [Option.map_some, Option.getD_some, Option.some.injEq, forall_eq']
      omega
  rw [toJson, Value.nesting_object_le, List.forall_mem_cons, List.forall_mem_singleton, own]
  constructor
  · intro h
    obtain ⟨one, row, _, value_fits⟩ := h
    obtain ⟨two, row⟩ := Value.nesting_object_le.mp (Nat.le_sub_one_of_lt row)
    refine ⟨by omega, ?_, value_fits⟩
    intro child member
    have fits := inside.mp row child member
    omega
  · intro h
    obtain ⟨two, row, value_fits⟩ := h
    refine ⟨by omega, ?_, by omega, value_fits⟩
    refine Nat.add_le_of_le_sub (by omega) (Value.nesting_object_le.mpr ⟨by omega, inside.mpr ?_⟩)
    intro child member
    have fits := row child member
    omega

/-- How deeply a node nests is decided by the keys that lead through it and their values. -/
theorem toJson_nesting_le {node : TrieNode V} (ordered : node.Ordered) (live : node.Live)
    {limit : Nat} : (node.toJson serde).nesting ≤ limit ↔
      2 ≤ limit ∧ ∀ key v, node.lookup key = some v → depthOf serde key v ≤ limit := by
  induction ordered generalizing limit with
  | @intro children value row below ih =>
    cases live with
    | intro filled live =>
    rw [toJson_nesting_step]
    refine and_congr_right fun two => ?_
    constructor
    · intro h key v found
      obtain ⟨nested, own⟩ := h
      cases key with
      | nil =>
        have fits := own v found
        rw [depthOf, List.length_nil]
        omega
      | cons ch key =>
        rw [lookup_cons, Option.bind_eq_some_iff] at found
        obtain ⟨child, listed, found⟩ := found
        have member := (mem_iff_lookup row).mpr listed
        have fits := ((ih _ member (live _ member)).mp (Nat.le_sub_of_add_le (nested _ member))).2 key v
          found
        rw [depthOf] at fits ⊢
        rw [List.length_cons]
        omega
    · intro fits
      constructor
      · intro child member
        have extended : ∀ key v, child.2.lookup key = some v → depthOf serde key v + 2 ≤ limit := by
          intro key v found
          have fit := fits (child.1 :: key) v (by
            rw [lookup_cons, (mem_iff_lookup row).mp member]
            exact found)
          rw [depthOf, List.length_cons] at fit
          rw [depthOf]
          omega
        obtain ⟨key, v, found⟩ := filled child member
        have room := extended key v found
        rw [depthOf] at room
        refine Nat.add_le_of_le_sub two ((ih child member (live child member)).mpr ⟨by omega, ?_⟩)
        intro key v found
        exact Nat.le_sub_of_add_le (extended key v found)
      · intro v same
        have fit := fits [] v same
        rw [depthOf, List.length_nil] at fit
        omega

end Nesting

end TrieNode

namespace SymbolicTrie
variable {V : Type} (serde : Serde V)

def toJson (trie : SymbolicTrie V) : Value :=
  .object [("root", trie.root.toJson serde), ("len", natural.serialize trie.len)]

def visitTrie : List (String × Value) → Option (OrderedNode V) → Option Nat →
    Option (SymbolicTrie V)
  | [], root, len => root.bind fun root => len.map fun len => ⟨root.1, len, root.2⟩
  | (name, json) :: rest, root, len =>
    if name = "root" then
      if root.isSome then none
      else (TrieNode.fromJson serde json).bind fun root => visitTrie rest (some root) len
    else if name = "len" then
      if len.isSome then none
      else (natural.deserialize json).bind fun len => visitTrie rest root (some len)
    else visitTrie rest root len

def fromJson : Value → Option (SymbolicTrie V)
  | .object members => visitTrie serde members none none
  | .array [root, len] =>
    (TrieNode.fromJson serde root).bind fun root =>
      (natural.deserialize len).map fun len => ⟨root.1, len, root.2⟩
  | _ => none

variable {Text : Type} (json : Codec Text)

/-- `serde_json::to_string` of a trie. -/
def toText (trie : SymbolicTrie V) : Text := json.toString (trie.toJson serde)

/-- `serde_json::from_str` to a trie. -/
def fromText (text : Text) : Option (SymbolicTrie V) := (json.fromStr text).bind (fromJson serde)

section RoundTrip
variable {json} {serde}

theorem toJson_nesting_le {trie : SymbolicTrie V} {limit : Nat} :
    (trie.toJson serde).nesting ≤ limit ↔ (trie.root.toJson serde).nesting + 1 ≤ limit := by
  rw [toJson, Value.nesting_object_le, List.forall_mem_cons, List.forall_mem_singleton]
  simp only [natural, Value.nesting]
  omega

theorem fromJson_toJson (lossless : serde.Lossless) (trie : SymbolicTrie V) :
    fromJson serde (trie.toJson serde) = some trie ↔ trie.root.readBack serde = trie.root := by
  obtain ⟨back, reads, same⟩ := TrieNode.fromJson_toJson lossless trie.ordered
  have read : fromJson serde (trie.toJson serde) = some ⟨back.1, trie.len, back.2⟩ := by
    simp [fromJson, toJson, visitTrie, reads, natural_lossless trie.len]
  rw [read, Option.some.injEq, ← same]
  constructor
  · intro equal
    rw [← equal]
  · intro equal
    cases trie
    cases equal
    rfl

/-- A text comes back as its trie when the parser follows its nesting and no value is null. -/
theorem fromText_toText (lawful : json.Lawful) (lossless : serde.Lossless) {trie : SymbolicTrie V}
    (live : trie.root.Live) :
    fromText serde json (trie.toText serde json) = some trie ↔
      ∀ key v, trie.root.lookup key = some v →
        TrieNode.depthOf serde key v + 1 ≤ RECURSION_LIMIT ∧ serde.serialize v ≠ .null := by
  have fits : (trie.toJson serde).nesting ≤ RECURSION_LIMIT ↔
      ∀ key v, trie.root.lookup key = some v → TrieNode.depthOf serde key v + 1 ≤ RECURSION_LIMIT := by
    rw [toJson_nesting_le]
    constructor
    · intro room key v found
      exact Nat.add_le_of_le_sub (by decide)
        (((TrieNode.toJson_nesting_le serde trie.ordered live).mp (Nat.le_sub_of_add_le room)).2 key v
          found)
    · intro room
      refine Nat.add_le_of_le_sub (by decide)
        ((TrieNode.toJson_nesting_le serde trie.ordered live).mpr ⟨by decide, ?_⟩)
      intro key v found
      exact Nat.le_sub_of_add_le (room key v found)
  rw [fromText, toText, lawful.reads]
  split
  · rename_i room
    rw [Option.bind_some, fromJson_toJson lossless, TrieNode.readBack_eq_self serde trie.ordered]
    exact forall_congr' fun key => forall_congr' fun v => forall_congr' fun found =>
      (and_iff_right (fits.mp room key v found)).symm
  · rename_i deep
    rw [Option.bind_none]
    constructor
    · exact nofun
    · intro h
      exact absurd (fits.mpr fun key v found => (h key v found).1) deep

/-- Every sequence of inserts leads to a trie that is read back unchanged just when the keys it
    keeps are short enough for the depth of their values and no value is written as null. -/
theorem json_round_trip_iff (lawful : json.Lawful) (lossless : serde.Lossless)
    (inserts : List (String × V)) :
    fromText serde json ((new.insertAll inserts).toText serde json) = some (new.insertAll inserts) ↔
      ∀ key v, (admitted inserts).lookup key = some v →
        2 * key.length + 2 + max 1 (serde.serialize v).nesting ≤ RECURSION_LIMIT ∧
          serde.serialize v ≠ .null := by
  have held := represents_insertAll inserts
  rw [fromText_toText lawful lossless (insertAll_live inserts)]
  constructor
  · intro h key v found
    rw [← held.lookup] at found
    have fits := h key.toList v found
    rw [TrieNode.depthOf, String.length_toList] at fits
    exact ⟨by omega, fits.2⟩
  · intro h key v found
    rw [← held.lookup_list] at found
    have fits := h (String.ofList key) v found
    rw [← String.length_toList, String.toList_ofList] at fits
    rw [TrieNode.depthOf]
    exact ⟨by omega, fits.2⟩

theorem json_round_trip_iff_ftso :
    fromText natural plain ((new.insertAll [("ftso", 1), ("fdc", 2)]).toText natural plain) =
        some (new.insertAll [("ftso", 1), ("fdc", 2)]) ↔
      ∀ key v, (admitted [("ftso", 1), ("fdc", 2)]).lookup key = some v →
        2 * key.length + 2 + max 1 (natural.serialize v).nesting ≤ RECURSION_LIMIT ∧
          natural.serialize v ≠ .null :=
  json_round_trip_iff plain_lawful natural_lossless [("ftso", 1), ("fdc", 2)]

/-- The shortest key whose trie is too deep. -/
def deepKey : String := String.ofList (List.replicate 63 'a')

theorem deep_key_never_read :
    ((new : SymbolicTrie Nat).insert deepKey 1).1 = .ok none ∧
      fromText natural plain ((new.insertAll [(deepKey, 1)]).toText natural plain) ≠
        some (new.insertAll [(deepKey, 1)]) := by
  have short : ¬ MAX_KEY_LEN < deepKey.utf8ByteSize := by decide +kernel
  have stored : (new.insertAll [(deepKey, 1)]).root.lookup deepKey.toList = some 1 := by
    rw [insertAll, List.foldl_cons, List.foldl_nil, insert, if_neg short, TrieNode.lookup_insert,
      if_pos rfl]
  refine ⟨?_, mt (fromText_toText plain_lawful natural_lossless (insertAll_live _)).mp ?_⟩
  · rw [insert_short short]
    exact congrArg Except.ok (TrieNode.lookup_new deepKey.toList)
  · intro fits
    have fit := (fits deepKey.toList 1 stored).1
    have characters : deepKey.toList.length = 63 := by
      unfold deepKey
      rw [String.toList_ofList, List.length_replicate]
    rw [TrieNode.depthOf, characters, RECURSION_LIMIT] at fit
    omega

end RoundTrip

end SymbolicTrie

end RagEngine
