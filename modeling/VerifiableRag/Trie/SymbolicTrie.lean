import VerifiableRag.Library.OrderedAssoc
import Mathlib

/-!
The prefix tree of the symbolic engine (`trie.rs`).
-/
namespace RagEngine
open OrderedAssoc

def MAX_KEY_LEN : Nat := 512

inductive TrieError where
  | keyTooLong (len max : Nat)
  deriving DecidableEq

/-- `children` is a `BTreeMap<char, _>`. -/
structure TrieNode (V : Type) where
  children : List (Char × TrieNode V)
  value : Option V

namespace TrieNode
variable {V : Type}

def new : TrieNode V := ⟨[], none⟩

/-- Every node lists its children in the order of their characters. -/
inductive Ordered : TrieNode V → Prop where
  | intro {children : List (Char × TrieNode V)} {value : Option V}
      (row : OrderedAssoc.Ordered children) (below : ∀ entry ∈ children, Ordered entry.2) :
      Ordered ⟨children, value⟩

theorem new_ordered : (new : TrieNode V).Ordered :=
  .intro .nil nofun

/-- The loop of `insert` over the characters of a key, with the value it replaces. -/
def insert : List Char → V → TrieNode V → Option V × TrieNode V
  | [], value, node => (node.value, { node with value := some value })
  | ch :: key, value, node =>
    let inserted := insert key value ((node.children.lookup ch).getD new)
    (inserted.1, { node with children := put ch inserted.2 node.children })

/-- The loop of `lookup` and `prefix_matches`. -/
def descend : List Char → TrieNode V → Option (TrieNode V)
  | [], node => some node
  | ch :: key, node => (node.children.lookup ch).bind (descend key)

def lookup (key : List Char) (node : TrieNode V) : Option V := (node.descend key).bind value

mutual

def size : TrieNode V → Nat
  | ⟨children, _⟩ => sizes children + 1

def sizes : List (Char × TrieNode V) → Nat
  | [] => 0
  | (_, node) :: rest => node.size + sizes rest

end

theorem size_eq (node : TrieNode V) :
    node.size = (node.children.map fun child => child.2.size).sum + 1 := by
  have sum (children : List (Char × TrieNode V)) :
      sizes children = (children.map fun child => child.2.size).sum := by
    induction children with
    | nil => rw [sizes, List.map_nil, List.sum_nil]
    | cons child rest ih => rw [sizes, ih, List.map_cons, List.sum_cons]
  cases node with
  | mk children value => rw [size, sum]

/-- Pushed in reverse, the children lie on the stack in their order. -/
def pushChildren (node : TrieNode V) (stack : List (TrieNode V)) : List (TrieNode V) :=
  node.children.reverse.foldl (fun stack child => child.2 :: stack) stack

theorem pushChildren_eq (node : TrieNode V) (stack : List (TrieNode V)) :
    node.pushChildren stack = node.children.map Prod.snd ++ stack := by
  rw [pushChildren, List.foldl_reverse]
  induction node.children with
  | nil => rfl
  | cons child rest ih => rw [List.foldr_cons, ih, List.map_cons, List.cons_append]

/-- `collect_values`: nodes on an explicit stack, its top first. -/
def collectValues (stack : List (TrieNode V)) (out : List V) : List V :=
  match stack with
  | [] => out
  | node :: stack =>
    collectValues (node.pushChildren stack) (out ++ node.value.toList)
termination_by (stack.map size).sum
decreasing_by
  rw [pushChildren_eq, List.map_append, List.sum_append, List.map_cons, List.sum_cons, size_eq,
    List.map_map]
  change (node.children.map fun child => child.2.size).sum + _ < _
  omega

theorem lookup_nil (node : TrieNode V) : node.lookup [] = node.value := rfl

theorem lookup_cons (ch : Char) (key : List Char) (node : TrieNode V) :
    node.lookup (ch :: key) = (node.children.lookup ch).bind (lookup key) := by
  rw [lookup, descend, Option.bind_assoc]
  rfl

theorem lookup_new (key : List Char) : (new : TrieNode V).lookup key = none := by
  cases key with
  | nil => rfl
  | cons ch key => rfl

theorem lookup_append {key : List Char} {node below : TrieNode V}
    (reached : node.descend key = some below) (rest : List Char) :
    node.lookup (key ++ rest) = below.lookup rest := by
  induction key generalizing node with
  | nil =>
    cases reached
    rfl
  | cons ch key ih =>
    rw [descend, Option.bind_eq_some_iff] at reached
    obtain ⟨child, found, reached⟩ := reached
    rw [List.cons_append, lookup_cons, found, Option.bind_some, ih reached]

theorem lookup_beyond {key : List Char} {node : TrieNode V} (missed : node.descend key = none)
    (rest : List Char) : node.lookup (key ++ rest) = none := by
  induction key generalizing node with
  | nil => cases missed
  | cons ch key ih =>
    rw [List.cons_append, lookup_cons]
    cases found : node.children.lookup ch with
    | none => rfl
    | some child =>
      rw [descend, found, Option.bind_some] at missed
      rw [Option.bind_some, ih missed]

theorem lookup_child (ch : Char) (key : List Char) (node : TrieNode V) :
    ((node.children.lookup ch).getD new).lookup key = node.lookup (ch :: key) := by
  rw [lookup_cons]
  cases node.children.lookup ch with
  | none => exact lookup_new key
  | some child => rfl

/-- `insert` hands back what the key had. -/
theorem insert_previous (key : List Char) (value : V) (node : TrieNode V) :
    (node.insert key value).1 = node.lookup key := by
  induction key generalizing node with
  | nil => rfl
  | cons ch key ih => rw [insert, ih, lookup_child]

theorem lookup_insert (key : List Char) (value : V) (node : TrieNode V) (probe : List Char) :
    (node.insert key value).2.lookup probe = if probe = key then some value else node.lookup probe := by
  induction key generalizing node probe with
  | nil =>
    cases probe with
    | nil => rfl
    | cons d probe => rfl
  | cons ch key ih =>
    cases probe with
    | nil => rfl
    | cons d probe =>
      rw [insert, lookup_cons, lookup_put]
      by_cases same : d = ch
      · rw [if_pos same, Option.bind_some, ih, same, lookup_child]
        simp only [List.cons.injEq, true_and]
      · rw [if_neg same, if_neg (fun h => same (List.cons.inj h).1), lookup_cons]

theorem Ordered.child {node child : TrieNode V} {ch : Char} (ordered : node.Ordered)
    (found : node.children.lookup ch = some child) : child.Ordered := by
  cases ordered with
  | intro row below => exact below _ ((mem_iff_lookup row).mpr found)

theorem Ordered.descend {node below : TrieNode V} {key : List Char} (ordered : node.Ordered)
    (reached : node.descend key = some below) : below.Ordered := by
  induction key generalizing node with
  | nil =>
    cases reached
    exact ordered
  | cons ch key ih =>
    rw [TrieNode.descend, Option.bind_eq_some_iff] at reached
    obtain ⟨child, found, reached⟩ := reached
    exact ih (ordered.child found) reached

theorem insert_ordered (key : List Char) (value : V) {node : TrieNode V} (ordered : node.Ordered) :
    (node.insert key value).2.Ordered := by
  induction key generalizing node with
  | nil =>
    cases ordered with
    | intro row below => exact .intro row below
  | cons ch key ih =>
    have child : ((node.children.lookup ch).getD new).Ordered := by
      cases found : node.children.lookup ch with
      | none => exact new_ordered
      | some child => exact ordered.child found
    cases ordered with
    | intro row below =>
      refine .intro (ordered_put _ _ row) ?_
      intro entry member
      rcases mem_put member with same | inside
      · rw [same]
        exact ih child
      · exact below entry inside

end TrieNode

/-- `len` counts the stored keys. -/
structure SymbolicTrie (V : Type) where
  root : TrieNode V
  len : Nat
  ordered : root.Ordered

namespace SymbolicTrie
variable {V : Type}

def new : SymbolicTrie V := ⟨.new, 0, TrieNode.new_ordered⟩

/-- The previous value of the key, or the reason why nothing was stored. -/
def insert (trie : SymbolicTrie V) (key : String) (value : V) :
    Except TrieError (Option V) × SymbolicTrie V :=
  if MAX_KEY_LEN < key.utf8ByteSize then (.error (.keyTooLong key.utf8ByteSize MAX_KEY_LEN), trie)
  else
    let inserted := trie.root.insert key.toList value
    (.ok inserted.1,
      { root := inserted.2
        len := if inserted.1.isNone then trie.len + 1 else trie.len
        ordered := TrieNode.insert_ordered key.toList value trie.ordered })

def lookup (trie : SymbolicTrie V) (key : String) : Option V := trie.root.lookup key.toList

def contains (trie : SymbolicTrie V) (key : String) : Bool := (trie.lookup key).isSome

def prefixMatches (trie : SymbolicTrie V) (start : String) : List V :=
  match trie.root.descend start.toList with
  | some node => TrieNode.collectValues [node] []
  | none => []

def isEmpty (trie : SymbolicTrie V) : Bool := trie.len == 0

/-- A sequence of inserts, those that fail among them. -/
def insertAll (trie : SymbolicTrie V) (inserts : List (String × V)) : SymbolicTrie V :=
  inserts.foldl (fun trie entry => (trie.insert entry.1 entry.2).2) trie

end SymbolicTrie

end RagEngine
