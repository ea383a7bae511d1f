import VerifiableRag.Trie.Contents
import Mathlib

/-!
The structure of a prefix tree is determined by the map that it stores.
-/
namespace RagEngine
open OrderedAssoc

namespace TrieNode
variable {V : Type}

section Derived
variable [BEq V]

mutual

/-- The derived equality: the children one by one, then the values. -/
def beq : TrieNode V → TrieNode V → Bool
  | ⟨children, value⟩, ⟨children', value'⟩ => beqChildren children children' && value == value'

def beqChildren : List (Char × TrieNode V) → List (Char × TrieNode V) → Bool
  | [], [] => true
  | (ch, node) :: rest, (ch', node') :: rest' => ch == ch' && node.beq node' && beqChildren rest rest'
  | _, _ => false

end

instance : BEq (TrieNode V) := ⟨beq⟩

theorem beqChildren_iff {left right : List (Char × TrieNode V)} :
    beqChildren left right = true ↔
      List.Forall₂ (fun a b => a.1 = b.1 ∧ (a.2 == b.2) = true) left right := by
  induction left generalizing right with
  | nil =>
    cases right with
    | nil => exact iff_of_true rfl .nil
    | cons b right => exact iff_of_false Bool.false_ne_true nofun
  | cons a left ih =>
    cases right with
    | nil => exact iff_of_false Bool.false_ne_true nofun
    | cons b right =>
      rw [List.forall₂_cons, ← ih, beqChildren, Bool.and_eq_true, Bool.and_eq_true, beq_iff_eq]
      rfl

theorem beq_mk {children children' : List (Char × TrieNode V)} {value value' : Option V} :
    ((⟨children, value⟩ : TrieNode V) == ⟨children', value'⟩) = true ↔
      List.Forall₂ (fun a b => a.1 = b.1 ∧ (a.2 == b.2) = true) children children' ∧
        (value == value') = true := by
  rw [← beqChildren_iff, ← Bool.and_eq_true]
  rfl

end Derived

section Canonical
variable [BEq V] {node node' : TrieNode V}

/-- Nodes without dead branches are equal exactly if they agree at every key. -/
theorem beq_iff_lookup (ordered : node.Ordered) (live : node.Live) (ordered' : node'.Ordered)
    (live' : node'.Live) :
    (node == node') = true ↔ ∀ key, (node.lookup key == node'.lookup key) = true := by
  induction ordered generalizing node' with
  | @intro children value row below ih =>
    cases ordered' with
    | @intro children' value' row' below' =>
      obtain ⟨stored, alive⟩ := live
      obtain ⟨stored', alive'⟩ := live'
      rw [beq_mk]
      constructor
      · intro h key
        obtain ⟨rows, values⟩ := h
        cases key with
        | nil => exact values
        | cons ch key =>
          have agree := rel_lookup (R := fun x y : TrieNode V => (x == y) = true) rows ch
          rw [lookup_cons, lookup_cons]
          cases found : children.lookup ch with
          | none =>
            cases found' : children'.lookup ch with
            | none => rfl
            | some y =>
              rw [found, found'] at agree
              cases agree
          | some x =>
            cases found' : children'.lookup ch with
            | none =>
              rw [found, found'] at agree
              cases agree
            | some y =>
              rw [found, found', Option.rel_some_some] at agree
              have here := (mem_iff_lookup row).mpr found
              have there := (mem_iff_lookup row').mpr found'
              exact (ih _ here (alive _ here) (below' _ there) (alive' _ there)).mp agree key
      · intro same
        refine ⟨forall₂_of_lookup (R := fun x y : TrieNode V => (x == y) = true) row row' ?_, same []⟩
        intro ch
        have agree (key : List Char) : ((children.lookup ch).bind (lookup key) ==
            (children'.lookup ch).bind (lookup key)) = true := by
          have here := same (ch :: key)
          rw [lookup_cons, lookup_cons] at here
          exact here
        cases found : children.lookup ch with
        | none =>
          cases found' : children'.lookup ch with
          | none => exact .none
          | some y =>
            -- What is stored below the child of one is missing in the other.
            obtain ⟨key, v, entry⟩ := stored' _ ((mem_iff_lookup row').mpr found')
            have differ := agree key
            rw [found, found', Option.bind_none, Option.bind_some, entry] at differ
            cases differ
        | some x =>
          cases found' : children'.lookup ch with
          | none =>
            obtain ⟨key, v, entry⟩ := stored _ ((mem_iff_lookup row).mpr found)
            have differ := agree key
            rw [found, found', Option.bind_none, Option.bind_some, entry] at differ
            cases differ
          | some y =>
            rw [found, found'] at agree
            have here := (mem_iff_lookup row).mpr found
            have there := (mem_iff_lookup row').mpr found'
            exact .some ((ih _ here (alive _ here) (below' _ there) (alive' _ there)).mpr agree)

end Canonical

section Lawful
variable [BEq V] [LawfulBEq V] {node node' : TrieNode V}

theorem beq_iff_same (ordered : node.Ordered) : (node == node') = true ↔ node = node' := by
  induction ordered generalizing node' with
  | @intro children value row below ih =>
    obtain ⟨children', value'⟩ := node'
    have same : List.Forall₂ (fun a b => a.1 = b.1 ∧ (a.2 == b.2) = true) children children' ↔
        children = children' := by
      rw [← List.forall₂_eq_eq_eq]
      clear row below
      induction children generalizing children' with
      | nil => cases children' <;> simp
      | cons child rest rows =>
        cases children' with
        | nil => simp
        | cons child' rest' =>
          rw [List.forall_mem_cons] at ih
          rw [List.forall₂_cons, List.forall₂_cons, rows ih.2, ih.1, Prod.ext_iff]
    rw [beq_mk, same, beq_iff_eq, mk.injEq]

end Lawful

end TrieNode

namespace SymbolicTrie
variable {V : Type}

instance [BEq V] : BEq (SymbolicTrie V) where
  beq trie trie' := trie.root == trie'.root && trie.len == trie'.len

section Maps
variable [BEq V] {stored stored' : Vocabulary V}

/-- Maps with the same values have the same keys. -/
theorem keys_of_lookup (same : ∀ key, (stored.lookup key == stored'.lookup key) = true) :
    stored.keys = stored'.keys := by
  ext key
  rw [Finmap.mem_keys, Finmap.mem_keys, ← Finmap.lookup_isSome, ← Finmap.lookup_isSome]
  have here := same key
  cases found : stored.lookup key with
  | none =>
    cases found' : stored'.lookup key with
    | none => rfl
    | some v =>
      rw [found, found'] at here
      cases here
  | some v =>
    cases found' : stored'.lookup key with
    | none =>
      rw [found, found'] at here
      cases here
    | some v' => rfl

theorem Represents.beq_iff {trie trie' : SymbolicTrie V} (held : trie.Represents stored)
    (held' : trie'.Represents stored') (live : trie.root.Live) (live' : trie'.root.Live) :
    (trie == trie') = true ↔ ∀ key, (stored.lookup key == stored'.lookup key) = true := by
  have roots := TrieNode.beq_iff_lookup trie.ordered live trie'.ordered live'
  have texts : (∀ key, (trie.root.lookup key == trie'.root.lookup key) = true) ↔
      ∀ key, (stored.lookup key == stored'.lookup key) = true := by
    constructor
    · intro same key
      rw [← held.lookup, ← held'.lookup]
      exact same key.toList
    · intro same key
      rw [← held.lookup_list, ← held'.lookup_list]
      exact same _
  have unfolded : (trie == trie') = (trie.root == trie'.root && trie.len == trie'.len) := rfl
  rw [unfolded, Bool.and_eq_true, roots, texts, beq_iff_eq, held.len, held'.len]
  constructor
  · intro h
    exact h.1
  · intro same
    exact ⟨same, by rw [keys_of_lookup same]⟩

end Maps

theorem Represents.unique {trie trie' : SymbolicTrie V} {stored : Vocabulary V}
    (held : trie.Represents stored) (held' : trie'.Represents stored) (live : trie.root.Live)
    (live' : trie'.root.Live) : trie = trie' := by
  classical
  have equal : (trie == trie') = true := by
    rw [held.beq_iff held' live live']
    intro key
    exact beq_self_eq_true _
  have unfolded : (trie == trie') = (trie.root == trie'.root && trie.len == trie'.len) := rfl
  rw [unfolded, Bool.and_eq_true, TrieNode.beq_iff_same trie.ordered, beq_iff_eq] at equal
  cases trie
  cases trie'
  rw [mk.injEq]
  exact equal

/-- Tries built by inserts are equal, in their structure and in what they count, exactly if the
    inserts define the same map. -/
theorem trie_canonical [BEq V] (inserts inserts' : List (String × V)) :
    ((new.insertAll inserts == new.insertAll inserts') = true ↔
      ∀ key, ((admitted inserts).lookup key == (admitted inserts').lookup key) = true) ∧
    (new.insertAll inserts = new.insertAll inserts' ↔ admitted inserts = admitted inserts') := by
  have held := represents_insertAll inserts
  have held' := represents_insertAll inserts'
  refine ⟨held.beq_iff held' (insertAll_live inserts) (insertAll_live inserts'), ?_⟩
  constructor
  · intro same
    apply Finmap.ext_lookup
    intro key
    rw [← held.lookup, ← held'.lookup, same]
  · intro same
    rw [← same] at held'
    exact held.unique held' (insertAll_live inserts) (insertAll_live inserts')

end SymbolicTrie

end RagEngine
