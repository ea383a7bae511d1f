import VerifiableRag.Trie.SymbolicTrie
import Mathlib

/-!
The prefix tree as a finite map: what it stores, in the order in which it is enumerated.
-/
namespace RagEngine
open OrderedAssoc

namespace TrieNode
variable {V : Type}

mutual

/-- The keys below a node with their values. -/
def entries : TrieNode V → List (List Char × V)
  | ⟨children, value⟩ => (value.map fun v => ([], v)).toList ++ entriesBelow children

def entriesBelow : List (Char × TrieNode V) → List (List Char × V)
  | [] => []
  | (ch, node) :: rest => (node.entries.map fun entry => (ch :: entry.1, entry.2)) ++ entriesBelow rest

end

theorem entries_eq (children : List (Char × TrieNode V)) (value : Option V) :
    entries ⟨children, value⟩ = (value.map fun v => ([], v)).toList ++
      children.flatMap fun child => child.2.entries.map fun entry => (child.1 :: entry.1, entry.2) := by
  have below (children : List (Char × TrieNode V)) : entriesBelow children =
      children.flatMap fun child => child.2.entries.map fun entry => (child.1 :: entry.1, entry.2) := by
    induction children with
    | nil => rw [entriesBelow, List.flatMap_nil]
    | cons child rest ih => rw [entriesBelow, ih, List.flatMap_cons]
  rw [entries, below]

/-- The stack holds whole subtrees, those of the top first. -/
theorem collectValues_eq (stack : List (TrieNode V)) (out : List V) :
    collectValues stack out = out ++ stack.flatMap fun node => node.entries.map Prod.snd := by
  induction stack, out using collectValues.induct with
  | case1 out => rw [collectValues, List.flatMap_nil, List.append_nil]
  | case2 out node stack ih =>
    have here : node.value.toList ++
        (node.children.map Prod.snd).flatMap (fun child => child.entries.map Prod.snd) =
          node.entries.map Prod.snd := by
      obtain ⟨children, value⟩ := node
      rw [entries_eq, List.map_append, List.map_flatMap, List.flatMap_map]
      simp only [List.map_map]
      cases value <;> rfl
    rw [collectValues, ih, pushChildren_eq, List.flatMap_append, List.flatMap_cons, ← here]
    simp only [List.append_assoc]

theorem Ordered.mem_entries {node : TrieNode V} (ordered : node.Ordered) {key : List Char} {v : V} :
    (key, v) ∈ node.entries ↔ node.lookup key = some v := by
  induction ordered generalizing key with
  | @intro children value row below ih =>
    rw [entries_eq, List.mem_append, List.mem_flatMap]
    cases key with
    | nil =>
      rw [lookup_nil]
      cases value <;> simp [eq_comm]
    | cons ch key =>
      rw [lookup_cons, Option.bind_eq_some_iff]
      constructor
      · intro member
        rcases member with here | inside
        · cases value <;> simp at here
        · obtain ⟨child, listed, inside⟩ := inside
          obtain ⟨entry, stored, same⟩ := List.mem_map.mp inside
          rw [Prod.mk.injEq, List.cons.injEq] at same
          obtain ⟨⟨first, rest⟩, value_eq⟩ := same
          refine ⟨child.2, ?_, ?_⟩
          · rw [← mem_iff_lookup row, ← first]
            exact listed
          · rw [← (ih child listed), ← rest, ← value_eq]
            exact stored
      · intro found
        obtain ⟨child, found, inside⟩ := found
        have listed := (mem_iff_lookup row).mpr found
        refine Or.inr ⟨(ch, child), listed, ?_⟩
        rw [List.mem_map]
        exact ⟨(key, v), (ih _ listed).mpr inside, rfl⟩

/-- Enumeration is in the lexicographic order of the keys. -/
theorem Ordered.entries_sorted {node : TrieNode V} (ordered : node.Ordered) :
    node.entries.Pairwise fun a b => a.1 < b.1 := by
  induction ordered with
  | @intro children value row below ih =>
    rw [entries_eq, List.pairwise_append]
    refine ⟨?_, ?_, ?_⟩
    · cases value with
      | none => exact .nil
      | some v => exact List.pairwise_singleton _ _
    · rw [List.pairwise_flatMap]
      constructor
      · intro child listed
        rw [List.pairwise_map]
        exact (ih child listed).imp fun less => List.cons_lt_cons_self.mpr less
      · apply List.Pairwise.imp _ row
        intro a b less x inside y inside'
        obtain ⟨entry, _, rfl⟩ := List.mem_map.mp inside
        obtain ⟨entry', _, rfl⟩ := List.mem_map.mp inside'
        exact List.cons_lt_cons_iff.mpr (Or.inl less)
    · intro a root b inside
      obtain ⟨child, _, inside⟩ := List.mem_flatMap.mp inside
      obtain ⟨entry, _, rfl⟩ := List.mem_map.mp inside
      obtain ⟨v, _, rfl⟩ := Option.map_eq_some_iff.mp (Option.mem_toList.mp root)
      exact List.nil_lt_cons _ _

/-- Below every child there is an entry. -/
inductive Live : TrieNode V → Prop where
  | intro {children : List (Char × TrieNode V)} {value : Option V}
      (stored : ∀ child ∈ children, ∃ key v, child.2.lookup key = some v)
      (below : ∀ child ∈ children, Live child.2) : Live ⟨children, value⟩

theorem new_live : (new : TrieNode V).Live := .intro nofun nofun

theorem Live.child {node child : TrieNode V} {ch : Char} (live : node.Live) (ordered : node.Ordered)
    (found : node.children.lookup ch = some child) : child.Live := by
  cases ordered with
  | intro row below =>
    cases live with
    | intro stored alive => exact alive _ ((mem_iff_lookup row).mpr found)

/-- The key that is inserted is the entry below every node on its way. -/
theorem insert_live (key : List Char) (value : V) {node : TrieNode V} (ordered : node.Ordered)
    (live : node.Live) : (node.insert key value).2.Live := by
  induction key generalizing node with
  | nil =>
    cases live with
    | intro stored below => exact .intro stored below
  | cons ch key ih =>
    have child : ((node.children.lookup ch).getD new).Live ∧
        ((node.children.lookup ch).getD new).Ordered := by
      cases found : node.children.lookup ch with
      | none => exact ⟨new_live, new_ordered⟩
      | some child => exact ⟨live.child ordered found, ordered.child found⟩
    cases live with
    | intro stored below =>
      constructor
      · intro entry member
        rcases mem_put member with same | inside
        · refine ⟨key, value, ?_⟩
          rw [same, lookup_insert, if_pos rfl]
        · exact stored entry inside
      · intro entry member
        rcases mem_put member with same | inside
        · rw [same]
          exact ih child.2 child.1
        · exact below entry inside

end TrieNode

/-- A finite map from strings. -/
abbrev Vocabulary (V : Type) := Finmap fun _ : String => V

/-- What a sequence of inserts stores: the last value of each key that is short enough. -/
def admitted {V : Type} (inserts : List (String × V)) : Vocabulary V :=
  inserts.foldl
    (fun stored entry =>
      if MAX_KEY_LEN < entry.1.utf8ByteSize then stored else stored.insert entry.1 entry.2) ∅

theorem keys_insert {V : Type} (stored : Vocabulary V) (key : String) (value : V) :
    (stored.insert key value).keys = insert key stored.keys := by
  ext probe
  rw [Finmap.mem_keys, Finmap.mem_insert, Finset.mem_insert, Finmap.mem_keys]

namespace SymbolicTrie
variable {V : Type}

/-- The trie holds just the map. -/
structure Represents (trie : SymbolicTrie V) (stored : Vocabulary V) : Prop where
  lookup : ∀ key, trie.lookup key = stored.lookup key
  len : trie.len = stored.keys.card

theorem represents_new : (new : SymbolicTrie V).Represents ∅ where
  lookup key := by
    rw [Finmap.lookup_empty]
    exact TrieNode.lookup_new _
  len := by
    rw [Finmap.keys_empty]
    rfl

section Insert
variable {trie : SymbolicTrie V} {stored : Vocabulary V} {key : String}

theorem insert_long (long : MAX_KEY_LEN < key.utf8ByteSize) (value : V) :
    trie.insert key value = (.error (.keyTooLong key.utf8ByteSize MAX_KEY_LEN), trie) := by
  rw [insert, if_pos long]

theorem insert_short (short : ¬ MAX_KEY_LEN < key.utf8ByteSize) (value : V) :
    (trie.insert key value).1 = .ok (trie.lookup key) := by
  rw [insert, if_neg short, lookup, ← TrieNode.insert_previous key.toList value]

theorem Represents.insert (held : trie.Represents stored)
    (short : ¬ MAX_KEY_LEN < key.utf8ByteSize) (value : V) :
    (trie.insert key value).2.Represents (stored.insert key value) where
  lookup probe := by
    have kept := held.lookup probe
    rw [SymbolicTrie.lookup] at kept
    rw [SymbolicTrie.insert, if_neg short, SymbolicTrie.lookup, TrieNode.lookup_insert, kept]
    by_cases same : probe = key
    · rw [if_pos (congrArg String.toList same), same, Finmap.lookup_insert]
    · rw [if_neg (fun h => same (String.toList_inj.mp h)), Finmap.lookup_insert_of_ne _ same]
  len := by
    have previous := held.lookup key
    rw [SymbolicTrie.lookup] at previous
    rw [SymbolicTrie.insert, if_neg short, keys_insert]
    dsimp only
    rw [TrieNode.insert_previous, previous, held.len]
    by_cases known : key ∈ stored
    · obtain ⟨old, found⟩ := Finmap.mem_iff.mp known
      rw [Finset.insert_eq_of_mem (Finmap.mem_keys.mpr known), found]
      rfl
    · rw [Finset.card_insert_of_notMem (mt Finmap.mem_keys.mp known),
        Finmap.lookup_eq_none.mpr known]
      rfl

end Insert

theorem represents_insertAll (inserts : List (String × V)) :
    (new.insertAll inserts).Represents (admitted inserts) := by
  induction inserts using List.reverseRecOn with
  | nil => exact represents_new
  | append_singleton inserts entry ih =>
    rw [insertAll, admitted, List.foldl_append, List.foldl_append]
    change ((new.insertAll inserts).insert entry.1 entry.2).2.Represents
      (if MAX_KEY_LEN < entry.1.utf8ByteSize then admitted inserts
        else (admitted inserts).insert entry.1 entry.2)
    split
    · rename_i long
      rw [insert_long long]
      exact ih
    · rename_i short
      exact ih.insert short entry.2

theorem insert_live {trie : SymbolicTrie V} (live : trie.root.Live) (key : String) (value : V) :
    (trie.insert key value).2.root.Live := by
  rw [insert]
  split
  · exact live
  · exact TrieNode.insert_live key.toList value trie.ordered live

theorem insertAll_live (inserts : List (String × V)) : (new.insertAll inserts).root.Live := by
  induction inserts using List.reverseRecOn with
  | nil => exact TrieNode.new_live
  | append_singleton inserts entry ih =>
    rw [insertAll, List.foldl_append]
    exact insert_live ih entry.1 entry.2

section Prefixes
variable {trie : SymbolicTrie V} {stored : Vocabulary V}

theorem Represents.lookup_list (held : trie.Represents stored) (key : List Char) :
    stored.lookup (String.ofList key) = trie.root.lookup key := by
  rw [← held.lookup, SymbolicTrie.lookup, String.toList_ofList]

/-- The stored keys below a node, in the order of its entries. -/
theorem Represents.below (held : trie.Represents stored) {start : List Char} {node : TrieNode V}
    (reached : trie.root.descend start = some node) :
    (stored.keys.filter fun key => start <+: key.toList).sort (· ≤ ·) =
      node.entries.map fun entry => String.ofList (start ++ entry.1) := by
  have ordered := trie.ordered.descend reached
  have sorted : (node.entries.map fun entry => String.ofList (start ++ entry.1)).Pairwise (· < ·) := by
    rw [List.pairwise_map]
    apply ordered.entries_sorted.imp
    intro a b less
    rw [String.lt_iff_toList_lt, String.toList_ofList, String.toList_ofList]
    exact List.append_left_lt less
  have same : stored.keys.filter (fun key => start <+: key.toList) =
      (node.entries.map fun entry => String.ofList (start ++ entry.1)).toFinset := by
    ext key
    rw [Finset.mem_filter, Finmap.mem_keys, Finmap.mem_iff, List.mem_toFinset, List.mem_map]
    constructor
    · intro h
      obtain ⟨⟨value, found⟩, rest, split⟩ := h
      refine ⟨(rest, value), ?_, ?_⟩
      · rw [ordered.mem_entries, ← TrieNode.lookup_append reached, split, ← found, ← held.lookup,
          SymbolicTrie.lookup]
      · rw [split, String.ofList_toList]
    · intro h
      obtain ⟨entry, listed, rfl⟩ := h
      rw [ordered.mem_entries, ← TrieNode.lookup_append reached, ← held.lookup_list] at listed
      rw [String.toList_ofList]
      exact ⟨⟨entry.2, listed⟩, List.prefix_append _ _⟩
  rw [same, List.toFinset_sort _ (sorted.imp ne_of_lt)]
  exact sorted.imp le_of_lt

theorem Represents.prefixMatches (held : trie.Represents stored) (start : String) :
    trie.prefixMatches start =
      ((stored.keys.filter fun key => start.toList <+: key.toList).sort (· ≤ ·)).filterMap
        stored.lookup := by
  rw [SymbolicTrie.prefixMatches]
  split
  · rename_i node reached
    have ordered := trie.ordered.descend reached
    have values : ∀ entry ∈ node.entries,
        stored.lookup (String.ofList (start.toList ++ entry.1)) = some entry.2 := by
      intro entry listed
      rw [held.lookup_list, TrieNode.lookup_append reached, ← ordered.mem_entries]
      exact listed
    have found : (node.entries.filterMap fun entry =>
        stored.lookup (String.ofList (start.toList ++ entry.1))) = node.entries.map Prod.snd := by
      rw [List.filterMap_congr values]
      exact congrFun List.filterMap_eq_map node.entries
    rw [TrieNode.collectValues_eq, List.nil_append, List.flatMap_cons, List.flatMap_nil,
      List.append_nil, held.below reached, List.filterMap_map]
    exact found.symm
  · rename_i missed
    have none_below : stored.keys.filter (fun key => start.toList <+: key.toList) = ∅ := by
      rw [Finset.filter_eq_empty_iff]
      intro key stored_key below
      obtain ⟨rest, split⟩ := below
      obtain ⟨value, found⟩ := Finmap.mem_iff.mp (Finmap.mem_keys.mp stored_key)
      rw [← held.lookup, SymbolicTrie.lookup, ← split, TrieNode.lookup_beyond missed] at found
      cases found
    rw [none_below, Finset.sort_empty, List.filterMap_nil]

end Prefixes

/-- A trie after any inserts answers like the finite map of what was admitted. -/
theorem trie_refines_map (inserts : List (String × V)) :
    (∀ key value, (new.insertAll inserts).insert key value =
      if MAX_KEY_LEN < key.utf8ByteSize then
        (.error (.keyTooLong key.utf8ByteSize MAX_KEY_LEN), new.insertAll inserts)
      else (.ok ((admitted inserts).lookup key), new.insertAll (inserts ++ [(key, value)]))) ∧
    (∀ key, (new.insertAll inserts).lookup key = (admitted inserts).lookup key ∧
      ((new.insertAll inserts).contains key ↔ key ∈ admitted inserts)) ∧
    (new.insertAll inserts).len = (admitted inserts).keys.card ∧
    ((new.insertAll inserts).isEmpty ↔ (admitted inserts).keys.card = 0) ∧
    ∀ start, (new.insertAll inserts).prefixMatches start =
      (((admitted inserts).keys.filter fun key => start.toList <+: key.toList).sort
        (· ≤ ·)).filterMap (admitted inserts).lookup := by
  have held := represents_insertAll inserts
  refine ⟨?_, ?_, held.len, ?_, held.prefixMatches⟩
  · intro key value
    split
    · rename_i long
      exact insert_long long value
    · rename_i short
      apply Prod.ext
      · rw [insert_short short, held.lookup]
      · rw [insertAll, insertAll, List.foldl_append]
        rfl
  · intro key
    rw [contains, held.lookup]
    exact ⟨rfl, Finmap.lookup_isSome⟩
  · rw [isEmpty, held.len, beq_iff_eq]

end SymbolicTrie

end RagEngine
