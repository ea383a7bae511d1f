import VerifiableRag.Trie.SymbolicTrie
import Mathlib

/-!
The clone of a prefix tree by two loops, and that it is the identity.
-/
namespace RagEngine
open OrderedAssoc

/-- A node of the source, with its address. -/
structure SourceNode (V : Type) where
  addr : Nat
  children : List (Char × SourceNode V)
  value : Option V

namespace SourceNode
variable {V : Type}

mutual

/-- The node without the addresses. -/
def erase : SourceNode V → TrieNode V
  | ⟨_, children, value⟩ => ⟨eraseBelow children, value⟩

def eraseBelow : List (Char × SourceNode V) → List (Char × TrieNode V)
  | [] => []
  | (ch, node) :: rest => (ch, node.erase) :: eraseBelow rest

end

mutual

/-- Children before parents. -/
def postorder : SourceNode V → List (SourceNode V)
  | ⟨addr, children, value⟩ => postorderBelow children ++ [⟨addr, children, value⟩]

def postorderBelow : List (Char × SourceNode V) → List (SourceNode V)
  | [] => []
  | (_, node) :: rest => node.postorder ++ postorderBelow rest

end

def size (node : SourceNode V) : Nat := node.postorder.length

def addresses (node : SourceNode V) : List Nat := node.postorder.map addr

theorem postorder_eq (node : SourceNode V) :
    node.postorder = postorderBelow node.children ++ [node] := by
  cases node
  rw [postorder]

theorem size_eq (node : SourceNode V) :
    node.size = (postorderBelow node.children).length + 1 := by
  rw [size, postorder_eq, List.length_append, List.length_singleton]

theorem erase_eq (node : SourceNode V) : node.erase = ⟨eraseBelow node.children, node.value⟩ := by
  cases node
  rw [erase]

theorem postorderBelow_eq (children : List (Char × SourceNode V)) :
    postorderBelow children = children.flatMap fun child => child.2.postorder := by
  induction children with
  | nil => rw [postorderBelow, List.flatMap_nil]
  | cons child rest ih => rw [postorderBelow, ih, List.flatMap_cons]

theorem eraseBelow_eq (children : List (Char × SourceNode V)) :
    eraseBelow children = children.map fun child => (child.1, child.2.erase) := by
  induction children with
  | nil => rw [eraseBelow, List.map_nil]
  | cons child rest ih => rw [eraseBelow, ih, List.map_cons]

section Traversal

/-- The marked node below its unmarked children, the first of them on top. -/
def pushMarked (node : SourceNode V) (stack : List (SourceNode V × Bool)) :
    List (SourceNode V × Bool) :=
  node.children.reverse.foldl (fun stack child => (child.2, false) :: stack) ((node, true) :: stack)

theorem pushMarked_eq (node : SourceNode V) (stack : List (SourceNode V × Bool)) :
    node.pushMarked stack =
      (node.children.map fun child => (child.2, false)) ++ (node, true) :: stack := by
  rw [pushMarked, List.foldl_reverse]
  induction node.children with
  | nil => rfl
  | cons child rest ih => rw [List.foldr_cons, ih, List.map_cons, List.cons_append]

/-- How often the loop still pops for an entry. -/
def pops (entry : SourceNode V × Bool) : Nat := if entry.2 then 1 else 2 * entry.1.size

theorem pops_marked (node : SourceNode V) : pops (node, true) = 1 := rfl

theorem pops_unmarked (node : SourceNode V) :
    pops (node, false) = 2 * (postorderBelow node.children).length + 2 := by
  have size : pops (node, false) = 2 * node.size := rfl
  rw [size, size_eq]
  omega

theorem pops_pushMarked (node : SourceNode V) (stack : List (SourceNode V × Bool)) :
    ((node.pushMarked stack).map pops).sum < (((node, false) :: stack).map pops).sum := by
  have below (children : List (Char × SourceNode V)) :
      ((children.map fun child => (child.2, false)).map pops).sum =
        2 * (postorderBelow children).length := by
    induction children with
    | nil => rw [postorderBelow]; rfl
    | cons child rest ih =>
      rw [List.map_cons, List.map_cons, List.sum_cons, ih, pops_unmarked, postorderBelow,
        List.length_append, postorder_eq, List.length_append, List.length_singleton]
      omega
  rw [pushMarked_eq, List.map_append, List.sum_append, below, List.map_cons, List.map_cons,
    List.sum_cons, List.sum_cons, pops_marked, pops_unmarked]
  omega

/-- The first loop: a node is listed when it is popped for the second time. -/
def traverse (stack : List (SourceNode V × Bool)) (post : List (SourceNode V)) :
    List (SourceNode V) :=
  match stack with
  | [] => post
  | (node, true) :: stack => traverse stack (post ++ [node])
  | (node, false) :: stack => traverse (node.pushMarked stack) post
termination_by (stack.map pops).sum
decreasing_by
  · rw [List.map_cons, List.sum_cons, pops_marked]
    omega
  · exact pops_pushMarked node stack

theorem traverse_eq (stack : List (SourceNode V × Bool)) (post : List (SourceNode V)) :
    traverse stack post =
      post ++ stack.flatMap fun entry => if entry.2 then [entry.1] else entry.1.postorder := by
  induction stack, post using traverse.induct with
  | case1 post => rw [traverse, List.flatMap_nil, List.append_nil]
  | case2 post node stack ih =>
    rw [traverse, ih, List.flatMap_cons, if_pos rfl, List.append_assoc]
  | case3 post node stack ih =>
    have below : (node.children.map fun child => (child.2, false)).flatMap
        (fun entry => if entry.2 then [entry.1] else entry.1.postorder) =
          postorderBelow node.children := by
      rw [postorderBelow_eq, List.flatMap_map]
      rfl
    rw [traverse, ih, pushMarked_eq, List.flatMap_append, below, List.flatMap_cons,
      List.flatMap_cons, if_pos rfl, if_neg Bool.false_ne_true, postorder_eq, List.append_assoc]

end Traversal

/-- The locals of the second loop. `moves` is no local: it lists the moves that were made, each
    by the index of the copy and the index that its parent gets. -/
structure Building (V : Type) where
  built : List (TrieNode V)
  addr : List (Nat × Nat)
  moves : List (Nat × Nat)

namespace Building

/-- One child of the inner loop; `none` is a panic of an index. -/
def moveChild (state : Building V × List (Char × TrieNode V)) (child : Char × SourceNode V) :
    Option (Building V × List (Char × TrieNode V)) := do
  let childIdx ← state.1.addr.lookup child.2.addr
  let copy ← state.1.built[childIdx]?
  return ({ state.1 with
    built := state.1.built.set childIdx .new
    moves := state.1.moves ++ [(childIdx, state.1.built.length)] }, put child.1 copy state.2)

def build (b : Building V) (src : SourceNode V) : Option (Building V) := do
  let (b, children) ← src.children.foldlM moveChild (b, [])
  return { b with
    built := b.built ++ [⟨children, src.value⟩]
    addr := put src.addr b.built.length b.addr }

section Moves

/-- What is left of trees whose copies were all moved away. -/
def emptied (children : List (Char × SourceNode V)) : List (TrieNode V) :=
  List.replicate (postorderBelow children).length .new

/-- What finished trees leave behind: below their root copies all copies were moved away. -/
def remains : List (Char × SourceNode V) → List (TrieNode V)
  | [] => []
  | (_, node) :: rest => emptied node.children ++ node.erase :: remains rest

/-- The indices of the root copies. -/
def tips : Nat → List (Char × SourceNode V) → List Nat
  | _, [] => []
  | start, (_, node) :: rest =>
    (start + (postorderBelow node.children).length) :: tips (start + node.size) rest

theorem emptied_length (children : List (Char × SourceNode V)) :
    (emptied children).length = (postorderBelow children).length :=
  List.length_replicate

theorem postorderBelow_length (ch : Char) (node : SourceNode V) (rest : List (Char × SourceNode V)) :
    (postorderBelow ((ch, node) :: rest)).length =
      (postorderBelow node.children).length + 1 + (postorderBelow rest).length := by
  rw [postorderBelow, List.length_append, ← size, size_eq]

theorem emptied_cons (ch : Char) (node : SourceNode V) (rest : List (Char × SourceNode V)) :
    emptied ((ch, node) :: rest) = emptied node.children ++ .new :: emptied rest := by
  rw [emptied, postorderBelow_length, List.replicate_add, List.replicate_add, List.append_assoc]
  rfl

theorem remains_length (children : List (Char × SourceNode V)) :
    (remains children).length = (postorderBelow children).length := by
  induction children with
  | nil => rw [remains, postorderBelow]; rfl
  | cons child rest ih =>
    obtain ⟨ch, node⟩ := child
    rw [remains, postorderBelow_length, List.length_append, List.length_cons, ih, emptied_length]
    omega

/-- The copy at an index is taken and an empty node is left in its place. -/
theorem moveChild_eq {b : Building V} {acc : List (Char × TrieNode V)}
    {child : Char × SourceNode V} {before after : List (TrieNode V)} {copy : TrieNode V}
    (built : b.built = before ++ copy :: after)
    (found : b.addr.lookup child.2.addr = some before.length) :
    moveChild (b, acc) child = some ({ b with
      built := before ++ .new :: after
      moves := b.moves ++ [(before.length, b.built.length)] }, put child.1 copy acc) := by
  have there : b.built[before.length]? = some copy := by
    rw [built, List.getElem?_append_right (Nat.le_refl _), Nat.sub_self]
    rfl
  have taken : b.built.set before.length .new = before ++ .new :: after := by
    rw [built, List.set_append_right _ _ (Nat.le_refl _), Nat.sub_self]
    rfl
  rw [moveChild, found, Option.bind_eq_bind, Option.bind_some, there, Option.bind_eq_bind,
    Option.bind_some, taken]
  rfl

/-- The inner loop collects the copies in the order of the children. -/
theorem moveChildren_eq {b : Building V} {front : List (TrieNode V)}
    {acc : List (Char × TrieNode V)} (children : List (Char × SourceNode V))
    (built : b.built = front ++ remains children)
    (found : children.map (fun child => b.addr.lookup child.2.addr) =
      (tips front.length children).map some)
    (row : OrderedAssoc.Ordered (acc ++ eraseBelow children)) :
    children.foldlM moveChild (b, acc) = some ({ b with
      built := front ++ emptied children
      moves := b.moves ++ (tips front.length children).map (·, b.built.length) },
      acc ++ eraseBelow children) := by
  induction children generalizing b front acc with
  | nil =>
    obtain ⟨bBuilt, bAddr, bMoves⟩ := b
    cases built
    rw [List.foldlM_nil, eraseBelow, tips, List.map_nil, List.append_nil, List.append_nil]
    rfl
  | cons child rest ih =>
    obtain ⟨ch, node⟩ := child
    rw [remains, ← List.append_assoc] at built
    rw [List.map_cons, tips, List.map_cons, List.cons.injEq] at found
    rw [eraseBelow] at row
    have moved : (front ++ emptied node.children).length =
        front.length + (postorderBelow node.children).length := by
      rw [List.length_append, emptied_length]
    have last : put ch node.erase acc = acc ++ [(ch, node.erase)] := by
      apply put_last
      intro entry member
      exact (List.pairwise_append.mp row).2.2 entry member _ List.mem_cons_self
    generalize next : { b with
      built := front ++ emptied node.children ++ TrieNode.new :: remains rest
      moves := b.moves ++
        [(front.length + (postorderBelow node.children).length, b.built.length)] } = b'
    have here : moveChild (b, acc) (ch, node) = some (b', acc ++ [(ch, node.erase)]) := by
      rw [moveChild_eq built (by rw [moved]; exact found.1), moved, last, ← next]
    have front_length : (front ++ emptied node.children ++ [TrieNode.new]).length =
        front.length + node.size := by
      rw [List.length_append, moved, List.length_singleton, size_eq, Nat.add_assoc]
    have same_length : b'.built.length = b.built.length := by
      simp only [← next, built, List.length_append, List.length_cons]
    have rest_run := @ih b' (front ++ emptied node.children ++ [TrieNode.new]) (acc ++ [(ch, node.erase)])
      (by rw [← next, ← List.append_cons]) (by rw [front_length, ← next]; exact found.2)
      (by rw [← List.append_cons]; exact row)
    rw [front_length, same_length] at rest_run
    rw [List.foldlM_cons, here, Option.bind_eq_bind, Option.bind_some, rest_run, emptied_cons,
      eraseBelow, tips, ← next]
    simp only [List.append_assoc, List.cons_append, List.nil_append, List.map_cons]

end Moves

section Adoption

/-- A move of the copy of a node into the copy of its parent; the copies of `nodes` are built
    from index `start` on. -/
def Adopts (start : Nat) (nodes : List (SourceNode V)) (move : Nat × Nat) : Prop :=
  ∃ i j child parent, move = (start + i, start + j) ∧ nodes[i]? = some child ∧
    nodes[j]? = some parent ∧ ∃ ch, (ch, child) ∈ parent.children

variable {start : Nat} {nodes : List (SourceNode V)} {move : Nat × Nat}

theorem Adopts.append (adopts : Adopts start nodes move) (more : List (SourceNode V)) :
    Adopts start (nodes ++ more) move := by
  obtain ⟨i, j, child, parent, same, here, there, listed⟩ := adopts
  obtain ⟨inside, _⟩ := List.getElem?_eq_some_iff.mp here
  obtain ⟨inside', _⟩ := List.getElem?_eq_some_iff.mp there
  exact ⟨i, j, child, parent, same, (List.getElem?_append_left inside).trans here,
    (List.getElem?_append_left inside').trans there, listed⟩

theorem Adopts.behind {front : List (SourceNode V)} (adopts : Adopts (start + front.length) nodes move) :
    Adopts start (front ++ nodes) move := by
  obtain ⟨i, j, child, parent, same, here, there, listed⟩ := adopts
  refine ⟨front.length + i, front.length + j, child, parent, ?_, ?_, ?_, listed⟩
  · rw [same, Nat.add_assoc, Nat.add_assoc]
  · rw [List.getElem?_append_right (Nat.le_add_right _ _), Nat.add_sub_cancel_left, here]
  · rw [List.getElem?_append_right (Nat.le_add_right _ _), Nat.add_sub_cancel_left, there]

/-- A root copy is that of a child. -/
theorem mem_tips {start t : Nat} {children : List (Char × SourceNode V)}
    (member : t ∈ tips start children) : ∃ i child, t = start + i ∧
      (postorderBelow children)[i]? = some child ∧ ∃ ch, (ch, child) ∈ children := by
  induction children generalizing start with
  | nil => cases member
  | cons child rest ih =>
    obtain ⟨ch, node⟩ := child
    rw [postorderBelow]
    rcases List.mem_cons.mp member with rfl | later
    · refine ⟨_, node, rfl, ?_, ch, List.mem_cons_self⟩
      rw [postorder_eq, List.append_assoc, List.getElem?_append_right (Nat.le_refl _), Nat.sub_self]
      rfl
    · obtain ⟨i, child, place, found, ch', listed⟩ := ih later
      refine ⟨node.size + i, child, ?_, ?_, ch', List.mem_cons_of_mem _ listed⟩
      · rw [place, Nat.add_assoc]
      · rw [size, List.getElem?_append_right (Nat.le_add_right _ _), Nat.add_sub_cancel_left, found]

end Adoption

/-- What building the copies of `nodes` does to all other addresses: nothing. -/
def Keeps (nodes : List (SourceNode V)) (b b' : Building V) : Prop :=
  ∀ a, a ∉ nodes.map SourceNode.addr → b'.addr.lookup a = b.addr.lookup a

/-- A tree is finished: its root copy is the last, all others were moved once. -/
structure Finished (node : SourceNode V) (b b' : Building V) : Prop where
  built : b'.built = b.built ++ (emptied node.children ++ [node.erase])
  found : b'.addr.lookup node.addr = some (b.built.length + (postorderBelow node.children).length)
  kept : Keeps node.postorder b b'
  moves : ∃ ms, b'.moves = b.moves ++ ms ∧ (∀ m ∈ ms, Adopts b.built.length node.postorder m) ∧
    (ms.map Prod.fst).Perm (List.range' b.built.length (postorderBelow node.children).length)

/-- The trees of all children are finished. -/
structure FinishedBelow (children : List (Char × SourceNode V)) (b b' : Building V) : Prop where
  built : b'.built = b.built ++ remains children
  found : children.map (fun child => b'.addr.lookup child.2.addr) =
    (tips b.built.length children).map some
  kept : Keeps (postorderBelow children) b b'
  moves : ∃ ms, b'.moves = b.moves ++ ms ∧ (∀ m ∈ ms, Adopts b.built.length (postorderBelow children) m) ∧
    (ms.map Prod.fst ++ tips b.built.length children).Perm
      (List.range' b.built.length (postorderBelow children).length)

section Trees
variable {b b' b'' : Building V}

theorem finishedBelow_nil (b : Building V) : FinishedBelow [] b b where
  built := (List.append_nil _).symm
  found := rfl
  kept _ _ := rfl
  moves := ⟨[], (List.append_nil _).symm, nofun, .refl _⟩

theorem Finished.length {node : SourceNode V} (finished : Finished node b b') :
    b'.built.length = b.built.length + node.postorder.length := by
  rw [finished.built, List.length_append, List.length_append, emptied_length, ← size, size_eq]
  rfl

/-- A finished tree in front of finished trees. -/
theorem FinishedBelow.cons {ch : Char} {node : SourceNode V} {rest : List (Char × SourceNode V)}
    (distinct : ((postorderBelow ((ch, node) :: rest)).map SourceNode.addr).Nodup)
    (first : Finished node b b') (below : FinishedBelow rest b' b'') :
    FinishedBelow ((ch, node) :: rest) b b'' := by
  rw [postorderBelow, List.map_append, List.nodup_append] at distinct
  have here : node.addr ∈ node.postorder.map SourceNode.addr := by
    rw [postorder_eq, List.map_append]
    exact List.mem_append_right _ List.mem_cons_self
  have apart : node.addr ∉ (postorderBelow rest).map SourceNode.addr := by
    intro there
    exact distinct.2.2 _ here _ there rfl
  constructor
  · rw [below.built, first.built, remains]
    simp only [List.append_assoc, List.singleton_append]
  · have rows := below.found
    rw [first.length, ← size] at rows
    rw [List.map_cons, rows, below.kept _ apart, first.found]
    rfl
  · intro a outside
    rw [postorderBelow, List.map_append, List.mem_append, not_or] at outside
    rw [below.kept a outside.2, first.kept a outside.1]
  · obtain ⟨ms, moved, adopted, once⟩ := first.moves
    obtain ⟨ms', moved', adopted', once'⟩ := below.moves
    rw [first.length] at adopted' once'
    refine ⟨ms ++ ms', ?_, ?_, ?_⟩
    · rw [moved', moved, List.append_assoc]
    · rw [postorderBelow]
      intro m member
      rcases List.mem_append.mp member with old | new
      · exact (adopted m old).append _
      · exact (adopted' m new).behind
    · have split : List.range' b.built.length (postorderBelow ((ch, node) :: rest)).length =
          List.range' b.built.length (postorderBelow node.children).length ++
            (b.built.length + (postorderBelow node.children).length) ::
              List.range' (b.built.length + node.postorder.length) (postorderBelow rest).length := by
        rw [postorderBelow_length, List.range'_append_1.symm, List.range'_concat, ← size, size_eq,
          List.append_assoc, Nat.one_mul, List.singleton_append]
      rw [split, tips, List.map_append, List.append_assoc]
      apply once.append
      exact List.perm_middle.trans (once'.cons _)

/-- The children of a node are moved into it, and its own copy is built. -/
theorem FinishedBelow.parent {node : SourceNode V} (ordered : node.erase.Ordered)
    (below : FinishedBelow node.children b b') :
    ∃ b'', b'.build node = some b'' ∧ Finished node b b'' := by
  have row : OrderedAssoc.Ordered ([] ++ eraseBelow node.children) := by
    rw [erase_eq] at ordered
    cases ordered with
    | intro row _ => exact row
  have length : b'.built.length = b.built.length + (postorderBelow node.children).length := by
    rw [below.built, List.length_append, remains_length]
  rw [Building.build, moveChildren_eq node.children below.built below.found row,
    Option.bind_eq_bind, Option.bind_some]
  refine ⟨_, rfl, ?_, ?_, ?_, ?_⟩
  · rw [erase_eq, List.nil_append, List.append_assoc]
  · rw [lookup_put, if_pos rfl, List.length_append, emptied_length]
  · intro a outside
    rw [postorder_eq, List.map_append, List.mem_append, not_or] at outside
    rw [lookup_put, if_neg (List.ne_of_not_mem_cons outside.2), below.kept a outside.1]
  · obtain ⟨ms, moved, adopted, once⟩ := below.moves
    refine ⟨ms ++ (tips b.built.length node.children).map (·, b'.built.length), ?_, ?_, ?_⟩
    · change b'.moves ++ _ = _
      rw [moved, List.append_assoc]
    · rw [postorder_eq]
      intro m member
      rcases List.mem_append.mp member with old | new
      · exact (adopted m old).append _
      · obtain ⟨t, tip, rfl⟩ := List.mem_map.mp new
        obtain ⟨i, child, rfl, found, listed⟩ := mem_tips tip
        obtain ⟨inside, _⟩ := List.getElem?_eq_some_iff.mp found
        refine ⟨i, (postorderBelow node.children).length, child, node, ?_, ?_, ?_, listed⟩
        · rw [length]
        · rw [List.getElem?_append_left inside, found]
        · exact List.getElem?_concat_length
    · rw [List.map_append, List.map_map]
      have firsts : (tips b.built.length node.children).map
          (Prod.fst ∘ (·, b'.built.length)) = tips b.built.length node.children :=
        List.map_id _
      rw [firsts]
      exact once

mutual

theorem build_node (node : SourceNode V) (ordered : node.erase.Ordered)
    (distinct : node.addresses.Nodup) (b : Building V) :
    ∃ b', node.postorder.foldlM build b = some b' ∧ Finished node b b' := by
  cases node with
  | mk addr children value =>
    have below : ∀ child ∈ children, child.2.erase.Ordered := by
      intro child listed
      rw [erase, eraseBelow_eq] at ordered
      cases ordered with
      | intro _ below => exact below _ (List.mem_map_of_mem listed)
    have apart : ((postorderBelow children).map SourceNode.addr).Nodup := by
      rw [addresses, postorder, List.map_append, List.nodup_append] at distinct
      exact distinct.1
    obtain ⟨b', run, finished⟩ := build_below children below apart b
    obtain ⟨b'', last, built⟩ := finished.parent ordered
    refine ⟨b'', ?_, built⟩
    rw [postorder, List.foldlM_append, run, Option.bind_eq_bind, Option.bind_some, List.foldlM_cons,
      last]
    rfl

theorem build_below (children : List (Char × SourceNode V))
    (ordered : ∀ child ∈ children, child.2.erase.Ordered)
    (distinct : ((postorderBelow children).map SourceNode.addr).Nodup) (b : Building V) :
    ∃ b', (postorderBelow children).foldlM build b = some b' ∧ FinishedBelow children b b' := by
  cases children with
  | nil =>
    rw [postorderBelow]
    exact ⟨b, rfl, finishedBelow_nil b⟩
  | cons child rest =>
    obtain ⟨ch, node⟩ := child
    obtain ⟨here, later⟩ := List.forall_mem_cons.mp ordered
    have split := distinct
    rw [postorderBelow, List.map_append, List.nodup_append] at split
    obtain ⟨b', run, finished⟩ := build_node node here split.1 b
    obtain ⟨b'', run', below⟩ := build_below rest later split.2.1 b'
    refine ⟨b'', ?_, .cons distinct finished below⟩
    rw [postorderBelow, List.foldlM_append, run, Option.bind_eq_bind, Option.bind_some, run']

end

end Trees

end Building

section Numbering

mutual

/-- Some addresses for the nodes: their places in postorder. -/
def number (start : Nat) : TrieNode V → SourceNode V
  | ⟨children, value⟩ =>
    let below := numberBelow start children
    ⟨start + (postorderBelow below).length, below, value⟩

def numberBelow (start : Nat) : List (Char × TrieNode V) → List (Char × SourceNode V)
  | [] => []
  | (ch, node) :: rest =>
    let first := number start node
    (ch, first) :: numberBelow (start + first.postorder.length) rest

end

mutual

theorem erase_number (start : Nat) (node : TrieNode V) : (number start node).erase = node := by
  cases node with
  | mk children value => rw [number, erase, erase_numberBelow]

theorem erase_numberBelow (start : Nat) (children : List (Char × TrieNode V)) :
    eraseBelow (numberBelow start children) = children := by
  cases children with
  | nil => rw [numberBelow, eraseBelow]
  | cons child rest =>
    obtain ⟨ch, node⟩ := child
    rw [numberBelow, eraseBelow, erase_number, erase_numberBelow]

end

mutual

theorem addresses_number (start : Nat) (node : TrieNode V) :
    (number start node).postorder.map addr =
      List.range' start (number start node).postorder.length := by
  cases node with
  | mk children value =>
    rw [number, postorder, List.map_append, addresses_numberBelow, List.length_append,
      List.length_singleton, List.range'_concat, Nat.one_mul]
    rfl

theorem addresses_numberBelow (start : Nat) (children : List (Char × TrieNode V)) :
    (postorderBelow (numberBelow start children)).map addr =
      List.range' start (postorderBelow (numberBelow start children)).length := by
  cases children with
  | nil => rw [numberBelow, postorderBelow]; rfl
  | cons child rest =>
    obtain ⟨ch, node⟩ := child
    rw [numberBelow, postorderBelow, List.map_append, addresses_number, addresses_numberBelow,
      List.length_append, List.range'_append_1]

end

end Numbering

end SourceNode

/-- The trie that is cloned: nodes have addresses of their own. -/
structure SourceTrie (V : Type) where
  root : SourceNode V
  len : Nat
  ordered : root.erase.Ordered
  distinct : root.addresses.Nodup

namespace SourceTrie
variable {V : Type}
open SourceNode

def trie (source : SourceTrie V) : SymbolicTrie V := ⟨source.root.erase, source.len, source.ordered⟩

/-- The root and the length of the clone, and the moves that were made. -/
def clone (source : SourceTrie V) : Option ((TrieNode V × Nat) × List (Nat × Nat)) := do
  let b ← (traverse [(source.root, false)] []).foldlM Building.build ⟨[], [], []⟩
  let root ← b.built.getLast?
  return ((root, source.len), b.moves)

/-- Every trie can lie in memory. -/
theorem exists_source (trie : SymbolicTrie V) : ∃ source : SourceTrie V, source.trie = trie := by
  have ordered : (number 0 trie.root).erase.Ordered := by
    rw [erase_number]
    exact trie.ordered
  have distinct : (number 0 trie.root).addresses.Nodup := by
    rw [addresses, addresses_number]
    exact List.nodup_range'
  refine ⟨⟨number 0 trie.root, trie.len, ordered, distinct⟩, ?_⟩
  cases trie
  rw [SourceTrie.trie, SymbolicTrie.mk.injEq]
  exact ⟨erase_number 0 _, rfl⟩

/-- The clone of a trie is the trie: no index is missing, and every copy but the last, the
    root's, is moved once, into the copy of its parent. -/
theorem clone_identity (trie : SymbolicTrie V) (source : SourceTrie V) :
    (∃ placed : SourceTrie V, placed.trie = trie) ∧
    ∃ moves, source.clone = some ((source.trie.root, source.trie.len), moves) ∧
      (moves.map Prod.fst).Perm (List.range (source.root.postorder.length - 1)) ∧
      ∀ move ∈ moves, ∃ child parent, source.root.postorder[move.1]? = some child ∧
        source.root.postorder[move.2]? = some parent ∧ ∃ ch, (ch, child) ∈ parent.children := by
  refine ⟨exists_source trie, ?_⟩
  have post : SourceNode.traverse [(source.root, false)] [] = source.root.postorder := by
    rw [traverse_eq, List.nil_append, List.flatMap_singleton, if_neg Bool.false_ne_true]
  obtain ⟨b, run, finished⟩ :=
    Building.build_node source.root source.ordered source.distinct ⟨[], [], []⟩
  obtain ⟨moves, moved, adopted, once⟩ := finished.moves
  have last : b.built.getLast? = some source.root.erase := by
    rw [finished.built, ← List.append_assoc]
    exact List.getLast?_concat
  refine ⟨moves, ?_, ?_, ?_⟩
  · rw [clone, post, run, Option.bind_eq_bind, Option.bind_some, last, Option.bind_eq_bind,
      Option.bind_some, moved]
    rfl
  · have all_but_last : source.root.postorder.length - 1 =
        (postorderBelow source.root.children).length := by
      rw [← size, size_eq, Nat.add_sub_cancel]
    rw [all_but_last, List.range_eq_range']
    exact once
  · intro move member
    obtain ⟨i, j, child, parent, rfl, here, there, listed⟩ := adopted move member
    refine ⟨child, parent, ?_, ?_, listed⟩
    · simpa using here
    · simpa using there

end SourceTrie

end RagEngine
