import Mathlib.Data.List.Sort
import Mathlib.Data.String.Basic
import Std.Data.TreeMap
import VerifiableRag.Library.BreadthFirst
import VerifiableRag.Library.KahnRank

/-!
The knowledge graph of the RAG engine (`graph.rs`). Entities sit in a flat
arena; both adjacency maps, the text index and the rank table are caches. An
operation returns its result together with the graph it leaves behind, also on
error: nothing is rolled back. Ids (`EntityId`) and lengths are unbounded `Nat`.
-/
namespace RagEngine
open Std (TreeMap TreeSet)

def maxSymbolLen : Nat := 512

inductive GraphError where
  | emptyEntity
  | entityTooLong (len max : Nat)
  | emptyPredicate
  | predicateTooLong (len max : Nat)
  | unknownEntity (id : Nat)
  | selfLoop (entity : Nat)
  | cycle (subject object : Nat)
  | cyclicPayload
  deriving DecidableEq, Repr

def GraphError.message : GraphError → String
  | emptyEntity => "entity text is empty"
  | entityTooLong len max => s!"entity text is {len} bytes, exceeds the {max}-byte ingress clamp"
  | emptyPredicate => "predicate text is empty"
  | predicateTooLong len max =>
    s!"predicate text is {len} bytes, exceeds the {max}-byte ingress clamp"
  | unknownEntity id => s!"entity id {id} does not exist"
  | selfLoop entity => s!"relation would create a self-loop on entity {entity}"
  | cycle subject object =>
    s!"relation {subject} -> {object} would create a cycle " ++
      s!"(a path {object} -> ... -> {subject} already exists)"
  | cyclicPayload => "edge data contains a cycle; refusing to materialize an invalid DAG"

structure Entity where
  id : Nat
  text : String
  deriving DecidableEq, Repr

structure Relation where
  subject : Nat
  predicate : String
  object : Nat
  deriving DecidableEq, Repr

/-- `BTreeMap<EntityId, BTreeMap<EntityId, BTreeSet<String>>>` -/
abbrev Adjacency := TreeMap Nat (TreeMap Nat (TreeSet String))

structure KnowledgeGraph where
  entities : List Entity
  out : Adjacency
  in_ : Adjacency
  byText : TreeMap String Nat
  topo : List Nat

abbrev Outcome (α : Type) := EStateM.Result GraphError KnowledgeGraph α

/-- The graph left behind by a call, whatever its result. -/
def Outcome.after {α : Type} : Outcome α → KnowledgeGraph
  | .ok _ g => g
  | .error _ g => g

namespace Adjacency

def row (m : Adjacency) (a : Nat) : TreeMap Nat (TreeSet String) := m.getD a ∅
def preds (m : Adjacency) (a b : Nat) : TreeSet String := (m.row a).getD b ∅

/-- `entry(a).or_default().entry(b).or_default().insert(p)` -/
def insertTriple (m : Adjacency) (a : Nat) (p : String) (b : Nat) : Adjacency :=
  m.insert a ((m.row a).insert b ((m.preds a b).insert p))

end Adjacency

namespace KnowledgeGraph

def new : KnowledgeGraph := ⟨[], ∅, ∅, ∅, []⟩

def len (g : KnowledgeGraph) : Nat := g.entities.length

def rank (g : KnowledgeGraph) (id : Nat) : Nat := g.topo[id]?.getD 0

def addEntity (g : KnowledgeGraph) (text : String) : Outcome Nat :=
  if text.isEmpty then .error .emptyEntity g
  else if text.utf8ByteSize > maxSymbolLen then
    .error (.entityTooLong text.utf8ByteSize maxSymbolLen) g
  else match g.byText[text]? with
    | some id => .ok id g
    | none =>
      let id := g.entities.length
      .ok id { g with
        entities := g.entities ++ [⟨id, text⟩]
        byText := g.byText.insert text id
        topo := g.topo ++ [0] }

def hasRelation (g : KnowledgeGraph) (subject : Nat) (predicate : String)
    (object : Nat) : Bool :=
  (g.out[subject]?.bind (·[object]?)).any (·.contains predicate)

def insertEdge (g : KnowledgeGraph) (subject : Nat) (predicate : String)
    (object : Nat) : KnowledgeGraph :=
  { g with
    out := g.out.insertTriple subject predicate object
    in_ := g.in_.insertTriple object predicate subject }

/-- `objs.keys()` of the outgoing row. -/
def targets (g : KnowledgeGraph) (v : Nat) : List Nat := (g.out.row v).keys

def canReachLoop (g : KnowledgeGraph) (target : Nat) : Nat → List Bool → List Nat → Bool
  | 0, _, _ => false
  | _ + 1, _, [] => false
  | fuel + 1, visited, v :: queue =>
    if v = target then true
    else
      let found := BreadthFirst.discover (g.targets v) visited
      canReachLoop g target fuel found.1 (queue ++ found.2)

def canReach (g : KnowledgeGraph) (source target : Nat) : Bool :=
  canReachLoop g target g.len (BreadthFirst.markStart g.len source) [source]

/-- The objects of a row that carry at least one predicate. -/
def liveTargets (objs : TreeMap Nat (TreeSet String)) : List Nat :=
  (objs.toList.filter fun cell => !cell.2.isEmpty).map Prod.fst

def rebuildRanks (g : KnowledgeGraph) : Outcome Unit :=
  let final := KahnRank.kahn (fun v => liveTargets (g.out.row v)) g.len
    (g.out.toList.map fun entry => liveTargets entry.2)
  if final.placed ≠ g.len then .error .cyclicPayload g
  else .ok () { g with topo := final.rank }

def addRelation (g : KnowledgeGraph) (subject : Nat) (predicate : String)
    (object : Nat) : Outcome Unit :=
  if subject ≥ g.entities.length then .error (.unknownEntity subject) g
  else if object ≥ g.entities.length then .error (.unknownEntity object) g
  else if subject = object then .error (.selfLoop subject) g
  else if predicate.isEmpty then .error .emptyPredicate g
  else if predicate.utf8ByteSize > maxSymbolLen then
    .error (.predicateTooLong predicate.utf8ByteSize maxSymbolLen) g
  else if g.hasRelation subject predicate object then .ok () g
  else if g.rank subject < g.rank object then .ok () (g.insertEdge subject predicate object)
  else if g.canReach object subject then .error (.cycle subject object) g
  else (g.insertEdge subject predicate object).rebuildRanks

def relations (g : KnowledgeGraph) : List Relation :=
  g.out.toList.flatMap fun (s, objs) =>
    objs.toList.flatMap fun (o, preds) => preds.toList.map fun p => ⟨s, p, o⟩

/-- Equality ignores the rank cache. -/
instance : BEq KnowledgeGraph where
  beq g h := g.entities == h.entities && g.relations == h.relations

/-- The sort key `(topo[id], id)`. -/
def RankOrder (g : KnowledgeGraph) (a b : Nat) : Prop :=
  g.rank a < g.rank b ∨ (g.rank a = g.rank b ∧ a ≤ b)

instance (g : KnowledgeGraph) : DecidableRel g.RankOrder :=
  fun _ _ => inferInstanceAs (Decidable (_ ∨ _))

def topologicalOrder (g : KnowledgeGraph) : List Nat :=
  (List.range g.len).insertionSort g.RankOrder

end KnowledgeGraph

structure Path where
  subject : Nat
  predicate : String
  entities : List Nat
  depths : List Nat
  relations : List Relation
  relationDepths : List Nat
  deriving DecidableEq, Repr

/-- The sort key `(depth, id)`. -/
def DepthOrder (a b : Nat × Nat) : Prop := a.2 < b.2 ∨ (a.2 = b.2 ∧ a.1 ≤ b.1)

instance : DecidableRel DepthOrder := fun _ _ => inferInstanceAs (Decidable (_ ∨ _))

/-- The sort key `(subject, predicate, object)`. -/
def RelationOrder (a b : Relation) : Prop :=
  a.subject < b.subject ∨ (a.subject = b.subject ∧
    (a.predicate < b.predicate ∨ (a.predicate = b.predicate ∧ a.object ≤ b.object)))

instance : DecidableRel RelationOrder := fun _ _ => inferInstanceAs (Decidable (_ ∨ _))

namespace KnowledgeGraph

/-- The two accumulators and the bitmap of the path search. -/
structure Search where
  visited : List Bool
  queue : List (Nat × Nat)
  edges : List (Relation × Nat)

/-- The inner loop of `find_path` over one row of the outgoing map. -/
def scanRow (predicate : String) (v : Nat) (depth : Nat) :
    List (Nat × TreeSet String) → Search → Search
  | [], st => st
  | (o, preds) :: rest, st =>
    if !preds.contains predicate then scanRow predicate v depth rest st
    else
      let edges := st.edges ++ [(⟨v, predicate, o⟩, depth)]
      if !st.visited[o]?.getD false then
        scanRow predicate v depth rest
          ⟨st.visited.set o true, st.queue ++ [(o, depth + 1)], edges⟩
      else scanRow predicate v depth rest { st with edges := edges }

def findPathLoop (g : KnowledgeGraph) (predicate : String) :
    Nat → List (Nat × Nat) → Search → List (Nat × Nat) × List (Relation × Nat)
  | 0, found, st => (found, st.edges)
  | fuel + 1, found, st =>
    match st.queue with
    | [] => (found, st.edges)
    | (v, depth) :: queue =>
      findPathLoop g predicate fuel (found ++ [(v, depth)])
        (scanRow predicate v depth (g.out.row v).toList { st with queue := queue })

def findPath (g : KnowledgeGraph) (subject predicate : String) : Option Path := do
  let anchor ← g.byText[subject]?
  let (found, edges) := findPathLoop g predicate g.len []
    ⟨BreadthFirst.markStart g.len anchor, [(anchor, 0)], []⟩
  let found := found.insertionSort DepthOrder
  let edges := edges.insertionSort fun a b => RelationOrder a.1 b.1
  return {
    subject := anchor
    predicate := predicate
    entities := found.map (·.1)
    depths := found.map (·.2)
    relations := edges.map (·.1)
    relationDepths := edges.map (·.2) }

end KnowledgeGraph

inductive PayloadError where
  | sparseIds (id position : Nat)
  | emptyText
  | textTooLong (len : Nat)
  | duplicateText (text : String)
  | unknownEndpoint (subject object : Nat)
  | selfLoop
  | emptyPredicate
  | predicateTooLong (len : Nat)
  | graph (error : GraphError)
  deriving DecidableEq, Repr

namespace KnowledgeGraph

def loadNode (g : KnowledgeGraph) (idx : Nat) (e : Entity) : Except PayloadError KnowledgeGraph :=
  if e.id ≠ idx then .error (.sparseIds e.id idx)
  else if e.text.isEmpty then .error .emptyText
  else if e.text.utf8ByteSize > maxSymbolLen then .error (.textTooLong e.text.utf8ByteSize)
  else if g.byText.contains e.text then .error (.duplicateText e.text)
  else .ok { g with
    entities := g.entities ++ [e]
    byText := g.byText.insert e.text idx
    topo := g.topo ++ [0] }

def loadNodes : Nat → List Entity → KnowledgeGraph → Except PayloadError KnowledgeGraph
  | _, [], g => .ok g
  | idx, e :: rest, g => (g.loadNode idx e).bind (loadNodes (idx + 1) rest)

def loadEdge (g : KnowledgeGraph) (r : Relation) : Except PayloadError KnowledgeGraph :=
  if r.subject ≥ g.entities.length ∨ r.object ≥ g.entities.length then
    .error (.unknownEndpoint r.subject r.object)
  else if r.subject = r.object then .error .selfLoop
  else if r.predicate.isEmpty then .error .emptyPredicate
  else if r.predicate.utf8ByteSize > maxSymbolLen then
    .error (.predicateTooLong r.predicate.utf8ByteSize)
  else .ok { g with
    out := g.out.insertTriple r.subject r.predicate r.object
    in_ := g.in_.insertTriple r.object r.predicate r.subject }

def loadEdges : List Relation → KnowledgeGraph → Except PayloadError KnowledgeGraph
  | [], g => .ok g
  | r :: rest, g => (g.loadEdge r).bind (loadEdges rest)

/-- Deserialization of the two flat arrays `nodes` and `edges`. -/
def deserialize (nodes : List Entity) (edges : List Relation) :
    Except PayloadError KnowledgeGraph :=
  match (loadNodes 0 nodes new).bind (loadEdges edges) with
  | .error e => .error e
  | .ok g =>
    match g.rebuildRanks with
    | .ok _ ranked => .ok ranked
    | .error e _ => .error (.graph e)

end KnowledgeGraph

end RagEngine
