import VerifiableRag.Library.CodePoints
import VerifiableRag.Library.Results

/-!
`_abi_args_for_payload`: the arguments of a contract call, taken from a payload by the names
of the function's ABI.
-/
namespace Flare
open CodePoints Results

/-- An input of a function or a component of one; only a struct has components. -/
structure AbiInput where
  name : Str
  components : List AbiInput

namespace AbiInput

/-- The name as payloads spell it, less its leading underscores. -/
def key (input : AbiInput) : Str := input.name.dropWhile (· = 0x5F)

def isStruct (input : AbiInput) : Bool := !input.components.isEmpty

/-- `P` of every component gives `P` of the input. -/
theorem induct {P : AbiInput → Prop}
    (step : ∀ input : AbiInput, (∀ comp ∈ input.components, P comp) → P input) :
    ∀ input, P input := by
  apply @AbiInput.rec P fun comps => ∀ comp ∈ comps, P comp
  · intro name components below
    exact step ⟨name, components⟩ below
  · nofun
  · intro first rest here later
    exact List.forall_mem_cons.mpr ⟨here, later⟩

end AbiInput

/-- A value of a payload: Python's `None`, a `dict`, or anything else. -/
inductive PyValue (α : Type) where
  | none
  | dict (members : List (Str × PyValue α))
  | other (a : α)

def PyValue.isDict {α : Type} : PyValue α → Bool
  | .dict _ => true
  | _ => false

/-- An argument: a value as it stands, or the list for a struct. -/
inductive Arg (α : Type) where
  | value (v : PyValue α)
  | flat (items : List (Arg α))

inductive TransactionError where
  /-- payload '{name}' must be a dict mapping the struct components for {fn_name} -/
  | notDict (name fnName : Str)
  /-- payload '{name}' missing component '{comp}' — expected {comp_names} for {fn_name} -/
  | missingComponent (name comp : Str) (compNames : List Str) (fnName : Str)
  /-- payload missing '{name}' required by {fn_name}({required}) -/
  | missingInput (name fnName : Str) (required : List Str)

section Code
variable {α : Type} (fnName : Str)

mutual

/-- `_value_for`; `_MISSING` is `none`. -/
def valueFor (source : List (Str × PyValue α)) :
    AbiInput → Except TransactionError (Option (Arg α))
  | ⟨name, components⟩ =>
    match source.lookup (AbiInput.key ⟨name, components⟩) with
    | none => .ok none
    | some value =>
      if components.isEmpty then .ok (some (.value value))
      else match value with
        | .dict members => do
          let flat ← collect members (fun comp =>
            .missingComponent name comp.name (components.map AbiInput.name) fnName) components
          return some (.flat flat)
        | _ => .error (.notDict name fnName)

/-- The loop over inputs; the first one that is missing raises. -/
def collect (source : List (Str × PyValue α)) (missing : AbiInput → TransactionError) :
    List AbiInput → Except TransactionError (List (Arg α))
  | [] => .ok []
  | input :: rest => do
    match ← valueFor source input with
    | none => .error (missing input)
    | some value => return value :: (← collect source missing rest)

end

def abiArgsForPayload (inputs : List AbiInput) (payload : List (Str × PyValue α)) :
    Except TransactionError (List (Arg α)) :=
  collect fnName payload (fun input => .missingInput input.name fnName (inputs.map AbiInput.name))
    inputs

end Code

section Paths
variable {α : Type}

/-- What stands in a value at a path of names. -/
def valueAt : List Str → PyValue α → Option (PyValue α)
  | [], value => some value
  | name :: path, .dict members => (members.lookup name).bind (valueAt path)
  | _ :: _, _ => none

/-- The inputs and components of an ABI, each with its path of stripped names. -/
inductive Names : List AbiInput → List Str → AbiInput → Prop where
  | here {inputs : List AbiInput} {input : AbiInput} (listed : input ∈ inputs) :
      Names inputs [input.key] input
  | inside {inputs : List AbiInput} {input node : AbiInput} {path : List Str}
      (listed : input ∈ inputs) (below : Names input.components path node) :
      Names inputs (input.key :: path) node

mutual

/-- An input of the ABI with, at each scalar, the value at the path of its name. -/
def mirror (value : List Str → PyValue α) : AbiInput → Arg α
  | ⟨name, components⟩ =>
    if components.isEmpty then .value (value [AbiInput.key ⟨name, components⟩])
    else .flat (mirrors (fun path => value (AbiInput.key ⟨name, components⟩ :: path)) components)

def mirrors (value : List Str → PyValue α) : List AbiInput → List (Arg α)
  | [] => []
  | input :: rest => mirror value input :: mirrors value rest

end

/-- What an input asks for at its path: a value, and a dict where it is a struct. -/
def Met (node : AbiInput) (found : Option (PyValue α)) : Prop :=
  ∃ value, found = some value ∧ (node.isStruct → value.isDict)

/-- Two payloads look alike to an input: in the value of a scalar, in the kind of a struct's. -/
def Alike (node : AbiInput) (found found' : Option (PyValue α)) : Prop :=
  if node.isStruct then found.map PyValue.isDict = found'.map PyValue.isDict else found = found'

theorem names_iff {inputs : List AbiInput} {path : List Str} {node : AbiInput} :
    Names inputs path node ↔ ∃ input ∈ inputs, (path = [input.key] ∧ node = input) ∨
      ∃ rest, path = input.key :: rest ∧ Names input.components rest node := by
  constructor
  · intro named
    cases named with
    | here listed => exact ⟨_, listed, Or.inl ⟨rfl, rfl⟩⟩
    | inside listed below => exact ⟨_, listed, Or.inr ⟨_, rfl, below⟩⟩
  · rintro ⟨input, listed, ⟨rfl, rfl⟩ | ⟨rest, rfl, below⟩⟩
    · exact Names.here listed
    · exact Names.inside listed below

/-- Everything an input and its components ask for is there. -/
def AllMet (source : List (Str × PyValue α)) (inputs : List AbiInput) : Prop :=
  ∀ path node, Names inputs path node → Met node (valueAt path (.dict source))

theorem allMet_iff {source : List (Str × PyValue α)} {inputs : List AbiInput} :
    AllMet source inputs ↔ ∀ input ∈ inputs, ∃ value, source.lookup input.key = some value ∧
      (input.isStruct → ∃ members, value = .dict members ∧ AllMet members input.components) := by
  constructor
  · intro met input listed
    obtain ⟨value, found, kind⟩ := met _ _ (Names.here listed)
    rw [valueAt, Option.bind_eq_some_iff] at found
    obtain ⟨value', found, same⟩ := found
    cases same
    refine ⟨value, found, ?_⟩
    intro struct
    cases value with
    | dict members =>
      refine ⟨members, rfl, ?_⟩
      intro path node below
      have inside := met _ _ (Names.inside listed below)
      rw [valueAt, found] at inside
      exact inside
    | none | other => cases kind struct
  · intro each path node named
    obtain ⟨input, listed, place⟩ := names_iff.mp named
    obtain ⟨value, found, below⟩ := each input listed
    rcases place with ⟨rfl, rfl⟩ | ⟨rest, rfl, inside⟩
    · refine ⟨value, by rw [valueAt, found]; rfl, ?_⟩
      intro struct
      obtain ⟨members, rfl, _⟩ := below struct
      rfl
    · have struct : input.isStruct := by
        obtain ⟨comp, member, _⟩ := names_iff.mp inside
        simp [AbiInput.isStruct, List.ne_nil_of_mem member]
      obtain ⟨members, rfl, met⟩ := below struct
      rw [valueAt, found]
      exact met rest node inside

end Paths

section Mapping
variable {α : Type} {fnName : Str} {source : List (Str × PyValue α)}

/-- The value of a payload at a path; the default is read nowhere. -/
def leaf (source : List (Str × PyValue α)) (path : List Str) : PyValue α :=
  (valueAt path (.dict source)).getD .none

theorem leaf_inside {name : Str} {members : List (Str × PyValue α)}
    (found : source.lookup name = some (.dict members)) :
    (fun path => leaf source (name :: path)) = leaf members := by
  funext path
  rw [leaf, valueAt, found]
  rfl

theorem collect_ok {missing : AbiInput → TransactionError} {inputs : List AbiInput}
    (each : ∀ input ∈ inputs, ∀ arg, valueFor fnName source input = .ok (some arg) ↔
      AllMet source [input] ∧ mirror (leaf source) input = arg) {args : List (Arg α)} :
    collect fnName source missing inputs = .ok args ↔
      AllMet source inputs ∧ mirrors (leaf source) inputs = args := by
  induction inputs generalizing args with
  | nil =>
    rw [collect, Except.ok.injEq, mirrors]
    exact (and_iff_right (allMet_iff.mpr (by simp))).symm
  | cons input rest ih =>
    rw [List.forall_mem_cons] at each
    have split : AllMet source (input :: rest) ↔ AllMet source [input] ∧ AllMet source rest := by
      rw [allMet_iff, allMet_iff, allMet_iff, List.forall_mem_cons, List.forall_mem_singleton]
    rw [collect, except_bind_ok, split, mirrors]
    constructor
    · rintro ⟨_ | value, here, later⟩
      · cases later
      · obtain ⟨values, more, same⟩ := except_bind_ok.mp later
        cases same
        obtain ⟨met, rfl⟩ := (each.1 value).mp here
        obtain ⟨met', rfl⟩ := (ih each.2).mp more
        exact ⟨⟨met, met'⟩, rfl⟩
    · rintro ⟨⟨met, met'⟩, rfl⟩
      refine ⟨_, (each.1 _).mpr ⟨met, rfl⟩, ?_⟩
      exact except_bind_ok.mpr ⟨_, (ih each.2).mpr ⟨met', rfl⟩, rfl⟩

theorem valueFor_ok (source : List (Str × PyValue α)) (input : AbiInput) (arg : Arg α) :
    valueFor fnName source input = .ok (some arg) ↔
      AllMet source [input] ∧ mirror (leaf source) input = arg := by
  induction input using AbiInput.induct generalizing source arg with
  | step input ih =>
    obtain ⟨name, components⟩ := input
    rw [valueFor, allMet_iff, List.forall_mem_singleton, mirror]
    cases found : source.lookup (AbiInput.key ⟨name, components⟩) with
    | none => exact iff_of_false nofun (by simp)
    | some value =>
      cases scalar : components.isEmpty with
      | true =>
        have leafed : leaf source [AbiInput.key ⟨name, components⟩] = value := by
          rw [leaf, valueAt, found]
          rfl
        simp [AbiInput.isStruct, scalar, leafed]
      | false =>
        have struct : AbiInput.isStruct ⟨name, components⟩ := by simp [AbiInput.isStruct, scalar]
        cases value with
        | none => exact iff_of_false nofun (by simp [struct])
        | other a => exact iff_of_false nofun (by simp [struct])
        | dict members =>
          simp only [Bool.false_eq_true, if_false, leaf_inside found, except_bind_ok]
          constructor
          · rintro ⟨flat, collected, same⟩
            cases same
            obtain ⟨met, rfl⟩ := (collect_ok fun comp listed => ih comp listed members).mp collected
            exact ⟨⟨_, rfl, fun _ => ⟨members, rfl, met⟩⟩, rfl⟩
          · rintro ⟨⟨value, same, below⟩, rfl⟩
            cases same
            obtain ⟨_, same, met⟩ := below struct
            cases same
            exact ⟨_, (collect_ok fun comp listed => ih comp listed members).mpr ⟨met, rfl⟩, rfl⟩

theorem collect_congr {source' : List (Str × PyValue α)} {missing : AbiInput → TransactionError}
    {inputs : List AbiInput}
    (each : ∀ input ∈ inputs, valueFor fnName source input = valueFor fnName source' input) :
    collect fnName source missing inputs = collect fnName source' missing inputs := by
  induction inputs with
  | nil => rfl
  | cons input rest ih =>
    rw [List.forall_mem_cons] at each
    rw [collect, collect, each.1, ih each.2]

/-- Two payloads look alike to all of an ABI. -/
def AllAlike (source source' : List (Str × PyValue α)) (inputs : List AbiInput) : Prop :=
  ∀ path node, Names inputs path node →
    Alike node (valueAt path (.dict source)) (valueAt path (.dict source'))

theorem allAlike_below {source' members members' : List (Str × PyValue α)} {input : AbiInput}
    (alike : AllAlike source source' [input]) (found : source.lookup input.key = some (.dict members))
    (found' : source'.lookup input.key = some (.dict members')) {comp : AbiInput}
    (listed : comp ∈ input.components) : AllAlike members members' [comp] := by
  intro path node named
  have inside : Names input.components path node := by
    obtain ⟨input', same, place⟩ := names_iff.mp named
    cases List.mem_singleton.mp same
    exact names_iff.mpr ⟨comp, listed, place⟩
  have here := alike _ _ (Names.inside (List.mem_singleton_self input) inside)
  rw [valueAt, valueAt, found, found'] at here
  exact here

theorem valueFor_congr {source' : List (Str × PyValue α)} {input : AbiInput}
    (alike : AllAlike source source' [input]) :
    valueFor fnName source input = valueFor fnName source' input := by
  induction input using AbiInput.induct generalizing source source' with
  | step input ih =>
    have here := alike _ _ (Names.here (List.mem_singleton_self input))
    rw [Alike, valueAt, valueAt] at here
    obtain ⟨name, components⟩ := input
    rw [valueFor, valueFor]
    cases scalar : components.isEmpty with
    | true =>
      rw [if_neg (by simp [AbiInput.isStruct, scalar])] at here
      have same : source.lookup (AbiInput.key ⟨name, components⟩) =
          source'.lookup (AbiInput.key ⟨name, components⟩) := by
        simpa [valueAt] using here
      rw [same]
    | false =>
      rw [if_pos (by simp [AbiInput.isStruct, scalar])] at here
      cases found : source.lookup (AbiInput.key ⟨name, components⟩) with
      | none =>
        cases found' : source'.lookup (AbiInput.key ⟨name, components⟩) with
        | none => rfl
        | some value' => simp [found, found', valueAt] at here
      | some value =>
        cases found' : source'.lookup (AbiInput.key ⟨name, components⟩) with
        | none => simp [found, found', valueAt] at here
        | some value' =>
          have kinds : value.isDict = value'.isDict := by simpa [found, found', valueAt] using here
          cases value with
          | dict members =>
            cases value' with
            | dict members' =>
              have below : ∀ comp ∈ components,
                  valueFor fnName members comp = valueFor fnName members' comp :=
                fun comp listed => ih comp listed (allAlike_below alike found found' listed)
              simp only [Bool.false_eq_true, if_false]
              rw [collect_congr below]
            | none | other => cases kinds
          | none | other =>
            cases value' with
            | dict members' => cases kinds
            | none | other => rfl

end Mapping

section Faithful
variable {α : Type} (fnName : Str) (inputs : List AbiInput) (payload : List (Str × PyValue α))

/-- Some path is missing, or a struct's value is no dict. -/
def Unmet : Prop :=
  ∃ path node, Names inputs path node ∧
    (valueAt path (.dict payload) = none ∨
      ∃ value, valueAt path (.dict payload) = some value ∧ node.isStruct ∧ value.isDict = false)

/-- Arguments that follow the ABI, values at the paths of their names, and nothing else read. -/
structure MapsStructs : Prop where
  raises : (∃ e, abiArgsForPayload fnName inputs payload = .error e) ↔ Unmet inputs payload
  mirrors : ∀ args, abiArgsForPayload fnName inputs payload = .ok args →
    args = mirrors (leaf payload) inputs
  reads : ∀ args, abiArgsForPayload fnName inputs payload = .ok args → ∀ path node,
    Names inputs path node → valueAt path (.dict payload) = some (leaf payload path)
  blind : ∀ payload', AllAlike payload payload' inputs →
    abiArgsForPayload fnName inputs payload' = abiArgsForPayload fnName inputs payload

theorem unmet_iff : Unmet inputs payload ↔ ¬ AllMet payload inputs := by
  constructor
  · rintro ⟨path, node, named, fault⟩ met
    obtain ⟨value, found, kind⟩ := met path node named
    rcases fault with missing | ⟨value', found', struct, other⟩
    · rw [found] at missing
      cases missing
    · rw [found] at found'
      cases found'
      rw [kind struct] at other
      cases other
  · intro unmet
    simp only [AllMet, not_forall] at unmet
    obtain ⟨path, node, named, fault⟩ := unmet
    refine ⟨path, node, named, ?_⟩
    cases found : valueAt path (.dict payload) with
    | none => exact Or.inl rfl
    | some value =>
      right
      refine ⟨value, rfl, ?_⟩
      rw [found] at fault
      by_contra sound
      apply fault
      refine ⟨value, rfl, ?_⟩
      intro struct
      by_contra other
      exact sound ⟨struct, Bool.eq_false_iff.mpr other⟩

theorem maps_structs : MapsStructs fnName inputs payload := by
  have collected := fun args => @collect_ok α fnName payload
    (fun input => .missingInput input.name fnName (inputs.map AbiInput.name)) inputs
    (fun input _ arg => valueFor_ok payload input arg) args
  refine ⟨?_, fun args done => ((collected args).mp done).2.symm, ?_, ?_⟩
  · rw [unmet_iff]
    constructor
    · rintro ⟨e, failed⟩ met
      have done := (collected _).mpr ⟨met, rfl⟩
      rw [abiArgsForPayload, done] at failed
      cases failed
    · intro unmet
      cases result : abiArgsForPayload fnName inputs payload with
      | error e => exact ⟨e, rfl⟩
      | ok args => exact absurd ((collected args).mp result).1 unmet
  · intro args done path node named
    obtain ⟨value, found, _⟩ := ((collected args).mp done).1 path node named
    rw [leaf, found]
    rfl
  · intro payload' alike
    apply Eq.symm
    apply collect_congr
    intro input listed
    apply valueFor_congr
    intro path node named
    apply alike path node
    obtain ⟨input', same, place⟩ := names_iff.mp named
    cases List.mem_singleton.mp same
    exact names_iff.mpr ⟨input, listed, place⟩

end Faithful

end Flare
