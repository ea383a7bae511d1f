import VerifiableRag.ZkTls.ProofGenerator

/-!
The sink of validated chains (`cert_verifier.rs`) that the proxy empties, over any run of
handshakes and takes for any servers. `take_for` removes one chain; older ones stay.
-/
namespace ZkTls

/-- The last position whose element satisfies `p`. -/
def rposition {α : Type} (p : α → Bool) (q : List α) : Option Nat :=
  (q.reverse.findIdx? p).map fun i => q.length - 1 - i

/-- `inner` is front first. -/
structure ChainSink where
  inner : List CapturedChain
  max : Nat

namespace ChainSink

def new (max : Nat) : ChainSink := ⟨[], max⟩

def push (sink : ChainSink) (chain : CapturedChain) : ChainSink :=
  let q := if sink.max ≤ sink.inner.length then sink.inner.tail else sink.inner
  { sink with inner := q ++ [chain] }

def takeFor (sink : ChainSink) (server : String) : Option CapturedChain × ChainSink :=
  match rposition (fun c => c.server = server) sink.inner with
  | none => (none, sink)
  | some idx => (sink.inner[idx]?, { sink with inner := sink.inner.eraseIdx idx })

end ChainSink

/-- A validated handshake, or a take by the proxy. -/
inductive SinkCall where
  | push (chain : CapturedChain)
  | takeFor (server : String)

namespace ChainSink

def step (sink : ChainSink) : SinkCall → ChainSink
  | .push chain => sink.push chain
  | .takeFor server => (sink.takeFor server).2

def run (max : Nat) (calls : List SinkCall) : ChainSink := calls.foldl step (new max)

/-- The chains of a server in the sink, the most recently pushed last. -/
def queued (sink : ChainSink) (server : String) : List CapturedChain :=
  sink.inner.filter (·.server = server)

end ChainSink

/-- The proxy keeps at most 64 chains. -/
def proxySink (calls : List SinkCall) : ChainSink := ChainSink.run 64 calls

def extractCaCertificateChain (calls : List SinkCall) (server : String) : Option CapturedChain :=
  ((proxySink calls).takeFor server).1

/-- The handshakes with a server since the last take for it, after one more call. -/
def shaken (server : String) (since : List CapturedChain) : SinkCall → List CapturedChain
  | .push chain => if chain.server = server then since ++ [chain] else since
  | .takeFor s => if s = server then [] else since

def handshakes (server : String) (calls : List SinkCall) : List CapturedChain :=
  calls.foldl (shaken server) []

def SinkCall.isPush : SinkCall → Bool
  | push _ => true
  | takeFor _ => false

/-- `calls` reaches a take for `server` after `before`. -/
def TakesAfter (calls before : List SinkCall) (server : String) : Prop :=
  before ++ [.takeFor server] <+: calls

/-- What the sink promises of every take of a run. -/
structure Disciplined (max : Nat) (calls : List SinkCall) : Prop where
  /-- the most recent chain that is still there -/
  latest : ∀ before server, TakesAfter calls before server →
    ((ChainSink.run max before).takeFor server).1 =
      ((ChainSink.run max before).queued server).getLast?
  /-- no older chain stays -/
  drops : ∀ before server, TakesAfter calls before server →
    ((ChainSink.run max before).takeFor server).2.queued server = []
  /-- a second take without a new handshake is empty-handed -/
  again : ∀ before server middle,
    TakesAfter calls (before ++ .takeFor server :: middle) server →
    (∀ chain, .push chain ∈ middle → chain.server ≠ server) →
    ((ChainSink.run max (before ++ .takeFor server :: middle)).takeFor server).1 = none
  /-- what is taken is of the last handshake, and no take lies between -/
  fresh : ∀ before server chain, TakesAfter calls before server →
    ((ChainSink.run max before).takeFor server).1 = some chain →
    (handshakes server before).getLast? = some chain

/-- At every take the sink holds at most one chain of that server. -/
def Alone (max : Nat) (calls : List SinkCall) : Prop :=
  ∀ before server, TakesAfter calls before server →
    ((ChainSink.run max before).queued server).length ≤ 1

theorem rposition_none {α : Type} {p : α → Bool} {q : List α} (absent : ∀ x ∈ q, p x = false) :
    rposition p q = none := by
  rw [rposition, Option.map_eq_none_iff, List.findIdx?_eq_none_iff]
  intro x member
  exact absent x (List.mem_reverse.mp member)

theorem rposition_last {α : Type} {p : α → Bool} {before after : List α} {x : α} (found : p x = true)
    (last : ∀ y ∈ after, p y = false) :
    rposition p (before ++ x :: after) = some before.length := by
  have behind : after.reverse.findIdx? p = none := by
    rw [List.findIdx?_eq_none_iff]
    intro y member
    exact last y (List.mem_reverse.mp member)
  have turned : (before ++ x :: after).reverse = after.reverse ++ x :: before.reverse := by simp
  rw [rposition, turned, List.findIdx?_append, behind, List.findIdx?_cons, found]
  simp

theorem split_last {α : Type} (p : α → Bool) (q : List α) :
    (∀ x ∈ q, p x = false) ∨
      ∃ before x after, q = before ++ x :: after ∧ p x = true ∧ ∀ y ∈ after, p y = false := by
  induction q with
  | nil => exact Or.inl (fun x member => absurd member List.not_mem_nil)
  | cons x rest ih =>
    rcases ih with absent | ⟨before, y, after, split, found, last⟩
    · cases here : p x with
      | true => exact Or.inr ⟨[], x, rest, rfl, here, absent⟩
      | false => exact Or.inl (List.forall_mem_cons.mpr ⟨here, absent⟩)
    · exact Or.inr ⟨x :: before, y, after, congrArg (x :: ·) split, found, last⟩

namespace ChainSink

/-- All that a take can do. -/
theorem takeFor_cases (sink : ChainSink) (server : String) :
    (sink.queued server = [] ∧ sink.takeFor server = (none, sink)) ∨
      ∃ before chain after, sink.inner = before ++ chain :: after ∧ chain.server = server ∧
        (∀ c ∈ after, c.server ≠ server) ∧
        sink.takeFor server = (some chain, { sink with inner := before ++ after }) := by
  rcases split_last (fun c => decide (c.server = server)) sink.inner with
    absent | ⟨before, chain, after, split, found, last⟩
  · refine Or.inl ⟨List.filter_eq_nil_iff.mpr ?_, ?_⟩
    · intro c member
      exact Bool.eq_false_iff.mp (absent c member)
    · rw [takeFor, rposition_none absent]
  · refine Or.inr ⟨before, chain, after, split, of_decide_eq_true found, ?_, ?_⟩
    · intro c member
      exact of_decide_eq_false (last c member)
    · have position : rposition (fun c => decide (c.server = server)) (before ++ chain :: after) =
          some before.length := rposition_last found last
      rw [takeFor, split, position]
      simp [List.eraseIdx_append_of_length_le]

/-- A take returns the last chain of the server and leaves the others of that server. -/
theorem takeFor_queued (sink : ChainSink) (server : String) :
    (sink.takeFor server).1 = (sink.queued server).getLast? ∧
      (sink.takeFor server).2.queued server = (sink.queued server).dropLast := by
  rcases takeFor_cases sink server with
    ⟨empty, taken⟩ | ⟨before, chain, after, split, same, last, taken⟩
  · rw [taken, empty]
    exact ⟨rfl, rfl⟩
  · have behind : after.filter (fun c => decide (c.server = server)) = [] := by
      rw [List.filter_eq_nil_iff]
      simpa using last
    simp [taken, queued, split, same, behind]

theorem takeFor_other {sink : ChainSink} {server other : String} (differ : other ≠ server) :
    (sink.takeFor other).2.queued server = sink.queued server := by
  rcases takeFor_cases sink other with ⟨_, taken⟩ | ⟨before, chain, after, split, same, _, taken⟩
  · rw [taken]
  · simp [taken, queued, split, same, differ]

theorem takeFor_length (sink : ChainSink) (server : String) :
    (sink.takeFor server).2.inner.length ≤ sink.inner.length := by
  rcases takeFor_cases sink server with ⟨_, taken⟩ | ⟨before, chain, after, split, _, _, taken⟩
  · rw [taken]
  · simp only [taken, split, List.length_append, List.length_cons]
    omega

theorem run_snoc (max : Nat) (calls : List SinkCall) (call : SinkCall) :
    run max (calls ++ [call]) = (run max calls).step call := List.foldl_concat _ _ _ _

theorem step_max (sink : ChainSink) (call : SinkCall) : (sink.step call).max = sink.max := by
  cases call with
  | push chain => rfl
  | takeFor server =>
    rcases takeFor_cases sink server with ⟨_, taken⟩ | ⟨_, _, _, _, _, _, taken⟩ <;>
      rw [step, taken]

theorem run_bounded {max : Nat} (room : 1 ≤ max) (calls : List SinkCall) :
    (run max calls).max = max ∧ (run max calls).inner.length ≤ max := by
  induction calls using List.reverseRecOn with
  | nil => exact ⟨rfl, Nat.zero_le _⟩
  | append_singleton calls call ih =>
    obtain ⟨same, bounded⟩ := ih
    rw [run_snoc, step_max]
    refine ⟨same, ?_⟩
    cases call with
    | takeFor server => exact Nat.le_trans (takeFor_length _ server) bounded
    | push chain =>
      simp only [step, push, same, List.length_append, List.length_singleton]
      split
      · rw [List.length_tail]
        omega
      · omega

theorem push_queued (sink : ChainSink) (chain : CapturedChain) (server : String) :
    (sink.push chain).queued server <:+
      sink.queued server ++ [chain].filter (fun c => decide (c.server = server)) := by
  have kept : (if sink.max ≤ sink.inner.length then sink.inner.tail else sink.inner) <:+
      sink.inner := by
    split
    · exact List.tail_suffix _
    · exact List.suffix_refl _
  rw [queued, push, List.filter_append]
  exact List.suffix_append_self_iff.mpr (kept.filter _)

end ChainSink

theorem handshakes_snoc (server : String) (calls : List SinkCall) (call : SinkCall) :
    handshakes server (calls ++ [call]) = shaken server (handshakes server calls) call :=
  List.foldl_concat _ _ _ _

theorem handshakes_none {server : String} (before : List SinkCall) {middle : List SinkCall}
    (quiet : ∀ chain, .push chain ∈ middle → chain.server ≠ server) :
    handshakes server (before ++ .takeFor server :: middle) = [] := by
  induction middle using List.reverseRecOn with
  | nil => rw [handshakes_snoc, shaken, if_pos rfl]
  | append_singleton middle call ih =>
    have earlier := ih fun chain member => quiet chain (List.mem_append_left _ member)
    rw [← List.cons_append, ← List.append_assoc, handshakes_snoc, earlier]
    cases call with
    | takeFor s => exact ite_self _
    | push chain =>
      exact if_neg (quiet chain (List.mem_append_right _ (List.mem_singleton_self _)))

theorem Alone.earlier {max : Nat} {calls before : List SinkCall} (alone : Alone max calls)
    (reached : before <+: calls) : Alone max before :=
  fun earlier server takes => alone earlier server (takes.trans reached)

theorem TakesAfter.reached {calls before : List SinkCall} {server : String}
    (takes : TakesAfter calls before server) : before <+: calls :=
  (List.prefix_append _ _).trans takes

/-- The chains of a server in the sink are of the handshakes since its last take. -/
theorem queued_handshakes {max : Nat} {calls : List SinkCall} (alone : Alone max calls)
    (server : String) : (ChainSink.run max calls).queued server <:+ handshakes server calls := by
  induction calls using List.reverseRecOn with
  | nil => exact List.suffix_refl _
  | append_singleton calls call ih =>
    have earlier := ih (alone.earlier (List.prefix_append _ _))
    rw [ChainSink.run_snoc, handshakes_snoc]
    cases call with
    | push chain =>
      have pushed := ChainSink.push_queued (ChainSink.run max calls) chain server
      rw [shaken]
      by_cases same : chain.server = server
      · have one : [chain].filter (fun c => decide (c.server = server)) = [chain] := by simp [same]
        rw [one] at pushed
        rw [if_pos same]
        exact pushed.trans (List.suffix_append_self_iff.mpr earlier)
      · have none : [chain].filter (fun c => decide (c.server = server)) = [] := by simp [same]
        rw [none, List.append_nil] at pushed
        rw [if_neg same]
        exact pushed.trans earlier
    | takeFor s =>
      rw [shaken, ChainSink.step]
      by_cases same : s = server
      · subst same
        have few := alone calls s (List.prefix_refl _)
        rw [(ChainSink.takeFor_queued _ s).2, if_pos rfl, List.suffix_nil]
        rw [← List.length_eq_zero_iff, List.length_dropLast]
        omega
      · rw [if_neg same, ChainSink.takeFor_other same]
        exact earlier

theorem disciplined_iff (max : Nat) (calls : List SinkCall) :
    Disciplined max calls ↔ Alone max calls := by
  constructor
  · intro disciplined before server takes
    have empty := disciplined.drops before server takes
    rw [(ChainSink.takeFor_queued _ server).2, ← List.length_eq_zero_iff, List.length_dropLast] at empty
    omega
  · intro alone
    have fresh (before : List SinkCall) (server : String) (takes : TakesAfter calls before server)
        (chain : CapturedChain)
        (taken : ((ChainSink.run max before).takeFor server).1 = some chain) :
        (handshakes server before).getLast? = some chain := by
      rw [(ChainSink.takeFor_queued _ server).1, List.getLast?_eq_some_iff] at taken
      obtain ⟨older, queued⟩ := taken
      obtain ⟨start, since⟩ := queued_handshakes (alone.earlier takes.reached) server
      rw [List.getLast?_eq_some_iff]
      exact ⟨start ++ older, by rw [← since, queued, List.append_assoc]⟩
    constructor
    · intro before server _
      exact (ChainSink.takeFor_queued _ server).1
    · intro before server takes
      have few := alone before server takes
      rw [(ChainSink.takeFor_queued _ server).2, ← List.length_eq_zero_iff, List.length_dropLast]
      omega
    · intro before server middle takes quiet
      rw [Option.eq_none_iff_forall_ne_some]
      intro chain taken
      have last := fresh _ server takes chain taken
      rw [handshakes_none before quiet] at last
      cases last
    · intro before server chain takes
      exact fresh before server takes chain

/-- A chain is there with at most this many chains behind it. -/
def HeldBefore (sink : ChainSink) (chain : CapturedChain) (n : Nat) : Prop :=
  ∃ front behind, sink.inner = front ++ chain :: behind ∧ behind.length ≤ n

theorem HeldBefore.push {sink : ChainSink} {chain : CapturedChain} {n : Nat}
    (held : HeldBefore sink chain n) (room : n + 1 < sink.max) (other : CapturedChain) :
    HeldBefore (sink.push other) chain (n + 1) := by
  obtain ⟨front, behind, split, few⟩ := held
  have longer : (behind ++ [other]).length ≤ n + 1 := by simpa using few
  by_cases full : sink.max ≤ sink.inner.length
  · cases front with
    | nil =>
      rw [split, List.nil_append, List.length_cons] at full
      omega
    | cons evicted front =>
      refine ⟨front, behind ++ [other], ?_, longer⟩
      rw [ChainSink.push, if_pos full, split]
      simp
  · refine ⟨front, behind ++ [other], ?_, longer⟩
    rw [ChainSink.push, if_neg full, split]
    simp

theorem HeldBefore.takeFor {sink : ChainSink} {chain : CapturedChain} {n : Nat}
    (held : HeldBefore sink chain n) {server : String} (differ : server ≠ chain.server) :
    HeldBefore (sink.takeFor server).2 chain n := by
  obtain ⟨front, behind, split, few⟩ := held
  rcases sink.takeFor_cases server with ⟨_, taken⟩ | ⟨before, x, after, parts, same, _, taken⟩
  · rw [taken]
    exact ⟨front, behind, split, few⟩
  · have another : x ≠ chain := by
      rintro rfl
      exact differ same.symm
    rw [taken]
    rw [split] at parts
    -- the removed chain stands in front of it or behind it
    rcases List.append_eq_append_iff.mp parts with ⟨mid, rfl, rest⟩ | ⟨mid, rfl, rest⟩
    · cases mid with
      | nil =>
        injection rest with first _
        exact absurd first.symm another
      | cons first mid =>
        rw [List.cons_append] at rest
        obtain ⟨first_eq, behind_eq⟩ := List.cons.inj rest
        subst first_eq
        have split_length := congrArg List.length behind_eq
        rw [List.length_append, List.length_cons] at split_length
        refine ⟨front, mid ++ after, by simp, ?_⟩
        rw [List.length_append]
        omega
    · cases mid with
      | nil =>
        injection rest with first _
        exact absurd first another
      | cons first mid =>
        injection rest with first_eq after_eq
        subst first_eq after_eq
        exact ⟨before ++ mid, behind, by simp, few⟩

/-- Only a take for its server or as many later handshakes as the sink has places remove a chain. -/
theorem held_until_evicted {max : Nat} (before : List SinkCall) (chain : CapturedChain)
    {later : List SinkCall} (untaken : .takeFor chain.server ∉ later)
    (room : later.countP SinkCall.isPush < max) :
    HeldBefore (ChainSink.run max (before ++ .push chain :: later)) chain
      (later.countP SinkCall.isPush) := by
  induction later using List.reverseRecOn with
  | nil =>
    rw [ChainSink.run_snoc]
    exact ⟨_, [], rfl, Nat.le_refl 0⟩
  | append_singleton later call ih =>
    rw [List.countP_append, List.countP_singleton] at room ⊢
    have earlier := ih (fun member => untaken (List.mem_append_left _ member)) (by omega)
    rw [← List.cons_append, ← List.append_assoc, ChainSink.run_snoc]
    cases call with
    | push other =>
      refine earlier.push ?_ other
      rw [(ChainSink.run_bounded (by omega) _).1]
      exact room
    | takeFor server =>
      refine earlier.takeFor ?_
      rintro rfl
      exact untaken (List.mem_append_right _ (List.mem_singleton_self _))

/-- The sink is bounded and loses a chain only to its server's takes or to eviction; its takes are
    disciplined exactly when each finds at most one chain of its server. -/
theorem chain_sink_discipline_iff {max : Nat} (room : 1 ≤ max) (calls : List SinkCall) :
    (∀ before, before <+: calls → (ChainSink.run max before).inner.length ≤ max) ∧
    (∀ before chain later, before ++ .push chain :: later <+: calls →
      .takeFor chain.server ∉ later → later.countP SinkCall.isPush < max →
      chain ∈ (ChainSink.run max (before ++ .push chain :: later)).inner) ∧
    (Disciplined max calls ↔ Alone max calls) := by
  refine ⟨?_, ?_, disciplined_iff max calls⟩
  · intro before _
    exact (ChainSink.run_bounded room before).2
  · intro before chain later _ untaken few
    obtain ⟨front, behind, split, _⟩ := held_until_evicted before chain untaken few
    rw [split]
    exact List.mem_append_right _ List.mem_cons_self

section Sample

def leaf (server : String) (certificate : UInt8) : CapturedChain := ⟨server, [certificate], []⟩

/-- The servers' handshakes interleave, and a take follows each of `a.example`. -/
def interleaved : List SinkCall :=
  [.push (leaf "a.example" 1), .push (leaf "b.example" 2), .takeFor "a.example",
    .push (leaf "a.example" 3), .takeFor "a.example"]

theorem interleaved_alone : Alone 64 interleaved := by
  rintro before server ⟨rest, split⟩
  have place : interleaved[before.length]? = some (.takeFor server) := by simp [← split]
  have reached : before = interleaved.take before.length := by simp [← split]
  rw [reached]
  generalize before.length = n at place
  rcases n with _ | _ | _ | _ | _ | n <;> cases place <;> decide

theorem chain_sink_discipline_interleaved : Disciplined 64 interleaved :=
  (chain_sink_discipline_iff (by decide) interleaved).2.2.mpr interleaved_alone

/-- Two handshakes with a server, and a take for each of two proofs: the second is of the first
    handshake. -/
theorem older_chain_taken :
    let calls := [.push (leaf "a.example" 1), .push (leaf "a.example" 2), .takeFor "a.example"]
    extractCaCertificateChain calls "a.example" = some (leaf "a.example" 1) ∧
      ¬ Disciplined 64 (calls ++ [.takeFor "a.example"]) := by
  intro calls
  have older : extractCaCertificateChain calls "a.example" = some (leaf "a.example" 1) := rfl
  refine ⟨older, ?_⟩
  intro disciplined
  have none := disciplined.again [.push (leaf "a.example" 1), .push (leaf "a.example" 2)]
    "a.example" [] (List.prefix_refl _) (fun _ member => absurd member List.not_mem_nil)
  cases older.symm.trans none

end Sample

end ZkTls
