import VerifiableRag.Flare.Failover

/-!
`liveness`: three `_rpc` calls one after the other, among any other calls of the pool.
-/
namespace Flare
open Runs

/-- What `eth_syncing` gives: `False`, `None`, or a status. -/
inductive Syncing where
  | no
  | null
  | status (text : String)
  deriving DecidableEq

def Syncing.synced : Syncing → Bool
  | .no | .null => true
  | .status _ => false

structure Block where
  number : ℤ
  timestamp : ℤ
  deriving DecidableEq

inductive Reply where
  | chainId (cid : ℤ)
  | syncing (syncing : Syncing)
  | block (latest : Block)
  deriving DecidableEq

structure NetworkStatus where
  chainId : ℤ
  latestBlock : ℤ
  blockAgeS : ℤ
  connected : Bool
  deriving DecidableEq

def maxAllowableBlockDelayS : ℤ := 30

inductive LivenessError where
  /-- expected chain id {expected} (Coston2), got {cid} from {active_rpc_url} -/
  | wrongNetwork (expected cid : ℤ) (url : String)
  /-- `RpcUnavailableError` of a call -/
  | rpcUnavailable (message : String)
  /-- RPC node is still syncing: {syncing} -/
  | stillSyncing (text : String)
  /-- RPC chain is stale: latest block is {block_age}s old -/
  | stale (blockAge : ℤ)
  /-- what a call raised, as it is -/
  | raised
  deriving DecidableEq

/-- Where `liveness` stands; `clock` is the `int(time.time())` of the verdict. -/
inductive Stage where
  | ready
  | chainId
  | syncing (cid : ℤ)
  | getBlock (cid : ℤ)
  | returned (status : NetworkStatus) (clock : ℤ)
  | failed (error : LivenessError)
  deriving DecidableEq

/-- An answered call: who answered, how many endpoints were passed over before, and what. -/
structure Report where
  endpoint : ℕ
  passed : ℕ
  reply : Reply
  deriving DecidableEq

/-- `reports` lists the answers of this `liveness` in order; nothing reads it. -/
structure Live where
  pool : Pool
  stage : Stage
  reports : List Report

inductive LiveEvent where
  | begin
  /-- an event of another call, or a look or a failure of our own -/
  | pool (e : RpcEvent)
  /-- the endpoint at hand answers our call -/
  | answer (reply : Reply) (clock : ℤ)

namespace Live
variable (expected : ℤ) (task : ℕ) (s : Live)

/-- `await self._rpc(factory, what)`, up to its first look. -/
def call (what : String) (stage : Stage) (reports : List Report) (pool : Pool) : Live :=
  ⟨pool.enter task (.looking ⟨what, 0, [], []⟩), stage, reports⟩

/-- A call that failed ends `liveness` too. -/
def settle : Live :=
  match s.pool.rpcs task with
  | .unavailable message _ => { s with stage := .failed (.rpcUnavailable message) }
  | .raised _ => { s with stage := .failed .raised }
  | _ => s

/-- What `liveness` does with an answer. -/
def take (reply : Reply) (clock : ℤ) (reports : List Report) (pool : Pool) : Option Live :=
  match s.stage, reply with
  | .chainId, .chainId cid =>
    if cid ≠ expected then
      some ⟨pool, .failed (.wrongNetwork expected cid (pool.urls.getD pool.activeIndex "")), reports⟩
    else some (call task "syncing" (.syncing cid) reports pool)
  | .syncing cid, .syncing syncing =>
    match syncing with
    | .status text => some ⟨pool, .failed (.stillSyncing text), reports⟩
    | _ => some (call task "get_block" (.getBlock cid) reports pool)
  | .getBlock cid, .block latest =>
    let blockAge := clock - latest.timestamp
    if maxAllowableBlockDelayS < blockAge then some ⟨pool, .failed (.stale blockAge), reports⟩
    else some ⟨pool, .returned ⟨cid, latest.number, blockAge, true⟩ clock, reports⟩
  | _, _ => none

/-- `none` where the event cannot happen. -/
def step : LiveEvent → Option Live
  | .begin =>
    match s.stage with
    | .ready => some (call task "chain_id" .chainId [] s.pool)
    | _ => none
  | .pool e =>
    match e with
    | .start other _ | .succeed other =>
      if other = task then none else (s.pool.step e).map ({ s with pool := · })
    | _ => (s.pool.step e).map fun pool => settle task { s with pool }
  | .answer reply clock =>
    match s.pool.rpcs task with
    | .awaiting rpc =>
      take expected task s reply clock
        (s.reports ++ [⟨rpc.idx, rpc.past.length, reply⟩]) (s.pool.succeed task rpc)
    | _ => none

end Live

/-- A new client, before `liveness` is called. -/
def newLive (now : ℚ) (urls : List String) : Live := ⟨newPool now urls, .ready, []⟩

section Property

/-- One endpoint reported the chain, was synced and gave the block of the status; and no other
    endpoint was asked without its chain. -/
structure OneNode (expected : ℤ) (reports : List Report) (status : NetworkStatus) (clock : ℤ) :
    Prop where
  node : ∃ i latest syncing,
    (∃ r ∈ reports, r.endpoint = i ∧ r.reply = .chainId expected) ∧
    (∃ r ∈ reports, r.endpoint = i ∧ r.reply = .syncing syncing) ∧ syncing.synced ∧
    (∃ r ∈ reports, r.endpoint = i ∧ r.reply = .block latest) ∧
    status = ⟨expected, latest.number, clock - latest.timestamp, true⟩
  fresh : status.blockAgeS ≤ maxAllowableBlockDelayS
  checked : ∀ r ∈ reports, ∃ r' ∈ reports, r'.endpoint = r.endpoint ∧ r'.reply = .chainId expected

/-- As many endpoints are quarantined or fail in the last call as in the two calls before. -/
def Steady (task : ℕ) (s : Live) (e : LiveEvent) : Prop :=
  ∀ cid latest clock rpc, s.stage = .getBlock cid → e = .answer (.block latest) clock →
    s.pool.rpcs task = .awaiting rpc → clock - latest.timestamp ≤ maxAllowableBlockDelayS →
    ∀ r ∈ s.reports, r.passed = rpc.past.length

/-- What is known of the reports at each stage. -/
def Known (expected : ℤ) (s : Live) : Prop :=
  match s.stage with
  | .ready | .chainId => s.reports = []
  | .syncing cid => cid = expected ∧ ∃ i, s.reports = [⟨i, i, .chainId cid⟩]
  | .getBlock cid => cid = expected ∧ ∃ i j syncing, syncing.synced ∧
      s.reports = [⟨i, i, .chainId cid⟩, ⟨j, j, .syncing syncing⟩]
  | .returned status clock => OneNode expected s.reports status clock
  | .failed _ => True

end Property

section Steps
variable {expected : ℤ} {task : ℕ} {s s' : Live} {e : LiveEvent}

theorem settle_cases (task : ℕ) (s : Live) :
    (s.settle task).pool = s.pool ∧ (s.settle task).reports = s.reports ∧
      ((s.settle task).stage = s.stage ∨ ∃ error, (s.settle task).stage = .failed error) := by
  unfold Live.settle
  split
  · exact ⟨rfl, rfl, Or.inr ⟨_, rfl⟩⟩
  · exact ⟨rfl, rfl, Or.inr ⟨_, rfl⟩⟩
  · exact ⟨rfl, rfl, Or.inl rfl⟩

/-- The verdict on an answer: a failure, the next call, or a status. -/
theorem take_cases {reply : Reply} {clock : ℤ} {reports : List Report} {pool : Pool}
    (taken : s.take expected task reply clock reports pool = some s') :
    (∃ error, s' = ⟨pool, .failed error, reports⟩ ∧ ∀ cid latest, s.stage = .getBlock cid →
      reply = .block latest → maxAllowableBlockDelayS < clock - latest.timestamp) ∨
    (s.stage = .chainId ∧ reply = .chainId expected ∧
      s' = Live.call task "syncing" (.syncing expected) reports pool) ∨
    (∃ cid syncing, s.stage = .syncing cid ∧ reply = .syncing syncing ∧ syncing.synced ∧
      s' = Live.call task "get_block" (.getBlock cid) reports pool) ∨
    ∃ cid latest, s.stage = .getBlock cid ∧ reply = .block latest ∧
      clock - latest.timestamp ≤ maxAllowableBlockDelayS ∧ s' =
        ⟨pool, .returned ⟨cid, latest.number, clock - latest.timestamp, true⟩ clock, reports⟩ := by
  unfold Live.take at taken
  split at taken
  · rename_i cid here
    split at taken
    · cases taken
      refine Or.inl ⟨_, rfl, ?_⟩
      intro cid' latest there
      rw [here] at there
      cases there
    · rename_i same
      cases taken
      rw [ne_eq, not_not] at same
      exact Or.inr (Or.inl ⟨here, by rw [same], by rw [same]⟩)
  · rename_i cid syncing here
    split at taken
    · cases taken
      refine Or.inl ⟨_, rfl, ?_⟩
      intro cid' latest there
      rw [here] at there
      cases there
    · rename_i done
      cases taken
      refine Or.inr (Or.inr (Or.inl ⟨cid, syncing, here, rfl, ?_, rfl⟩))
      cases syncing with
      | no | null => rfl
      | status text => exact absurd rfl (done text)
  · rename_i cid latest here
    dsimp only at taken
    split at taken
    · rename_i stale
      cases taken
      refine Or.inl ⟨_, rfl, ?_⟩
      intro cid' latest' _ same
      cases same
      exact stale
    · rename_i fresh
      cases taken
      exact Or.inr (Or.inr (Or.inr ⟨cid, latest, here, rfl, not_lt.mp fresh, rfl⟩))
  · cases taken

theorem step_cases (taken : s.step expected task e = some s') :
    (∃ p, e = .pool p ∧ s.pool.step p = some s'.pool ∧ s'.reports = s.reports ∧
      (s'.stage = s.stage ∨ ∃ error, s'.stage = .failed error)) ∨
    (e = .begin ∧ s' = Live.call task "chain_id" .chainId [] s.pool) ∨
    ∃ reply clock rpc, e = .answer reply clock ∧ s.pool.rpcs task = .awaiting rpc ∧
      s.take expected task reply clock (s.reports ++ [⟨rpc.idx, rpc.past.length, reply⟩])
        (s.pool.succeed task rpc) = some s' := by
  have own : ∀ p, (s.pool.step p).map (fun pool => Live.settle task { s with pool }) = some s' →
      s.pool.step p = some s'.pool ∧ s'.reports = s.reports ∧
        (s'.stage = s.stage ∨ ∃ error, s'.stage = .failed error) := by
    intro p mapped
    obtain ⟨pool, moved, rfl⟩ := Option.map_eq_some_iff.mp mapped
    obtain ⟨same, reports, stage⟩ := settle_cases task { s with pool }
    rw [same]
    exact ⟨moved, reports, stage⟩
  have others : ∀ p other, (if other = task then none
      else (s.pool.step p).map ({ s with pool := · })) = some s' →
      s.pool.step p = some s'.pool ∧ s'.reports = s.reports ∧
        (s'.stage = s.stage ∨ ∃ error, s'.stage = .failed error) := by
    intro p other mapped
    split at mapped
    · cases mapped
    · obtain ⟨pool, moved, rfl⟩ := Option.map_eq_some_iff.mp mapped
      exact ⟨moved, rfl, Or.inl rfl⟩
  cases e with
  | begin =>
    simp only [Live.step] at taken
    split at taken
    · cases taken
      exact Or.inr (Or.inl ⟨rfl, rfl⟩)
    · cases taken
  | pool p =>
    refine Or.inl ⟨p, rfl, ?_⟩
    cases p with
    | start other what => exact others _ other taken
    | succeed other => exact others _ other taken
    | look | fail | error | wait => exact own _ taken
  | answer reply clock =>
    simp only [Live.step] at taken
    split at taken
    · rename_i rpc here
      exact Or.inr (Or.inr ⟨reply, clock, rpc, rfl, here, taken⟩)
    · cases taken

theorem oneNode_iff {i j k : ℕ} {syncing : Syncing} {latest : Block} {clock : ℤ}
    (synced : syncing.synced) (fresh : clock - latest.timestamp ≤ maxAllowableBlockDelayS) :
    OneNode expected
      [⟨i, i, .chainId expected⟩, ⟨j, j, .syncing syncing⟩, ⟨k, k, .block latest⟩]
      ⟨expected, latest.number, clock - latest.timestamp, true⟩ clock ↔ i = k ∧ j = k := by
  constructor
  · intro one
    have checked : ∀ n reply, (⟨n, n, reply⟩ : Report) ∈ [⟨i, i, .chainId expected⟩,
        ⟨j, j, .syncing syncing⟩, (⟨k, k, .block latest⟩ : Report)] → i = n := by
      intro n reply listed
      obtain ⟨r, member, same, told⟩ := one.checked _ listed
      simp only [List.mem_cons, List.not_mem_nil, or_false] at member
      rcases member with rfl | rfl | rfl
      · exact same
      · cases told
      · cases told
    have second := checked j (.syncing syncing) (by simp)
    have third := checked k (.block latest) (by simp)
    exact ⟨third, second.symm.trans third⟩
  · rintro ⟨rfl, rfl⟩
    refine ⟨⟨j, latest, syncing, ⟨_, List.mem_cons_self, rfl, rfl⟩,
      ⟨⟨j, j, .syncing syncing⟩, by simp, rfl, rfl⟩, synced,
      ⟨⟨j, j, .block latest⟩, by simp, rfl, rfl⟩, rfl⟩, fresh, ?_⟩
    intro r member
    refine ⟨_, List.mem_cons_self, ?_, rfl⟩
    simp only [List.mem_cons, List.not_mem_nil, or_false] at member
    rcases member with rfl | rfl | rfl <;> rfl

/-- In the order of priority the number passed over is the index of who answers. -/
theorem awaiting_idx (inOrder : InOrder s.pool) {rpc : Call}
    (here : s.pool.rpcs task = .awaiting rpc) : rpc.past.length = rpc.idx := by
  have past := inOrder task
  rw [here] at past
  have sizes := congrArg List.length past.1
  rw [List.length_map, List.length_range] at sizes
  exact sizes

theorem step_iff_steady (inOrder : InOrder s.pool) (known : Known expected s)
    (taken : s.step expected task e = some s') :
    (∀ status clock, s'.stage = .returned status clock → OneNode expected s'.reports status clock) ↔
      Steady task s e := by
  rcases step_cases taken with ⟨p, rfl, _, reports, stage⟩ | ⟨rfl, rfl⟩ | ⟨reply, clock, rpc, rfl, here, took⟩
  · refine iff_of_true ?_ nofun
    intro status clock done
    rcases stage with same | ⟨error, failed⟩
    · rw [same] at done
      rw [reports]
      rw [Known, done] at known
      exact known
    · rw [failed] at done
      cases done
  · exact iff_of_true nofun nofun
  · have idx := awaiting_idx inOrder here
    rcases take_cases took with ⟨error, rfl, stale⟩ | ⟨stage, rfl, rfl⟩ |
      ⟨cid, syncing, stage, rfl, synced, rfl⟩ | ⟨cid, latest, stage, rfl, fresh, rfl⟩
    · refine iff_of_true nofun ?_
      intro cid latest clock' rpc' stage same _ fresh
      cases same
      exact absurd fresh (not_le.mpr (stale cid latest stage rfl))
    · refine iff_of_true nofun ?_
      intro cid latest clock' rpc' stage'
      rw [stage] at stage'
      cases stage'
    · refine iff_of_true nofun nofun
    · rw [Known, stage] at known
      obtain ⟨rfl, i, j, syncing, synced, reports⟩ := known
      have verdict := @oneNode_iff cid i j rpc.idx syncing latest clock synced fresh
      rw [reports, idx]
      constructor
      · intro kept cid' latest' clock' rpc' _ _ here' _ r member
        rw [here] at here'
        cases here'
        obtain ⟨first, second⟩ := verdict.mp (kept _ _ rfl)
        rw [reports] at member
        simp only [List.mem_cons, List.not_mem_nil, or_false] at member
        rcases member with rfl | rfl
        · exact first.trans idx.symm
        · exact second.trans idx.symm
      · intro steady status clock' same
        cases same
        apply verdict.mpr
        have passed := steady cid latest clock rpc stage rfl here fresh
        rw [reports] at passed
        simp only [List.forall_mem_cons] at passed
        exact ⟨passed.1.trans idx, passed.2.1.trans idx⟩

theorem step_known (inOrder : InOrder s.pool) (known : Known expected s)
    (taken : s.step expected task e = some s')
    (kept : ∀ status clock, s'.stage = .returned status clock →
      OneNode expected s'.reports status clock) : InOrder s'.pool ∧ Known expected s' := by
  rcases step_cases taken with ⟨p, rfl, moved, reports, stage⟩ | ⟨rfl, rfl⟩ |
    ⟨reply, clock, rpc, rfl, here, took⟩
  · refine ⟨step_inOrder inOrder moved, ?_⟩
    rcases stage with same | ⟨error, failed⟩
    · rw [Known, same, reports]
      exact known
    · rw [Known, failed]
      trivial
  · exact ⟨Pool.enter_inOrder inOrder ⟨rfl, Nat.zero_le _⟩, rfl⟩
  · have idx := awaiting_idx inOrder here
    have served : InOrder (s.pool.succeed task rpc) := by
      apply step_inOrder (e := .succeed task) inOrder
      rw [Pool.step, here]
    have next : ∀ what, InOrder ((s.pool.succeed task rpc).enter task (.looking ⟨what, 0, [], []⟩)) :=
      fun what => Pool.enter_inOrder served ⟨rfl, Nat.zero_le _⟩
    rcases take_cases took with ⟨error, rfl, _⟩ | ⟨stage, rfl, rfl⟩ |
      ⟨cid, syncing, stage, rfl, synced, rfl⟩ | ⟨cid, latest, stage, rfl, fresh, rfl⟩
    · exact ⟨served, trivial⟩
    · rw [Known, stage] at known
      refine ⟨next _, rfl, rpc.idx, ?_⟩
      rw [known, idx]
      rfl
    · rw [Known, stage] at known
      obtain ⟨rfl, i, reports⟩ := known
      refine ⟨next _, rfl, i, rpc.idx, syncing, synced, ?_⟩
      rw [reports, idx]
      rfl
    · exact ⟨served, kept _ _ rfl⟩

end Steps

/-- Whatever else goes on in the pool, a status is one endpoint's in exactly the runs whose three
    calls pass over as many endpoints. -/
theorem liveness_one_node_iff (now : ℚ) (urls : List String) (expected : ℤ) (task : ℕ)
    (events : List LiveEvent) :
    Every (Live.step expected task) (fun _ _ s' => ∀ status clock,
        s'.stage = .returned status clock → OneNode expected s'.reports status clock)
      (newLive now urls) events ↔
    Every (Live.step expected task) (fun s e _ => Steady task s e) (newLive now urls) events := by
  refine @every_congr _ _ _ (fun s => InOrder s.pool ∧ Known expected s) _ _ ?_ ?_ _ _ ?_
  · intro s e s' known taken
    exact step_iff_steady known.1 known.2 taken
  · intro s e s' known taken kept
    exact step_known known.1 known.2 taken kept
  · exact ⟨fun task => trivial, rfl⟩

/-- The first endpoint answers, fails, and answers again. -/
def flakyPrimary : List LiveEvent :=
  [.begin, .pool (.look 0), .answer (.chainId 114) 0,
    .pool (.look 0), .pool (.fail 0 "TimeoutError: "), .pool (.look 0), .answer (.syncing .no) 0,
    .pool (.look 0), .answer (.block ⟨5, 1786060790⟩) 1786060800]

theorem flaky_primary_split :
    ∃ s, run (Live.step 114 0) (newLive 0 ["https://a", "https://b"]) flakyPrimary = some s ∧
      ∃ status clock, s.stage = .returned status clock ∧ ¬ OneNode 114 s.reports status clock := by
  have reached : (run (Live.step 114 0) (newLive 0 ["https://a", "https://b"]) flakyPrimary).map
      (fun s => (s.stage, s.reports)) =
    some (.returned ⟨114, 5, 10, true⟩ 1786060800, [⟨0, 0, .chainId 114⟩, ⟨1, 1, .syncing .no⟩,
      ⟨0, 0, .block ⟨5, 1786060790⟩⟩]) := by decide +kernel
  obtain ⟨s, ran, same⟩ := Option.map_eq_some_iff.mp reached
  rw [Prod.mk.injEq] at same
  refine ⟨s, ran, _, _, same.1, ?_⟩
  rw [same.2]
  intro one
  obtain ⟨r, listed, elsewhere, told⟩ := one.checked ⟨1, 1, .syncing .no⟩ (by simp)
  simp only [List.mem_cons, List.not_mem_nil, or_false] at listed
  rcases listed with rfl | rfl | rfl
  · cases elsewhere
  · cases told
  · cases told

end Flare
