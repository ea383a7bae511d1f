import Mathlib.Logic.Function.Basic
import Mathlib.Data.List.Basic

/-!
The transactions of a `FlareCoston2Client`: any number of submissions under one lock, against
nodes that count transactions as they please.
-/
namespace Flare

structure Tx (β : Type) where
  nonce : Nat
  body : β
  deriving DecidableEq

/-- Where a `submit_attestation` or `submit_fdc_attestation_request` stands. `seen` is what
    had been broadcast when the nonce was read. -/
inductive Phase (β : Type) where
  | idle
  | waiting
  /-- in `prepare_transaction`, no nonce read at the present endpoint -/
  | preparing
  | counted (nonce : Nat) (seen : List (Tx β))
  | prepared (tx : Tx β) (seen : List (Tx β))
  | sent (tx : Tx β) (seen : List (Tx β))

/-- `counts` is what each node would answer to `eth_getTransactionCount` of the signer. -/
structure Client (ν β : Type) where
  lock : Option Nat
  tasks : Nat → Phase β
  counts : ν → Nat
  broadcast : List (Tx β)

inductive Event (ν β : Type) where
  | submit (task : Nat)
  | acquire (task : Nat)
  | answer (task : Nat) (node : ν)
  | failover (task : Nat)
  | build (task : Nat) (body : β)
  /-- `send_raw_transaction` hands the transaction over to a node, again after a failover -/
  | deliver (task : Nat)
  | accepted (task : Nat)
  /-- the block under the lock returns or raises: a receipt, a timeout, an error -/
  | leave (task : Nat)
  /-- blocks, lag and reorganisations: a node counts anew -/
  | view (node : ν) (count : Nat)

section Steps
variable {ν β : Type}

def Phase.critical : Phase β → Bool
  | idle | waiting => false
  | _ => true

def start (counts : ν → Nat) : Client ν β := ⟨none, fun _ => .idle, counts, []⟩

namespace Client
variable (s : Client ν β)

def enter (task : Nat) (phase : Phase β) : Client ν β :=
  { s with tasks := Function.update s.tasks task phase }

variable [DecidableEq ν]

/-- `none` where the event cannot happen. -/
def step : Event ν β → Option (Client ν β)
  | .submit t =>
    match s.tasks t with
    | .idle => some (s.enter t .waiting)
    | _ => none
  | .acquire t =>
    match s.tasks t, s.lock with
    | .waiting, none => some { s.enter t .preparing with lock := some t }
    | _, _ => none
  | .answer t node =>
    match s.tasks t with
    | .preparing => some (s.enter t (.counted (s.counts node) s.broadcast))
    | _ => none
  | .failover t =>
    match s.tasks t with
    | .counted _ _ => some (s.enter t .preparing)
    | _ => none
  | .build t body =>
    match s.tasks t with
    | .counted nonce seen => some (s.enter t (.prepared ⟨nonce, body⟩ seen))
    | _ => none
  | .deliver t =>
    match s.tasks t with
    | .prepared tx _ => some { s with broadcast := s.broadcast ++ [tx] }
    | _ => none
  | .accepted t =>
    match s.tasks t with
    | .prepared tx seen => some (s.enter t (.sent tx seen))
    | _ => none
  | .leave t =>
    if (s.tasks t).critical then some { s.enter t .idle with lock := none } else none
  | .view node count => some { s with counts := Function.update s.counts node count }

def run (s : Client ν β) : List (Event ν β) → Option (Client ν β)
  | [] => some s
  | e :: events => (s.step e).bind fun s => s.run events

end Client

end Steps

section Exclusion
variable {ν β : Type}

/-- Since its nonce was read, a submission has broadcast nothing but its own transaction, and
    no other has broadcast anything. -/
def Phase.Alone (broadcast : List (Tx β)) : Phase β → Prop
  | counted _ seen => broadcast = seen
  | prepared tx seen | sent tx seen => ∃ k, broadcast = seen ++ List.replicate k tx
  | _ => True

theorem Phase.alone_of_not_critical {phase : Phase β} {broadcast : List (Tx β)}
    (outside : phase.critical = false) : phase.Alone broadcast := by
  cases phase with
  | idle => trivial
  | waiting => trivial
  | preparing => cases outside
  | counted nonce seen => cases outside
  | prepared tx seen => cases outside
  | sent tx seen => cases outside

structure Inv (s : Client ν β) : Prop where
  exclusive : ∀ t, (s.tasks t).critical → s.lock = some t
  alone : ∀ t, (s.tasks t).Alone s.broadcast

theorem start_inv (counts : ν → Nat) : Inv (start counts : Client ν β) :=
  ⟨fun _ => nofun, fun _ => trivial⟩

@[simp] theorem Client.enter_self (s : Client ν β) (t : Nat) (phase : Phase β) :
    (s.enter t phase).tasks t = phase := by
  simp [Client.enter]

theorem Client.enter_other (s : Client ν β) {t u : Nat} (phase : Phase β) (other : u ≠ t) :
    (s.enter t phase).tasks u = s.tasks u := by
  simp [Client.enter, other]

namespace Inv
variable {s : Client ν β} (inv : Inv s)
include inv

theorem same_holder {t u : Nat} (first : (s.tasks t).critical) (second : (s.tasks u).critical) :
    u = t := by
  have held := inv.exclusive t first
  rw [inv.exclusive u second] at held
  exact Option.some.inj held

theorem enter {t : Nat} {phase : Phase β} {lock : Option Nat}
    (others : ∀ u, u ≠ t → (s.tasks u).critical → lock = some u)
    (holds : phase.critical → lock = some t) (alone : phase.Alone s.broadcast) :
    Inv { s.enter t phase with lock := lock } := by
  constructor
  · intro u critical
    change ((s.enter t phase).tasks u).critical at critical
    by_cases same : u = t
    · rw [same, Client.enter_self] at critical
      rw [same]
      exact holds critical
    · rw [Client.enter_other s phase same] at critical
      exact others u same critical
  · intro u
    change ((s.enter t phase).tasks u).Alone s.broadcast
    by_cases same : u = t
    · rw [same, Client.enter_self]
      exact alone
    · rw [Client.enter_other s phase same]
      exact inv.alone u

theorem deliver {t : Nat} {tx : Tx β} {seen : List (Tx β)} (here : s.tasks t = .prepared tx seen) :
    Inv { s with broadcast := s.broadcast ++ [tx] } := by
  have holder : (s.tasks t).critical := by rw [here]; rfl
  constructor
  · exact inv.exclusive
  · intro u
    by_cases critical : (s.tasks u).critical
    · cases inv.same_holder holder critical
      have own := inv.alone t
      rw [here] at own ⊢
      obtain ⟨k, same⟩ := own
      refine ⟨k + 1, ?_⟩
      rw [same, List.append_assoc, List.replicate_succ']
    · exact Phase.alone_of_not_critical (Bool.not_eq_true _ ▸ critical)

variable [DecidableEq ν]

theorem step {e : Event ν β} {s' : Client ν β} (ok : s.step e = some s') : Inv s' := by
  have rest : ∀ u, (s.tasks u).critical → s.lock = some u := inv.exclusive
  cases e with
  | submit t =>
    simp only [Client.step] at ok
    split at ok
    · cases ok
      exact inv.enter (fun u _ => rest u) nofun trivial
    · cases ok
  | acquire t =>
    simp only [Client.step] at ok
    split at ok
    · rename_i free
      cases ok
      refine inv.enter (fun u _ critical => ?_) (fun _ => rfl) trivial
      rw [rest u critical] at free
      cases free
    · cases ok
  | answer t node =>
    simp only [Client.step] at ok
    split at ok
    · rename_i here
      cases ok
      exact inv.enter (fun u _ => rest u) (fun _ => rest t (by rw [here]; rfl)) rfl
    · cases ok
  | failover t =>
    simp only [Client.step] at ok
    split at ok
    · rename_i here
      cases ok
      exact inv.enter (fun u _ => rest u) (fun _ => rest t (by rw [here]; rfl)) trivial
    · cases ok
  | build t body =>
    simp only [Client.step] at ok
    split at ok
    · rename_i nonce seen here
      cases ok
      have own := inv.alone t
      rw [here] at own
      refine inv.enter (fun u _ => rest u) (fun _ => rest t (by rw [here]; rfl)) ⟨0, ?_⟩
      rw [List.replicate_zero, List.append_nil]
      exact own
    · cases ok
  | deliver t =>
    simp only [Client.step] at ok
    split at ok
    · rename_i here
      cases ok
      exact inv.deliver here
    · cases ok
  | accepted t =>
    simp only [Client.step] at ok
    split at ok
    · rename_i tx seen here
      cases ok
      have own := inv.alone t
      rw [here] at own
      exact inv.enter (fun u _ => rest u) (fun _ => rest t (by rw [here]; rfl)) own
    · cases ok
  | leave t =>
    simp only [Client.step] at ok
    split at ok
    · rename_i holder
      cases ok
      exact inv.enter (fun u other critical => absurd (inv.same_holder holder critical) other) nofun
        trivial
    · cases ok
  | view node count =>
    cases ok
    exact ⟨inv.exclusive, inv.alone⟩

end Inv

end Exclusion

section Uniqueness
variable {ν β : Type} [DecidableEq ν]

def Distinct (broadcast : List (Tx β)) : Prop :=
  ∀ a ∈ broadcast, ∀ b ∈ broadcast, a.nonce = b.nonce → a = b

/-- A transaction goes out under a nonce that no other one had when it was read. -/
def Client.Fresh (s : Client ν β) : Event ν β → Prop
  | .deliver t =>
    match s.tasks t with
    | .prepared tx seen => ∀ earlier ∈ seen, earlier.nonce = tx.nonce → earlier = tx
    | _ => True
  | _ => True

def Client.FreshRun (s : Client ν β) : List (Event ν β) → Prop
  | [] => True
  | e :: events => s.Fresh e ∧ ∀ s', s.step e = some s' → s'.FreshRun events

theorem distinct_append {seen : List (Tx β)} {tx : Tx β} {k : Nat} :
    Distinct (seen ++ List.replicate k tx ++ [tx]) ↔
      Distinct (seen ++ List.replicate k tx) ∧
        ∀ earlier ∈ seen, earlier.nonce = tx.nonce → earlier = tx := by
  constructor
  · intro distinct
    constructor
    · intro a first b second
      exact distinct a (List.mem_append_left _ first) b (List.mem_append_left _ second)
    · intro earlier member
      exact distinct earlier (by simp [member]) tx (by simp)
  · intro h
    obtain ⟨distinct, fresh⟩ := h
    have one : ∀ a ∈ seen ++ List.replicate k tx, a.nonce = tx.nonce → a = tx := by
      intro a member
      rcases List.mem_append.mp member with earlier | own
      · exact fresh a earlier
      · exact fun _ => List.eq_of_mem_replicate own
    intro a first b second same
    rcases List.mem_append.mp first with first | first <;>
      rcases List.mem_append.mp second with second | second
    · exact distinct a first b second same
    · rw [List.mem_singleton.mp second] at same ⊢
      exact one a first same
    · rw [List.mem_singleton.mp first] at same ⊢
      exact (one b second same.symm).symm
    · rw [List.mem_singleton.mp first, List.mem_singleton.mp second]

theorem step_distinct {s s' : Client ν β} {e : Event ν β} (inv : Inv s) (ok : s.step e = some s') :
    Distinct s'.broadcast ↔ Distinct s.broadcast ∧ s.Fresh e := by
  cases e with
  | deliver t =>
    simp only [Client.step] at ok
    split at ok
    · rename_i tx seen here
      cases ok
      have own := inv.alone t
      rw [here] at own
      obtain ⟨k, same⟩ := own
      simp only [Client.Fresh, here, same]
      exact distinct_append
    · cases ok
  | view node count =>
    cases ok
    exact (and_iff_left trivial).symm
  | _ =>
    simp only [Client.step] at ok
    split at ok
    · cases ok
      exact (and_iff_left trivial).symm
    · cases ok

/-- In every run, the transactions that were broadcast have nonces of their own just when each
    of them went out under a nonce that was free when it was read. -/
theorem nonces_unique_iff {counts : ν → Nat} {events : List (Event ν β)} {s : Client ν β}
    (ran : (start counts).run events = some s) :
    Distinct s.broadcast ↔ (start counts : Client ν β).FreshRun events := by
  have general : ∀ (events : List (Event ν β)) (s₀ : Client ν β), Inv s₀ → s₀.run events = some s →
      (Distinct s.broadcast ↔ Distinct s₀.broadcast ∧ s₀.FreshRun events) := by
    intro events
    induction events with
    | nil =>
      intro s₀ _ ran
      cases ran
      exact (and_iff_left trivial).symm
    | cons e events ih =>
      intro s₀ inv ran
      obtain ⟨s₁, ok, ran⟩ := Option.bind_eq_some_iff.mp ran
      rw [ih s₁ (inv.step ok) ran, step_distinct inv ok, and_assoc, Client.FreshRun]
      simp only [ok, Option.some.injEq, forall_eq']
  have empty : Distinct (start counts : Client ν β).broadcast := nofun
  rw [general events _ (start_inv counts) ran]
  exact and_iff_right empty

/-- One node that never sees a transaction included, and two submissions: the first leaves at
    the receipt timeout, and the second reads the same count. -/
def timeoutRun : List (Event Unit String) :=
  [.submit 0, .submit 1, .acquire 0, .answer 0 (), .build 0 "attestation", .deliver 0, .accepted 0,
    .leave 0, .acquire 1, .answer 1 (), .build 1 "fdc request", .deliver 1]

theorem timeoutRun_sent :
    ((start fun _ => 7).run timeoutRun).map Client.broadcast =
      some [⟨7, "attestation"⟩, ⟨7, "fdc request"⟩] := rfl

theorem nonces_unique_iff_timeout :
    ∃ s, (start fun _ => 7).run timeoutRun = some s ∧
      (Distinct s.broadcast ↔ (start fun _ => 7).FreshRun timeoutRun) := by
  obtain ⟨s, ran, _⟩ := Option.map_eq_some_iff.mp timeoutRun_sent
  exact ⟨s, ran, nonces_unique_iff ran⟩

theorem receipt_timeout_reuses_nonce :
    ∃ s, (start fun _ => 7).run timeoutRun = some s ∧ ¬ Distinct s.broadcast := by
  obtain ⟨s, ran, sent⟩ := Option.map_eq_some_iff.mp timeoutRun_sent
  refine ⟨s, ran, ?_⟩
  rw [sent]
  intro distinct
  have same := distinct ⟨7, "attestation"⟩ (by simp) ⟨7, "fdc request"⟩ (by simp) rfl
  simp at same

end Uniqueness

section CaughtUp
variable {ν β : Type}

def Phase.Ahead : Phase β → Prop
  | counted nonce seen => ∀ tx ∈ seen, tx.nonce < nonce
  | prepared tx seen => ∀ earlier ∈ seen, earlier.nonce < tx.nonce
  | _ => True

theorem ahead_enter {s : Client ν β} {t : Nat} {phase : Phase β}
    (ahead : ∀ u, (s.tasks u).Ahead) (here : phase.Ahead) (u : Nat) :
    ((s.enter t phase).tasks u).Ahead := by
  by_cases same : u = t
  · rw [same, Client.enter_self]
    exact here
  · rw [Client.enter_other s phase same]
    exact ahead u

theorem fresh_of_ahead {s : Client ν β} (e : Event ν β) (ahead : ∀ t, (s.tasks t).Ahead) :
    s.Fresh e := by
  cases e with
  | deliver t =>
    simp only [Client.Fresh]
    split
    · rename_i tx seen here
      intro earlier member same
      have own := ahead t
      rw [here] at own
      exact absurd same (Nat.ne_of_lt (own earlier member))
    · trivial
  | _ => trivial

variable [DecidableEq ν]

/-- The node that answers has counted every transaction that was broadcast. -/
def Client.CaughtUp (s : Client ν β) : Event ν β → Prop
  | .answer _ node => ∀ tx ∈ s.broadcast, tx.nonce < s.counts node
  | _ => True

def Client.CaughtUpRun (s : Client ν β) : List (Event ν β) → Prop
  | [] => True
  | e :: events => s.CaughtUp e ∧ ∀ s', s.step e = some s' → s'.CaughtUpRun events

theorem step_ahead {s s' : Client ν β} {e : Event ν β} (ahead : ∀ t, (s.tasks t).Ahead)
    (caught : s.CaughtUp e) (ok : s.step e = some s') : ∀ t, (s'.tasks t).Ahead := by
  cases e with
  | answer t node =>
    simp only [Client.step] at ok
    split at ok
    · cases ok
      exact ahead_enter ahead caught
    · cases ok
  | build t body =>
    simp only [Client.step] at ok
    split at ok
    · rename_i here
      cases ok
      have own := ahead t
      rw [here] at own
      exact ahead_enter ahead own
    · cases ok
  | deliver t =>
    simp only [Client.step] at ok
    split at ok
    · cases ok
      exact ahead
    · cases ok
  | view node count =>
    cases ok
    exact ahead
  | _ =>
    simp only [Client.step] at ok
    split at ok
    · cases ok
      exact ahead_enter ahead trivial
    · cases ok

/-- Where every count that is read takes in all transactions sent so far, no nonce is used twice. -/
theorem caught_up_fresh {s : Client ν β} {events : List (Event ν β)}
    (ahead : ∀ t, (s.tasks t).Ahead) (caught : s.CaughtUpRun events) : s.FreshRun events := by
  induction events generalizing s with
  | nil => trivial
  | cons e events ih =>
    obtain ⟨now, later⟩ := caught
    exact ⟨fresh_of_ahead e ahead, fun s' ok => ih (step_ahead ahead now ok) (later s' ok)⟩

end CaughtUp

end Flare
