import VerifiableRag.Library.Transaction

/-!
The single-owner access control that contracts inherit, as OpenZeppelin documents `Ownable` of
version 5: a call of another account reverts with `OwnableUnauthorizedAccount`, a transfer to
the zero address with `OwnableInvalidOwner`, and renouncing leaves the zero address as owner.
-/
namespace Ownable
open Transaction

abbrev Address := BitVec 160

inductive Violation where
  | unauthorizedAccount (account : Address)
  | invalidOwner (owner : Address)
  deriving DecidableEq, Repr

/-- A store with an owner slot. `setOwner` also logs the ownership event. -/
class Owned (σ : Type) (ε : outParam Type) where
  owner : σ → Address
  setOwner : Address → σ → σ
  refuse : Violation → ε

variable {σ ε : Type} [Owned σ ε]

def onlyOwner (sender : Address) : Call σ ε Unit := do
  let s ← get
  revertIf (Owned.owner s ≠ sender) (Owned.refuse σ (.unauthorizedAccount sender))

def transferOwnership (sender newOwner : Address) : Call σ ε Unit := do
  onlyOwner sender
  revertIf (newOwner = 0) (Owned.refuse σ (.invalidOwner 0))
  modify (Owned.setOwner newOwner)

def renounceOwnership (sender : Address) : Call σ ε Unit := do
  onlyOwner sender
  modify (Owned.setOwner 0)

theorem onlyOwner_bind_ok {β : Type} {sender : Address} {f : Unit → Call σ ε β} {s : σ}
    {r : β × σ} :
    (onlyOwner sender >>= f).run s = .ok r ↔ Owned.owner s = sender ∧ (f ()).run s = .ok r := by
  simp only [onlyOwner, bind_assoc, get_bind_ok, revertIf_bind_ok, not_not, ne_eq]

theorem transferOwnership_bind_ok {β : Type} {sender newOwner : Address} {f : PUnit → Call σ ε β}
    {s : σ} {r : β × σ} :
    (transferOwnership sender newOwner >>= f).run s = .ok r ↔
      Owned.owner s = sender ∧ newOwner ≠ 0 ∧ (f ⟨⟩).run (Owned.setOwner newOwner s) = .ok r := by
  simp only [transferOwnership, bind_assoc, onlyOwner_bind_ok, revertIf_bind_ok, modify_bind_ok,
    ne_eq]

theorem renounceOwnership_bind_ok {β : Type} {sender : Address} {f : PUnit → Call σ ε β} {s : σ}
    {r : β × σ} :
    (renounceOwnership sender >>= f).run s = .ok r ↔
      Owned.owner s = sender ∧ (f ⟨⟩).run (Owned.setOwner 0 s) = .ok r := by
  simp only [renounceOwnership, bind_assoc, onlyOwner_bind_ok, modify_bind_ok]

end Ownable
