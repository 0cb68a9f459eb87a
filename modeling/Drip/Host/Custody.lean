import Mathlib.Data.Finite.Sum
import Mathlib.Data.Fintype.EquivFin
import Drip.Support.Custody
import Drip.Host.Basic

/-!
# Host — Custody

Token balances as holdings.  What a contract makes of the balances within one invocation is a list of
transfers (`Ledger.Moves`).
-/

namespace Drip

theorem Address.finite : Finite Address := by
  let f : Fin (2 ^ 256) ⊕ Fin (2 ^ 256) → Address :=
    Sum.elim (Address.account ∘ BitVec.ofFin) (Address.contract ∘ BitVec.ofFin)
  refine Finite.of_surjective f fun a => ?_
  cases a with
  | account key => exact ⟨.inl key.toFin, rfl⟩
  | contract id => exact ⟨.inr id.toFin, rfl⟩

/-- All addresses, to sum over. -/
noncomputable local instance allAddresses : Fintype Address := @Fintype.ofFinite Address Address.finite

namespace Ledger

variable {l l₁ l' : Ledger} {p q : Address → Prop} {token src dst a : Address} {amount : I128}

/-- The balances by token and holder. -/
def holdings (l : Ledger) : Custody.Holdings Address Address := fun t a => (l.balance t a).val

/-- How much there is of a token. -/
noncomputable def supply (l : Ledger) (token : Address) : Int := ∑ a, l.holdings token a

/-- Transfers from holders that `p` names lead from one ledger to the other. -/
def Moves (p : Address → Prop) (l l' : Ledger) : Prop := Custody.Moves p l.holdings l'.holdings

theorem moves_transfer (hp : p src) (h : l.transfer token src dst amount = some l') : Moves p l l' := by
  obtain ⟨hnn, -, hbalance⟩ := transfer_spec h
  exact Custody.Moves.single hp hnn hbalance

namespace Moves

theorem refl (p : Address → Prop) (l : Ledger) : Moves p l l := Custody.Moves.refl p l.holdings

theorem trans (h : Moves p l l₁) (h' : Moves p l₁ l') : Moves p l l' := Custody.Moves.trans h h'

theorem mono (h : Moves p l l') (hle : ∀ a, p a → q a) : Moves q l l' := Custody.Moves.mono h hle

theorem le (h : Moves p l l') (ha : ¬ p a) (token : Address) :
    (l.balance token a).val ≤ (l'.balance token a).val := Custody.Moves.le h ha token

theorem supply (h : Moves p l l') (token : Address) : l'.supply token = l.supply token :=
  Custody.Moves.supply h token

end Moves

end Ledger

end Drip
