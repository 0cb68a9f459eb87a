import Drip.Host.Custody
import Drip.Vault.Effects

/-!
# Vault — Custody

Whose balances a call of the vault takes from (`moves_of_flow`).
-/

namespace Drip.Vault
open Chain

variable {env : Env} {c : Call} {reply : Reply}
variable {token account caller : Address} {amount : I128} {ts : List Transfer} {b b' : Books}

/-- A transfer of the vault's log, in integers. -/
def Transfer.plain (t : Transfer) : Custody.Transfer Address Address := ⟨t.token, t.src, t.dst, t.amount.val⟩

theorem Moved.moves {p : Address → Prop} (h : Moved b b' ts)
    (hts : ∀ t ∈ ts, p t.src ∧ 0 ≤ t.amount.val) : Ledger.Moves p b.tokens b'.tokens := by
  refine ⟨ts.map Transfer.plain, fun t a => ?_, fun t ht => ?_, fun t ht => ?_⟩
  · have hbalance := h.balance t a
    unfold sent received at hbalance
    unfold Custody.taken Custody.brought
    rw [List.map_map, List.map_map]
    exact hbalance
  · obtain ⟨u, hu, rfl⟩ := List.mem_map.mp ht
    exact (hts u hu).1
  · obtain ⟨u, hu, rfl⟩ := List.mem_map.mp ht
    exact (hts u hu).2

theorem Deposited.moves (h : Deposited env account token amount b b') :
    Ledger.Moves (fun a => env.authorized a = true ∨ a = env.contract) b.tokens b'.tokens := by
  refine h.moved.moves fun t ht => ?_
  rw [List.mem_singleton.mp ht]
  exact ⟨.inl h.manages.2, h.positive.le⟩

theorem PaidOut.moves {payouts : List (Address × I128)} (h : PaidOut env caller token payouts b b') :
    Ledger.Moves (fun a => env.authorized a = true ∨ a = env.contract) b.tokens b'.tokens := by
  refine h.moved.moves fun t ht => ?_
  obtain ⟨p, hp, rfl⟩ := List.mem_map.mp ht
  exact ⟨.inr rfl, (h.outward p hp).2.le⟩

/-- The calls that make calls of other contracts. -/
def Call.visits : Call → List Address
  | .vaultBatchWithdraw streamIds _ => streamIds
  | _ => []

/-- Deposits come from depositors who have signed, and payments from the vault. -/
theorem moves_of_flow (hc : ∀ streamIds recipient, c ≠ .vaultBatchWithdraw streamIds recipient)
    (h : Flow env b c reply b') :
    Ledger.Moves (fun a => env.authorized a = true ∨ a = env.contract) b.tokens b'.tokens := by
  cases h with
  | deposit h _ | depositWithFee h _ | depositToken h | reported h _ => exact h.moves
  | batchDeposit h _ =>
      refine h.moved.moves fun t ht => ?_
      obtain ⟨d, hd, rfl⟩ := List.mem_map.mp ht
      exact ⟨.inl (h.authorized d hd).1, (h.authorized d hd).2.le⟩
  | unsettled => exact .refl _ _
  | withdraw h | withdrawBatch h => exact h.moves
  | withdrawToken h =>
      refine h.moved.moves fun t ht => ?_
      rw [List.mem_singleton.mp ht]
      exact ⟨.inr rfl, h.outward.2.le⟩
  | vaultBatchWithdraw h => exact absurd rfl (hc _ _)
  | executeEmergencyMigration h =>
      obtain ⟨token, migration, -, -, hmoved⟩ := h.moved
      refine hmoved.moves fun t ht => ?_
      split at ht
      · rename_i hpos
        rw [List.mem_singleton.mp ht]
        exact ⟨.inr rfl, hpos.le⟩
      · cases ht
  | still _ h =>
      have htokens : b'.tokens = b.tokens := by rw [h]
      rw [htokens]
      exact .refl _ _

end Drip.Vault
