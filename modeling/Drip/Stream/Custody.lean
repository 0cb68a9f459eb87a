import Drip.Host.Custody
import Drip.Stream.Issued

/-!
# Stream — Custody

Whose balances a call takes from: the transfers of a call come out of the stream, or from a depositor
who has signed (`moves_of_exec`).
-/

namespace Drip.Stream
open Chain

variable {env : Env} {here : Address} {s s' : State} {info : StreamInfo} {c : Call}
variable {ts : List Transfer} {l l' : Ledger} {p : Address → Prop}

theorem moves_of_replay (hp : ∀ t ∈ ts, p t.src) (h : replay l ts = some l') : Ledger.Moves p l l' := by
  induction ts generalizing l with
  | nil =>
      cases h
      exact .refl p _
  | cons t ts ih =>
      obtain ⟨l₁, ht, h⟩ := replay_cons.mp h
      have hfirst : Ledger.Moves p l l₁ := Ledger.moves_transfer (hp t List.mem_cons_self) ht
      exact hfirst.trans (ih (fun u hu => hp u (List.mem_cons_of_mem t hu)) h)

/-- Who pays tokens in with a call. -/
def Call.depositor : Call → Option Address
  | .topUp caller _ | .extendDuration caller _ | .topUpAndExtend caller _ _
  | .fundKeeperRewardPool caller _ => some caller
  | _ => none

theorem authorized_of_depositor {caller : Address} (hi : s.store.config = some info)
    (hc : c.depositor = some caller) (h : exec env s c = .ok s') : env.authorized caller = true := by
  cases c with
  | topUp b amount =>
      obtain rfl := Option.some.inj hc
      simp [exec, topUp, topUpBody, hi] at h
      obtain ⟨-, -, ⟨-, ha, -⟩, -⟩ := h
      exact ha
  | extendDuration b x =>
      obtain rfl := Option.some.inj hc
      simp [exec, extendDuration, extendDurationBody, hi] at h
      obtain ⟨-, -, ⟨-, -, ⟨-, ha⟩, -⟩, -⟩ := h
      exact ha
  | topUpAndExtend b amount x =>
      obtain rfl := Option.some.inj hc
      simp [exec, topUpAndExtend, topUpAndExtendBody, hi] at h
      obtain ⟨-, -, ⟨-, -, ⟨-, ha⟩, -⟩, -⟩ := h
      exact ha
  | fundKeeperRewardPool b amount =>
      obtain rfl := Option.some.inj hc
      simp [exec, fundKeeperRewardPool, fundKeeperRewardPoolBody, hi] at h
      obtain ⟨-, -, ⟨⟨-, ha⟩, -⟩, -⟩ := h
      exact ha
  | _ => cases hc

/-- Who sends the tokens of a call. -/
theorem Call.Issues.source (h : c.Issues env s info ts) {t : Transfer} (ht : t ∈ ts) :
    t.src = env.contract ∨ c.depositor = some t.src := by
  cases c with
  | withdraw amount => exact .inl (h t ht).2.1
  | cancel caller => exact .inl ((h t ht).elim (·.2.1) (·.2.1))
  | forceCancel => exact .inl ((h t ht).elim (·.2.1) (·.2.1))
  | clawback caller => exact .inl (h t ht).2.1
  | topUp caller amount =>
      obtain ⟨-, rfl⟩ := h
      rw [List.mem_singleton.mp ht]
      exact .inr rfl
  | topUpAndExtend caller amount x =>
      obtain ⟨-, rfl⟩ := h
      rw [List.mem_singleton.mp ht]
      exact .inr rfl
  | extendDuration caller x =>
      obtain ⟨amount, -, -, rfl⟩ := h
      rw [List.mem_singleton.mp ht]
      exact .inr rfl
  | fundKeeperRewardPool caller amount =>
      obtain ⟨pool, -, rfl⟩ := h
      rw [List.mem_singleton.mp ht]
      exact .inr rfl
  | withdrawKeeperRewardPool caller amount =>
      obtain ⟨pool, -, rfl⟩ := h
      rw [List.mem_singleton.mp ht]
      exact .inl rfl
  | keeperPing keeper =>
      obtain ⟨pool, -, rfl⟩ := h
      rw [List.mem_singleton.mp ht]
      exact .inl rfl
  | _ =>
      obtain rfl : ts = [] := h
      cases ht

/-- The balances that a call takes from. -/
theorem moves_of_exec {now : Int} (hs : Sound here s info now) (h : exec env s c = .ok s') :
    Ledger.Moves (fun a => env.authorized a = true ∨ a = env.contract) s.tokens s'.tokens := by
  obtain ⟨ts, hissued, hissues⟩ := issued_of_exec hs h
  refine moves_of_replay (fun t ht => ?_) hissued.2
  rcases hissues.source ht with hself | hdepositor
  · exact .inr hself
  · exact .inl (authorized_of_depositor hs.config hdepositor h)

/-- A withdrawal takes from the stream alone, whatever the rest of its state. -/
theorem moves_of_withdraw {amount x : I128} (h : withdraw env amount s = .ok (x, s')) :
    Ledger.Moves (fun a => a = env.contract) s.tokens s'.tokens := by
  have hload := h
  simp only [withdraw, withGuard_eq_ok, withdrawBody, bind_eq_ok, reject_eq_ok, load_eq_ok,
    locked_config] at hload
  obtain ⟨-, s₁, ⟨-, -, info, hi, -⟩, -⟩ := hload
  obtain ⟨d⟩ := exists_withdrawing hi h
  obtain ⟨ts, hts, hall⟩ := issued_payRecipient d.pays
  rw [d.noted.tokens]
  exact moves_of_replay (fun t ht => (hall t ht).2.1) hts.2

/-- `initialize` leaves the balances alone. -/
theorem tokens_of_initialize {args : InitArgs} {tokens : Ledger}
    (h : initializeStream env args (State.fresh tokens) = .ok ((), s)) : s.tokens = tokens := by
  simp [initializeStream, initializeReading, State.fresh, publish_eq_ok] at h
  obtain ⟨-, -, -, -, -, -, -, d, -, -, -, n, -, rfl⟩ := h
  rfl

end Drip.Stream
