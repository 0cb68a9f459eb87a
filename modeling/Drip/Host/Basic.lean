import Drip.Support.Ranged
import Drip.Support.Chain

/-!
# Host — Basic

What the contracts see of the Soroban host: machine integers, addresses, the invocation
environment, and the balances of the SEP-41 tokens.

An invocation that returns an error or traps is rolled back by the host, storage and token
balances included.  An entry point is therefore a function from the state before the call to the
state after it or a `Failure`; a failure leaves no state behind.
-/

namespace Drip

abbrev U32 := Ranged 0 4294967295
abbrev U64 := Ranged 0 18446744073709551615
abbrev U128 := Ranged 0 340282366920938463463374607431768211455
abbrev U256 :=
  Ranged 0 115792089237316195423570985008687907853269984665640564039457584007913129639935
abbrev I128 :=
  Ranged (-170141183460469231731687303715884105728) 170141183460469231731687303715884105727

/-- `i128::MAX`. -/
abbrev i128Max : Int := 170141183460469231731687303715884105727

theorem i128Max_eq : i128Max = 170141183460469231731687303715884105727 := rfl

/-- A token balance: an `i128` that is not negative. -/
abbrev Amount := Ranged 0 i128Max

/-- The host's `String`, by its bytes. -/
abbrev Bytes := List UInt8

/-! ### Addresses -/

/-- `ScAddress`: an account by its ed25519 key, or a contract by its id. -/
inductive Address where
  | account (key : BitVec 256)
  | contract (id : BitVec 256)
deriving DecidableEq

/-- `drip_common::is_zero_address`: the all-zero account and the all-zero contract. -/
def isZeroAddress (a : Address) : Bool :=
  a == .account 0 || a == .contract 0

/-! ### Invocations -/

/-- How an invocation fails: with a contract error, or with a trap of the host (a missing
authorization, an arithmetic panic, a failed token call). -/
inductive Failure (E : Type) where
  | contract (e : E)
  | trap
deriving DecidableEq

abbrev Outcome (E α : Type) := Except (Failure E) α

/-- The invocation environment.  A contract address authorizes a call only as its direct
invoker; no contract of the protocol invokes itself and the host forbids re-entry, so an
invocation never carries the authorization of the contract it runs in. -/
structure Env where
  contract : Address
  timestamp : U64
  sequence : U32
  authorized : Address → Bool
  self_unauthorized : authorized contract = false

/-- `address.require_auth()`. -/
def requireAuth {E : Type} (env : Env) (a : Address) : Outcome E Unit :=
  Chain.reject (env.authorized a = false) .trap

@[simp]
theorem requireAuth_eq_ok {E : Type} {env : Env} {a : Address} {u : Unit} :
    (requireAuth env a : Outcome E Unit) = .ok u ↔ env.authorized a = true := by
  rw [requireAuth, Chain.reject_eq_ok, Bool.not_eq_false]

/-- The contract does not authorize its own invocations. -/
theorem Env.ne_contract {env : Env} {a : Address} (h : env.authorized a = true) :
    a ≠ env.contract := by
  rintro rfl
  rw [env.self_unauthorized] at h
  cases h

/-- The environment without the authorization of `a`. -/
def Env.without (env : Env) (a : Address) : Env where
  contract := env.contract
  timestamp := env.timestamp
  sequence := env.sequence
  authorized := fun b => b != a && env.authorized b
  self_unauthorized := by simp [env.self_unauthorized]

namespace Env

@[simp]
theorem without_authorized (env : Env) (a : Address) : (env.without a).authorized a = false := by
  simp [Env.without]

theorem without_of_ne {env : Env} {a b : Address} (h : b ≠ a) :
    (env.without a).authorized b = env.authorized b := by
  simp [Env.without, h]

/-- An authorization that is not there is not missed. -/
theorem without_eq {env : Env} {a : Address} (h : env.authorized a = false) :
    env.without a = env := by
  have hfun : (env.without a).authorized = env.authorized := by
    funext b
    by_cases hb : b = a
    · rw [hb, without_authorized, h]
    · exact without_of_ne hb
  cases env
  simp only [Env.without] at hfun ⊢
  simp only [hfun]

end Env

/-! ### Token balances -/

/-- The balance of each holder in each token. -/
structure Ledger where
  balance : Address → Address → Amount

namespace Ledger

def set (l : Ledger) (token holder : Address) (v : Amount) : Ledger :=
  ⟨fun t a => if t = token ∧ a = holder then v else l.balance t a⟩

/-- The SEP-41 `transfer` of a conforming token: it refuses a negative amount, an amount the
source does not hold, and a balance past `i128::MAX`; otherwise it moves exactly the amount. -/
def transfer (l : Ledger) (token src dst : Address) (amount : I128) : Option Ledger := do
  let a ← Ranged.ofInt? amount.val
  let debited ← (l.balance token src).checkedSub a
  let l₁ := l.set token src debited
  let credited ← (l₁.balance token dst).checkedAdd a
  return l₁.set token dst credited

/-- What one holder's balance loses and gains in a transfer. -/
theorem transfer_spec {l l' : Ledger} {token src dst : Address} {amount : I128}
    (h : l.transfer token src dst amount = some l') :
    0 ≤ amount.val ∧ amount.val ≤ (l.balance token src).val ∧
      ∀ t a, (l'.balance t a).val = (l.balance t a).val
        - (if t = token ∧ a = src then amount.val else 0)
        + (if t = token ∧ a = dst then amount.val else 0) := by
  simp only [transfer, Option.bind_eq_bind, Option.bind_eq_some_iff, Option.pure_def,
    Option.some.injEq, Ranged.ofInt?_eq_some, Ranged.checkedSub_eq_some,
    Ranged.checkedAdd_eq_some] at h
  obtain ⟨a, ha, d, hd, c, hc, rfl⟩ := h
  refine ⟨by have := a.ge; omega, by have := d.ge; omega, fun t b => ?_⟩
  simp only [set] at hc ⊢
  by_cases hdst : t = token ∧ b = dst
  · obtain ⟨rfl, rfl⟩ := hdst
    simp only [and_self, if_true, true_and] at hc ⊢
    split at hc <;> simp_all
  · rw [if_neg hdst, if_neg hdst]
    split
    · rename_i hs; obtain ⟨rfl, rfl⟩ := hs; omega
    · omega

/-- A transfer goes through where the source holds the amount and the destination has room for it. -/
theorem exists_transfer {l : Ledger} {token src dst : Address} {amount : I128} (hnn : 0 ≤ amount.val)
    (hheld : amount.val ≤ (l.balance token src).val)
    (hroom : dst ≠ src → (l.balance token dst).val + amount.val ≤ i128Max) :
    ∃ l', l.transfer token src dst amount = some l' := by
  have hsrc := (l.balance token src).le
  have hdst := (l.balance token dst).ge
  have ha : (Ranged.ofInt? amount.val : Option Amount) = some ⟨amount.val, hnn, by omega⟩ :=
    Ranged.ofInt?_of_mem hnn (by omega)
  have hd : (l.balance token src).checkedSub ⟨amount.val, hnn, by omega⟩ =
      some ⟨(l.balance token src).val - amount.val, by omega, by omega⟩ :=
    Ranged.checkedSub_eq_some.mpr rfl
  simp only [transfer, ha, hd, Option.bind_eq_bind, Option.bind_some, Option.pure_def,
    Option.bind_eq_some_iff, Option.some.injEq, Ranged.checkedAdd_eq_some]
  by_cases hself : dst = src
  · subst hself
    exact ⟨_, ⟨_, hnn.trans hheld, hsrc⟩, by simp [set], rfl⟩
  · exact ⟨_, ⟨(l.balance token dst).val + amount.val, by omega, hroom hself⟩,
      by simp [set, hself], rfl⟩

end Ledger

end Drip
