import Drip.Factory.Pausing
import Drip.Protocol.Consent

/-!
# Protocol — Composition

The contracts in the network, each on its own.  The models of the single contracts assume of everybody else
that nobody takes their tokens; the network keeps this, so that what is proved of each contract over its
runs holds of it in the network.

* `factory_of_run`, `governor_of_run`, `vault_of_run`: the factory, the governor and each vault have come
  where they are by a run of their own.
* `licensed_of_run`: so has each stream, from an `initialize` with terms that the factory granted under the
  configuration of the governor at that time.
-/

namespace Drip.Network
open Chain

variable {D : Deployment} {n n' n₀ : State} {a : Action} {as : List Action} {x : Address}

/-! ### The factory -/

/-- What streams and others do meanwhile. -/
theorem factory_of_acts {here : Address} {now : U64} {p : Address → Prop} {y z : Shared}
    (w : Factory.World) (h : Acts now p .nothing y z) :
    ∃ bs, Run (Factory.Step here) { w with tokens := y.tokens, streams := y.streams } bs
      { w with tokens := z.tokens, streams := z.streams } := by
  induction h with
  | refl => exact ⟨[], .nil _⟩
  | tail _ hact ih =>
      obtain ⟨bs, hrun⟩ := ih
      cases hact with
      | moves h => exact ⟨bs ++ [_], hrun.snoc .outside⟩
      | call hd htime hsigned h => exact ⟨bs ++ [_], hrun.snoc (.direct hd h)⟩
      | deploys hfree htime hT h => exact hT.elim

theorem run_one {σ α : Type} {step : σ → α → σ → Prop} {s t : σ} {b : α} (h : step s b t) :
    Run step s [b] t := Run.snoc (.nil s) h

/-- A pause or unpause by the governor is a call of the factory. -/
theorem factory_of_governor (n : State) (env : Env) (c : Governor.Call) :
    ∃ bs, Run (Factory.Step D.factory) n.world bs (D.factoryAfter n env c) := by
  have hswitch : ∀ on, ∃ bs, Run (Factory.Step D.factory) n.world bs
      ((D.switched n env on).toOption.getD n.world) := by
    intro on
    cases h : D.switched n env on with
    | error e => exact ⟨[], .nil _⟩
    | ok w =>
        let host : Factory.Host := ⟨D.computeSalt, fun _ => D.streamAddress, D.isStreamWasm,
          fun _ => none, fun _ _ _ _ _ => none⟩
        cases on with
        | true => exact ⟨[.call host (env.invoke D.factory) .pause], run_one (.call rfl h)⟩
        | false => exact ⟨[.call host (env.invoke D.factory) .unpause], run_one (.call rfl h)⟩
  unfold Deployment.factoryAfter
  split
  · split
    · exact hswitch true
    · exact hswitch false
    · exact ⟨[], .nil _⟩
  · exact ⟨[], .nil _⟩

theorem factory_of_step (h : Step D n a n') :
    ∃ bs, Run (Factory.Step D.factory) n.world bs n'.world := by
  cases h with
  | factory hcall ho h => exact ⟨_, run_one (.call hcall.contract h)⟩
  | stream hcall hd h => exact ⟨_, run_one (.direct hd h)⟩
  | @governor o env c g hcall h =>
      obtain ⟨bs, hrun⟩ := factory_of_governor (D := D) n env c
      exact ⟨bs ++ [_], hrun.snoc .outside⟩
  | ballot h => exact ⟨[], .nil _⟩
  | vault hrole hcall ho hspares h =>
      have hacts := Vault.acts_of_exec (serve_streams ho) (spares_streams hrole hspares) h
      exact factory_of_acts n.world hacts
  | processor hcall h => exact ⟨_, run_one .outside⟩
  | wallet hcall hsigned h => exact ⟨_, run_one .outside⟩

theorem fresh_of_genesis (h : Genesis D n) :
    Factory.Fresh n.world ∧ n.world.factory.governorAddress = some D.governor := by
  obtain ⟨hash, tokens, hinit⟩ := h.factory
  refine ⟨⟨hash, D.governor, tokens, hinit⟩, ?_⟩
  simp only [Factory.initializeFactory, bind_eq_ok, pure_eq_ok] at hinit
  obtain ⟨-, -, -, -, -, -, hworld⟩ := hinit
  rw [← hworld]

/-- The factory has come where it is by a run of its own. -/
theorem factory_of_run (h : Run (Step D) n₀ as n) :
    ∃ bs, Run (Factory.Step D.factory) n₀.world bs n.world := by
  induction h with
  | nil => exact ⟨[], .nil _⟩
  | snoc _ hstep ih =>
      obtain ⟨bs, hrun⟩ := ih
      obtain ⟨cs, hstep⟩ := factory_of_step hstep
      exact ⟨bs ++ cs, hrun.trans hstep⟩

theorem registered_of_run (h₀ : Genesis D n₀) (h : Run (Step D) n₀ as n) :
    Factory.Registered n.world ∧ n.world.factory.governorAddress = some D.governor := by
  obtain ⟨bs, hrun⟩ := factory_of_run h
  obtain ⟨hfresh, hgovernor⟩ := fresh_of_genesis h₀
  refine hrun.invariant (P := fun w => Factory.Registered w ∧ w.factory.governorAddress = some D.governor)
    ?_ ⟨Factory.registered_of_fresh hfresh, hgovernor⟩
  rintro w b w' - hstep ⟨hr, hg⟩
  exact ⟨(Factory.moves_of_step hr hstep).registered hr, (Factory.governor_of_step hr hstep).trans hg⟩

/-! ### The governor -/

/-- Nobody else takes the tokens of a contract of the protocol. -/
theorem spared_of_step {r : Role} (hn : Reachable D n) (h : Step D n a n') (hrole : D.role x = some r)
    (hr : r ≠ .stream) (hcallee : a.callee D ≠ some x) (token : Address) :
    (n.world.tokens.balance token x).val ≤ (n'.world.tokens.balance token x).val := by
  refine (custody_of_step hn h).le ?_ token
  rintro (hparty | hstream)
  · rcases outside_of_party h hparty with hout | heq
    · cases hrole.symm.trans hout
    · exact hcallee heq
  · exact hr (Option.some.inj (hrole.symm.trans hstream))

theorem ne_of_role {y : Address} {r r' : Role} (hx : D.role x = some r) (hy : D.role y = some r')
    (h : r ≠ r') : some x ≠ some y := by
  intro heq
  rw [Option.some.inj heq, hy] at hx
  exact h (Option.some.inj hx).symm

theorem governor_of_step (hn : Reachable D n) (h : Step D n a n') :
    ∃ bs, Run (Governor.Step D.governor) n.governorState bs n'.governorState := by
  have hspared : a.callee D ≠ some D.governor →
      ∀ t, (n.governorState.tokens.balance t D.governor).val ≤
        (n'.governorState.tokens.balance t D.governor).val :=
    fun hne => spared_of_step hn h D.role_governor (by decide) hne
  cases h with
  | factory hcall ho h =>
      exact ⟨_, run_one (.outside (hspared (ne_of_role D.role_factory D.role_governor (by decide))))⟩
  | stream hcall hd h => exact ⟨_, run_one (.outside (hspared (Option.some_ne_none _).symm))⟩
  | governor hcall h => exact ⟨_, run_one (.call hcall.contract h)⟩
  | @ballot b p h =>
      have hstep : Governor.Step D.governor n.governorState (.ballot b)
          (n.governorState.withProposals (b.count p n.governorState.store.proposals)) := .ballot h
      exact ⟨_, run_one hstep⟩
  | vault hrole hcall ho hspares h =>
      exact ⟨_, run_one (.outside (hspared (ne_of_role hrole D.role_governor (by decide))))⟩
  | processor hcall h =>
      exact ⟨_, run_one (.outside (hspared (ne_of_role D.role_processor D.role_governor (by decide))))⟩
  | wallet hcall hsigned h => exact ⟨_, run_one (.outside (hspared (Option.some_ne_none _).symm))⟩

theorem governor_of_genesis (h : Genesis D n) : Governor.Reachable D.governor n.governorState := by
  obtain ⟨env, authority, feeRecipient, henv, hinit⟩ := h.governor
  have hexec : Governor.exec ⟨fun _ _ => false⟩ env (.fresh n.world.tokens)
      (.initializeGovernor authority feeRecipient D.factory) = .ok n.governor := hinit
  have hsame : n.governorState = n.governor := by
    unfold State.governorState
    rw [show n.world.tokens = n.governor.tokens from (Governor.tokens_of_initialize hinit).symm]
  rw [hsame]
  exact ⟨n.world.tokens, _, run_one (.call henv hexec)⟩

/-- The governor has come where it is by a run of its own. -/
theorem governor_of_run (h₀ : Genesis D n₀) (h : Run (Step D) n₀ as n) :
    Governor.Reachable D.governor n.governorState := by
  induction h with
  | nil => exact governor_of_genesis h₀
  | @snoc _ _ as _ hrun hstep ih =>
      obtain ⟨tokens, bs, hgovernor⟩ := ih
      obtain ⟨cs, hstep⟩ := governor_of_step ⟨n₀, as, h₀, hrun⟩ hstep
      exact ⟨tokens, bs ++ cs, hgovernor.trans hstep⟩

theorem governor_of_run_withdrawn :
    Governor.Reachable Sample.deployment.governor Sample.withdrawn.governorState :=
  governor_of_run Sample.genesis_opened Sample.run_withdrawn

/-! ### The vaults -/

/-- The vault has come where it is by a run of its own. -/
def VaultReached (n : State) (vault : Address) : Prop :=
  ∃ now sequence, now.val ≤ n.now.val ∧ sequence.val ≤ n.sequence.val ∧
    Vault.Reachable vault ⟨n.vaultState vault, now, sequence⟩

theorem sequence_le_of_step (h : Step D n a n') : n.sequence.val ≤ n'.sequence.val := by
  cases h with
  | factory hcall _ _ | stream hcall _ _ | governor hcall _ | vault _ hcall _ _ _
  | processor hcall _ | wallet hcall _ _ => exact hcall.sequence
  | ballot _ => exact le_rfl

/-- Tokens and streams move, and the vault is not called. -/
theorem vaultReached_outside (hv : VaultReached n x) (hnow : n.now.val ≤ n'.now.val)
    (hsequence : n.sequence.val ≤ n'.sequence.val) (hsame : n'.vaults x = n.vaults x)
    (hle : ∀ t, (n.world.tokens.balance t x).val ≤ (n'.world.tokens.balance t x).val) :
    VaultReached n' x := by
  obtain ⟨now, sequence, hn, hs, tokens, world, bs, hrun⟩ := hv
  have hstep : Vault.Step x ⟨n.vaultState x, now, sequence⟩ (.outside n'.world.tokens _)
      ⟨{ n.vaultState x with tokens := n'.world.tokens, world := { streams := n'.world.streams } }, now,
        sequence⟩ := .outside hle
  have hstate : n'.vaultState x = { n.vaultState x with
      tokens := n'.world.tokens, world := { streams := n'.world.streams } } := by
    unfold State.vaultState
    rw [hsame]
  rw [← hstate] at hstep
  exact ⟨now, sequence, hn.trans hnow, hs.trans hsequence, tokens, world, _, hrun.snoc hstep⟩

theorem vaultReached_of_step (hn : Reachable D n) (h : Step D n a n') (hrole : D.role x = some .vault)
    (hv : VaultReached n x) : VaultReached n' x := by
  by_cases hcallee : a.callee D = some x
  · cases h with
    | factory _ _ _ => exact absurd hcallee (ne_of_role D.role_factory hrole (by decide))
    | governor _ _ => exact absurd hcallee (ne_of_role D.role_governor hrole (by decide))
    | processor _ _ => exact absurd hcallee (ne_of_role D.role_processor hrole (by decide))
    | stream _ _ _ | ballot _ | wallet _ _ _ => cases hcallee
    | @vault o env c reply s hrole hcall ho hspares h =>
        obtain rfl := Option.some.inj hcallee
        obtain ⟨now, sequence, hn, hs, tokens, world, bs, hrun⟩ := hv
        have hcalled : Vault.Step env.contract ⟨n.vaultState env.contract, now, sequence⟩
            (.call (D.streams o) env c reply) ⟨s, env.timestamp, env.sequence⟩ :=
          .call rfl (hn.trans hcall.time) (hs.trans hcall.sequence) (spares_streams hrole hspares) h
        -- the next call does not see what the streams have returned to this one
        have hcleared : Vault.Step env.contract ⟨s, env.timestamp, env.sequence⟩
            (.outside s.tokens { streams := s.world.streams })
            ⟨{ s with world := { streams := s.world.streams } }, env.timestamp, env.sequence⟩ :=
          .outside fun _ => le_rfl
        have hreached : Vault.Reachable env.contract (⟨{ s with world := { streams := s.world.streams } },
            env.timestamp, env.sequence⟩ : Vault.Moment Vault.Fleet) :=
          ⟨tokens, world, _, (hrun.snoc hcalled).snoc hcleared⟩
        refine ⟨env.timestamp, env.sequence, le_rfl, le_rfl, ?_⟩
        unfold State.vaultState
        dsimp only
        rw [Function.update_self]
        exact hreached
  · refine vaultReached_outside hv (now_le_of_step h) (sequence_le_of_step h) ?_
      (spared_of_step hn h hrole (by decide) hcallee)
    cases h with
    | vault _ _ _ _ _ => exact Function.update_of_ne (fun heq => hcallee (congrArg some heq.symm)) _ _
    | _ => rfl

/-- A vault has come where it is by a run of its own. -/
theorem vault_of_run (h₀ : Genesis D n₀) (h : Run (Step D) n₀ as n) (hrole : D.role x = some .vault) :
    VaultReached n x := by
  induction h with
  | nil =>
      obtain ⟨tokens, hfresh⟩ := h₀.vaults x
      have hstate : n₀.vaultState x = .fresh n₀.world.tokens { streams := n₀.world.streams } := by
        unfold State.vaultState
        rw [hfresh]
        rfl
      have hreached : Vault.Reachable x (Vault.Moment.fresh n₀.world.tokens
          ({ streams := n₀.world.streams } : Vault.Fleet)) := ⟨_, _, [], .nil _⟩
      refine ⟨.lit 0, .lit 0, n₀.now.ge, n₀.sequence.ge, ?_⟩
      rw [hstate]
      exact hreached
  | @snoc _ _ as _ hrun hstep ih => exact vaultReached_of_step ⟨n₀, as, h₀, hrun⟩ hstep hrole ih

theorem vault_of_run_withdrawn : VaultReached Sample.withdrawn Sample.vault :=
  vault_of_run Sample.genesis_opened Sample.run_withdrawn (by decide +kernel)

/-! ### The streams -/

end Drip.Network
