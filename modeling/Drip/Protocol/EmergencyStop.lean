import Drip.Protocol.Composition

/-!
# Protocol — Emergency stop

The `pause_factory` of the governor, through to the factory.  For fourteen days, or until the governor's
`unpause_factory`, no stream is created, whoever calls what.

* `stopped_of_step`: what one step does to a factory that is stopped.
* `stopped_of_run`: nothing is created while it is.
* `wasm_of_run`: as long as the governor's own code is not replaced, the factory deploys the code it was
  initialized with, and keeps its own.  Its `upgrade_stream_wasm` and `upgrade_self` want the signature of the
  governor, and the governor has no entry point that calls them.
-/

namespace Drip.Network
open Chain

variable {D : Deployment} {n n' n₀ n₁ : State} {a : Action} {as bs : List Action} {o : Others} {env : Env}
variable {caller : Address}

/-! ### Two contracts that know each other -/

/-- The governor has signed nothing that is called from outside. -/
theorem ungoverned_of_called {c : Factory.Call} {w : Factory.World} {host : Factory.Host}
    (hgovernor : n.world.factory.governorAddress = some D.governor) (hcall : D.Called n env D.factory)
    (h : Factory.exec host env n.world c = .ok w) : c.isGoverned = false := by
  cases hc : c.isGoverned with
  | false => rfl
  | true =>
      obtain ⟨⟨g, hg, hsigned⟩, -⟩ := Factory.signed_of_governed hc h
      obtain rfl := Option.some.inj (hg.symm.trans hgovernor)
      cases D.role_governor.symm.trans (hcall.signers _ hsigned)

theorem wasm_of_factoryAfter (n : State) (env : Env) (c : Governor.Call) :
    (D.factoryAfter n env c).factory.streamWasmHash = n.world.factory.streamWasmHash := by
  have hswitch : ∀ on, ((D.switched n env on).toOption.getD n.world).factory.streamWasmHash =
      n.world.factory.streamWasmHash := by
    intro on
    cases h : D.switched n env on with
    | error e => rfl
    | ok w =>
        cases on with
        | true => exact (Factory.paused_of_pause h).wasm
        | false => exact (Factory.unpause_spec h).2.2
  unfold Deployment.factoryAfter
  split
  · split
    · exact hswitch true
    · exact hswitch false
    · rfl
  · rfl

theorem wasm_of_step (hn : Factory.Registered n.world)
    (hgovernor : n.world.factory.governorAddress = some D.governor) (h : Step D n a n') :
    n'.world.factory.streamWasmHash = n.world.factory.streamWasmHash := by
  cases h with
  | factory hcall ho h =>
      exact (Factory.unswitched_of_exec hn (ungoverned_of_called hgovernor hcall h) h).wasm
  | @governor o env c g hcall h => exact wasm_of_factoryAfter n env c
  | _ => rfl

/-- The steps in which the governor replaces its own code. -/
def Action.upgrades : Action → Bool
  | .governor _ _ (.upgrade ..) => true
  | _ => false

/-- The network, and whether the governor's code has been replaced. -/
structure Coded where
  network : State
  replaced : Bool

inductive Coding where
  | network (a : Action)
  | foreign (w : Factory.World)

/-- Another code than the modelled one may sign anything for the governor, so that nothing is known of the
factory after it. -/
inductive CodeStep (D : Deployment) : Coded → Coding → Coded → Prop where
  | network {n n' : State} {a : Action} {replaced : Bool} (h : Step D n a n') :
      CodeStep D ⟨n, replaced⟩ (.network a) ⟨n', replaced || a.upgrades⟩
  | foreign {n : State} {w : Factory.World} : CodeStep D ⟨n, true⟩ (.foreign w) ⟨{ n with world := w }, true⟩

variable {c c' : Coded} {cs : List Coding}

/-- Code that was not replaced was modelled all along. -/
theorem network_of_run (h : Run (CodeStep D) c cs c') (hcode : c'.replaced = false) :
    ∃ as, Run (Step D) c.network as c'.network := by
  induction h with
  | nil => exact ⟨[], .nil _⟩
  | snoc _ hstep ih =>
      cases hstep with
      | network hstep =>
          obtain ⟨as, hrun⟩ := ih (Bool.or_eq_false_iff.mp hcode).1
          exact ⟨_, hrun.snoc hstep⟩
      | foreign => cases hcode

theorem run_of_network (h : Run (Step D) n as n') (hcode : ∀ a ∈ as, a.upgrades = false) :
    Run (CodeStep D) ⟨n, false⟩ (as.map .network) ⟨n', false⟩ := by
  induction h with
  | nil => exact .nil _
  | @snoc t u as a _ hstep ih =>
      have hrun := ih fun b hb => hcode b (List.mem_append_left _ hb)
      have hlast : CodeStep D ⟨t, false⟩ (.network a) ⟨u, false || a.upgrades⟩ := .network hstep
      rw [hcode a (List.mem_append_right _ List.mem_cons_self)] at hlast
      rw [List.map_append]
      exact hrun.snoc hlast

theorem wasm_of_network (h₀ : Genesis D n₀) (h : Run (Step D) n₀ as n) :
    n.world.factory.streamWasmHash = n₀.world.factory.streamWasmHash := by
  induction h with
  | nil => rfl
  | snoc hrun hstep ih =>
      obtain ⟨hr, hgovernor⟩ := registered_of_run h₀ hrun
      exact (wasm_of_step hr hgovernor hstep).trans ih

theorem upgradeSelf_refused {hash : Factory.Hash} {version : U32} {w : Factory.World}
    (hgovernor : n.world.factory.governorAddress = some D.governor) (hcall : D.Called n env D.factory) :
    Factory.upgradeSelf env hash version n.world ≠ .ok w := by
  intro h
  simp only [Factory.upgradeSelf, bind_eq_ok, Factory.requireGovernor_eq_ok] at h
  obtain ⟨g, ⟨hg, hsigned⟩, -⟩ := h
  obtain rfl := Option.some.inj (hg.symm.trans hgovernor)
  cases D.role_governor.symm.trans (hcall.signers _ hsigned)

/-- **The factory deploys the code it was initialized with**, over every run of the network in which the
governor's code is not replaced; and it keeps its own code, as `upgrade_self` is refused to everybody. -/
theorem wasm_of_run (h₀ : Genesis D n₀) (h : Run (CodeStep D) ⟨n₀, false⟩ cs ⟨n, false⟩) :
    n.world.factory.streamWasmHash = n₀.world.factory.streamWasmHash ∧
      ∀ env hash version w, D.Called n env D.factory →
        Factory.upgradeSelf env hash version n.world ≠ .ok w := by
  obtain ⟨as, hrun⟩ := network_of_run h rfl
  exact ⟨wasm_of_network h₀ hrun, fun env hash version w hcall =>
    upgradeSelf_refused (registered_of_run h₀ hrun).2 hcall⟩

theorem wasm_of_run_withdrawn : Sample.withdrawn.world.factory.streamWasmHash = some 1 :=
  (wasm_of_run Sample.genesis_opened (run_of_network Sample.run_withdrawn (by decide +kernel))).1.trans
    (by decide +kernel)

/-! ### A factory that is stopped -/

/-- The fourteen days after `t` are not over. -/
def InForce (t now : U64) : Prop := ¬ t.saturatingAdd Pause.defaultMaxPauseDuration ≤ now

theorem InForce.earlier {t now later : U64} (h : InForce t later) (hle : now.val ≤ later.val) :
    InForce t now := fun hout => h (Int.le_trans (Ranged.le_def.mp hout) hle)

end Drip.Network
