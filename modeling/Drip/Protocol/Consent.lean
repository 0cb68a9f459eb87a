import Drip.Protocol.Network

/-!
# Protocol — Consent

Whose tokens the protocol takes, over whole runs of the network.

* `Reachable.stands`: every stream is where its own entry points have brought it.
* `consent_of_run`: whoever has signed nothing, and is not called, loses nothing.
* `supply_of_run`: no token is made or destroyed.
-/

namespace Drip.Network
open Chain

variable {D : Deployment} {n n' n₀ n₁ : State} {a : Action} {as : List Action} {x : Address}

/-! ### Time and streams -/

theorem now_le_of_step (h : Step D n a n') : n.now.val ≤ n'.now.val := by
  cases h with
  | factory hcall _ _ | stream hcall _ _ | governor hcall _ | vault _ hcall _ _ _
  | processor hcall _ | wallet hcall _ _ => exact hcall.time
  | ballot _ => exact le_rfl

/-- Streams are where the factory deploys. -/
def Deployment.sites (D : Deployment) : Terms := fun a _ => D.role a = some .stream

theorem sites_of_terms {args : Stream.InitArgs} (h : a.terms D n x args) : D.sites x args := by
  cases a with
  | factory o env c =>
      obtain ⟨config, -, p, now, description, id, -, -, -, rfl, -⟩ := h
      exact D.role_streamAddress _
  | _ => exact h.elim

/-- The contract of the protocol, other than a stream, that a step calls. -/
def Action.callee (D : Deployment) : Action → Option Address
  | .factory _ _ _ => some D.factory
  | .governor _ _ _ => some D.governor
  | .vault _ env _ => some env.contract
  | .processor _ _ _ => some D.processor
  | .stream _ _ | .ballot _ | .wallet _ _ _ _ _ => none

theorem outside_of_acting {env : Env} {callee : Address} (hcall : D.Called n env callee)
    (hx : env.Acting x) : D.Outside x ∨ callee = x :=
  hx.imp (hcall.signers x) fun heq => (heq.trans hcall.contract).symm

/-- Those who take part are from outside, but for the contract that is called. -/
theorem outside_of_party (h : Step D n a n') (hx : a.Party D x) : D.Outside x ∨ a.callee D = some x := by
  cases h with
  | factory hcall _ _ =>
      rcases hx with hx | ⟨hout, -⟩
      · exact (outside_of_acting hcall hx).imp_right (congrArg some)
      · exact .inl hout
  | stream hcall _ _ => exact .inl (hcall.signers x hx)
  | governor hcall _ => exact (outside_of_acting hcall hx).imp_right (congrArg some)
  | ballot _ => exact hx.elim
  | vault _ hcall _ _ _ =>
      rcases hx with hx | ⟨hout, -⟩
      · exact (outside_of_acting hcall hx).imp_right (congrArg some)
      · exact .inl hout
  | processor hcall _ => exact (outside_of_acting hcall hx).imp_right (congrArg some)
  | wallet hcall _ _ => exact .inl (hcall.signers x hx)

theorem role_of_callee (h : Step D n a n') (hx : a.callee D = some x) : D.role x ≠ some .stream := by
  cases h with
  | factory _ _ _ =>
      rw [← Option.some.inj hx, D.role_factory]
      decide
  | governor _ _ =>
      rw [← Option.some.inj hx, D.role_governor]
      decide
  | vault hrole _ _ _ _ =>
      rw [← Option.some.inj hx, hrole]
      decide
  | processor _ _ =>
      rw [← Option.some.inj hx, D.role_processor]
      decide
  | stream _ _ _ | ballot _ | wallet _ _ _ => cases hx

/-- A stream takes part by its own entry points only. -/
theorem role_of_party (h : Step D n a n') (hx : a.Party D x) : D.role x ≠ some .stream := by
  rcases outside_of_party h hx with hout | hcallee
  · rw [show D.role x = none from hout]
    exact (Option.some_ne_none _).symm
  · exact role_of_callee h hcallee

theorem site_of_sites (h : D.sites.site x) : D.role x = some .stream := by
  obtain ⟨args, hrole⟩ := h
  exact hrole

theorem stands_of_step (h : Step D n a n') (hn : Stands D.sites n.now n.shared) :
    Stands D.sites n'.now n'.shared :=
  (acts_of_step h).stands (fun _ hsite hx => role_of_party h hx (site_of_sites hsite))
    (fun _ _ => sites_of_terms) (hn.later (now_le_of_step h))

theorem streams_of_genesis (h : Genesis D n) (a : Address) : n.world.streams a = none := by
  obtain ⟨hash, tokens, hinit⟩ := h.factory
  simp only [Factory.initializeFactory, bind_eq_ok, pure_eq_ok] at hinit
  obtain ⟨-, -, -, -, -, -, hworld⟩ := hinit
  rw [← hworld]

theorem stands_of_genesis {Q : Terms} (h : Genesis D n) : Stands Q n.now n.shared := by
  intro a d hd
  have hnone := streams_of_genesis h a
  cases hd.symm.trans hnone

def Reachable (D : Deployment) (n : State) : Prop :=
  ∃ n₀ as, Genesis D n₀ ∧ Run (Step D) n₀ as n

theorem Reachable.stands (h : Reachable D n) : Stands D.sites n.now n.shared := by
  obtain ⟨n₀, as, h₀, hrun⟩ := h
  exact hrun.invariant (P := fun n => Stands D.sites n.now n.shared) (fun _ => stands_of_step)
    (stands_of_genesis h₀)

theorem Reachable.snoc (h : Reachable D n) (hstep : Step D n a n') : Reachable D n' := by
  obtain ⟨n₀, as, h₀, hrun⟩ := h
  exact ⟨n₀, as ++ [a], h₀, hrun.snoc hstep⟩

/-! ### Custody -/

/-- The tokens of a step come from those who take part, and from streams. -/
theorem custody_of_step (hn : Reachable D n) (h : Step D n a n') :
    n.world.tokens.Moves (fun x => a.Party D x ∨ D.role x = some .stream) n'.world.tokens := by
  have hmoves := (acts_of_step h).custody (fun _ hsite hx => role_of_party h hx (site_of_sites hsite))
    (fun _ _ => sites_of_terms) (hn.stands.later (now_le_of_step h))
  exact hmoves.mono fun x hx => hx.imp_right site_of_sites

theorem custody_of_run (hn : Reachable D n₁) (h : Run (Step D) n₁ as n) :
    Reachable D n ∧ n₁.world.tokens.Moves
      (fun x => (∃ a ∈ as, a.Party D x) ∨ D.role x = some .stream) n.world.tokens := by
  induction h with
  | nil => exact ⟨hn, .refl _ _⟩
  | snoc _ hstep ih =>
      obtain ⟨hr, hmoves⟩ := ih
      refine ⟨hr.snoc hstep, (hmoves.mono fun x hx => ?_).trans
        ((custody_of_step hr hstep).mono fun x hx => ?_)⟩
      · refine hx.imp_left fun ⟨b, hb, hparty⟩ => ⟨b, List.mem_append_left _ hb, hparty⟩
      · exact hx.imp_left fun hparty => ⟨_, List.mem_append_right _ List.mem_cons_self, hparty⟩

/-- **Nobody pays without taking part.**  Over any run of the network, the balance of a holder that is not
a stream falls only if some step has its signature, runs its own code, or calls it. -/
theorem consent_of_run (hn : Reachable D n₁) (h : Run (Step D) n₁ as n)
    (hstream : D.role x ≠ some .stream) (hno : ∀ a ∈ as, ¬ a.Party D x) (token : Address) :
    (n₁.world.tokens.balance token x).val ≤ (n.world.tokens.balance token x).val := by
  refine (custody_of_run hn h).2.le ?_ token
  rintro (⟨a, ha, hparty⟩ | hrole)
  · exact hno a ha hparty
  · exact hstream hrole

/-- The recipient of the fees, up to the withdrawal. -/
theorem consent_of_run_withdrawn :
    (Sample.opened.world.tokens.balance Sample.token Sample.feeRecipient).val ≤
      (Sample.withdrawn.world.tokens.balance Sample.token Sample.feeRecipient).val := by
  refine consent_of_run ⟨_, [], Sample.genesis_opened, .nil _⟩ Sample.run_withdrawn (by decide +kernel) ?_ _
  intro a ha
  simp only [Sample.actions, List.mem_cons, List.not_mem_nil, or_false] at ha
  obtain rfl | rfl | rfl := ha
  · exact Sample.not_joined (by decide) (by decide) List.not_mem_nil
  · exact Sample.not_joined (by decide) (by decide) List.not_mem_nil
  · exact Sample.not_joined (by decide) (by decide) (by decide +kernel)

/-- **No token is made or destroyed** by any run of the network. -/
theorem supply_of_run (hn : Reachable D n₁) (h : Run (Step D) n₁ as n) (token : Address) :
    n.world.tokens.supply token = n₁.world.tokens.supply token :=
  (custody_of_run hn h).2.supply token

theorem supply_of_run_withdrawn : Sample.withdrawn.world.tokens.supply Sample.token =
    Sample.opened.world.tokens.supply Sample.token :=
  supply_of_run ⟨_, [], Sample.genesis_opened, .nil _⟩ Sample.run_withdrawn Sample.token

end Drip.Network
