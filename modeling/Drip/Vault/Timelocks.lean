import Drip.Vault.Limits

/-!
# Vault — Timelocks

Two acts of the owner take effect later: a migration, and the ownership offered to another account.  Each
is one pending record, and what it says is what the last call that wrote it has said.

* `Initiated as d t`: among the actions, the last to concern the migration names `d`, at time `t`.
* `Proposed as account proposer t`: the last to concern the ownership offers it to `account`.
-/

namespace Drip.Vault
open Chain

variable {W : Type} {here : Address} {streams : Streams W} {env : Env} {m m' : Moment W}
variable {c : Call} {reply : Reply} {a : Action W} {as : List (Action W)} {s s' : State W}
variable {caller account proposer : Address} {tokens : Ledger} {world : W} {old new : Settings}

/-! ### The calls that write the records -/

def Call.migrates : Call → Bool
  | .initiateEmergencyMigration _ _ | .executeEmergencyMigration _ | .cancelEmergencyMigration _ => true
  | _ => false

def Call.offers : Call → Bool
  | .proposeOwner _ _ | .acceptOwner _ => true
  | _ => false

/-- A call of that kind has been carried out. -/
def Action.does (kind : Call → Bool) : Action W → Bool
  | .call _ _ c _ => kind c
  | _ => false

/-- After an initiation that names `d`, at time `t`, there is no other, no cancellation and no
execution. -/
def Initiated (as : List (Action W)) (d : Address) (t : U64) : Prop :=
  ∃ before streams env caller reply later,
    as = before ++ .call streams env (.initiateEmergencyMigration caller d) reply :: later ∧
      env.timestamp = t ∧ ∀ b ∈ later, b.does Call.migrates = false

/-- After a proposal of `account` by `proposer`, at time `t`, there is no other, and no acceptance. -/
def Proposed (as : List (Action W)) (account proposer : Address) (t : U64) : Prop :=
  ∃ before streams env reply later,
    as = before ++ .call streams env (.proposeOwner proposer account) reply :: later ∧
      env.timestamp = t ∧ ∀ b ∈ later, b.does Call.offers = false

/-- What the calls of other kinds keep in the settings, a step without one of this kind keeps. -/
theorem Step.keeps_setting {P : Settings → Prop} {kind : Call → Bool}
    (hP : ∀ env old c new, Setting env old c new → kind c = false → P old → P new)
    (h : Step here m a m') (ha : a.does kind = false) (hm : P m.state.store.settings) :
    P m'.state.store.settings := by
  cases h with
  | call henv htime hseq hstreams hexec =>
      exact hP _ _ _ _ (effect_of_exec (henv ▸ hstreams) hexec).setting ha hm
  | failed | outside => exact hm

/-! ### Migrations -/

theorem Setting.emergencyMigration (h : Setting env old c new) (hc : c.migrates = false) :
    new.emergencyMigration = old.emergencyMigration := by
  cases h with
  | initiateEmergencyMigration | executeEmergencyMigration | cancelEmergencyMigration => cases hc
  | _ => rfl

theorem Setting.initiated {migration : EmergencyMigration} (h : Setting env old c new)
    (hc : c.migrates = true) (hnew : new.emergencyMigration = some migration) :
    ∃ caller, c = .initiateEmergencyMigration caller migration.destination ∧
      migration.executableAt.val = env.timestamp.val + emergencyMigrationTimelockSeconds.val := by
  cases h with
  | initiateEmergencyMigration howns hexecutable =>
      obtain rfl := Option.some.inj hnew
      exact ⟨_, rfl, hexecutable⟩
  | executeEmergencyMigration | cancelEmergencyMigration => cases hnew
  | kept hsets =>
      cases c with
      | initiateEmergencyMigration | executeEmergencyMigration | cancelEmergencyMigration => cases hsets
      | _ => cases hc
  | _ => cases hc

/-- A migration that is pending is the one last initiated. -/
theorem initiated_of_run {migration : EmergencyMigration}
    (h : Run (Step here) (Moment.fresh tokens world) as m)
    (hm : m.state.store.settings.emergencyMigration = some migration) :
    ∃ t, Initiated as migration.destination t ∧
      migration.executableAt.val = t.val + emergencyMigrationTimelockSeconds.val := by
  obtain ⟨before, a, later, u, v, rfl, ha, hdoes, hv, -, hlater⟩ := h.exists_last
    (f := fun m => m.state.store.settings.emergencyMigration)
    (w := fun a => a.does Call.migrates = true)
    (fun {m a m'} hstep hw => hstep.keeps_setting
      (P := fun s => s.emergencyMigration = m.state.store.settings.emergencyMigration)
      (fun _ _ _ _ h hc hold => (h.emergencyMigration hc).trans hold)
      (Bool.eq_false_of_not_eq_true hw) rfl) rfl hm
  cases ha with
  | call henv htime hseq hstreams hexec =>
      have hsetting := (effect_of_exec (henv ▸ hstreams) hexec).setting
      obtain ⟨caller, rfl, hexecutable⟩ := hsetting.initiated hdoes hv
      exact ⟨_, ⟨before, _, _, caller, _, later, rfl, rfl, fun b hb =>
        Bool.eq_false_of_not_eq_true (hlater b hb)⟩, hexecutable⟩
  | failed | outside => cases hdoes

theorem transferPositive_spec {x : Transfer} (h : transferPositive s x = .ok s') :
    s'.events = s.events ∧ ∃ ts, s'.transfers = s.transfers ++ ts ∧ ∀ y ∈ ts, y = x := by
  unfold transferPositive at h
  split at h
  · simp only [transfer, bind_eq_ok, okOr_eq_ok, pure_eq_ok] at h
    obtain ⟨tokens, -, rfl⟩ := h
    exact ⟨rfl, [x], rfl, fun y hy => List.mem_singleton.mp hy⟩
  · cases h
    exact ⟨rfl, [], (List.append_nil _).symm, fun y hy => by cases hy⟩

/-- The migration that an execution carries out, and the event it publishes. -/
theorem executed_of {streams : Streams W}
    (h : exec streams env s (.executeEmergencyMigration caller) = .ok (reply, s')) :
    ∃ migration amount, s.store.settings.emergencyMigration = some migration ∧
      migration.executableAt ≤ env.timestamp ∧
      s'.events = s.events ++ [.emergencyMigrationExecuted caller migration.destination amount] ∧
      ∃ ts, s'.transfers = s.transfers ++ ts ∧
        ∀ x ∈ ts, x.src = env.contract ∧ x.dst = migration.destination := by
  simp only [exec, executeEmergencyMigration, nonReentrant, bind_eq_ok, okOr_eq_ok, reject_eq_ok,
    pure_eq_ok, exists_const, Prod.mk.injEq] at h
  obtain ⟨-, ⟨r, s₁⟩, ⟨-, -, migration, hmigration, hdue, token, -, s₂, htransfer, -, rfl⟩, -, rfl⟩ := h
  obtain ⟨hevents, ts, hts, hall⟩ := transferPositive_spec htransfer
  refine ⟨migration, s.balance token env.contract, hmigration, Ranged.not_lt.mp hdue, ?_, ts, hts,
    fun x hx => ?_⟩
  · exact congrArg (· ++ _) hevents
  · obtain rfl := hall x hx
    exact ⟨rfl, rfl⟩

/-! ### The ownership -/

theorem Setting.pendingOwner (h : Setting env old c new) (hc : c.offers = false) :
    new.pendingOwner = old.pendingOwner ∧ new.pendingOwnerProposedAt = old.pendingOwnerProposedAt := by
  cases h with
  | proposeOwner | acceptOwner => cases hc
  | _ => exact ⟨rfl, rfl⟩

/-- The owner changes only with the call that accepts the ownership. -/
theorem Setting.owner (h : Setting env old c new) (hc : c.offers = false)
    (howner : old.owner = some proposer) : new.owner = some proposer := by
  cases h with
  | acceptOwner => cases hc
  | initiateEmergencyMigration => exact howner
  | initializeVault hnone => cases hnone.symm.trans howner
  | _ => exact howner

theorem Setting.proposed (h : Setting env old c new) (hc : c.offers = true)
    (hnew : new.pendingOwner = some account) :
    ∃ proposer, c = .proposeOwner proposer account ∧ new.owner = some proposer ∧
      new.pendingOwnerProposedAt = some env.timestamp := by
  cases h with
  | proposeOwner howns =>
      obtain rfl := Option.some.inj hnew
      exact ⟨_, rfl, howns.1, rfl⟩
  | acceptOwner => cases hnew
  | kept hsets =>
      cases c with
      | proposeOwner | acceptOwner => cases hsets
      | _ => cases hc
  | _ => cases hc

/-- An ownership that is offered is the one last proposed, by the account that still is the owner. -/
theorem proposed_of_run (h : Run (Step here) (Moment.fresh tokens world) as m)
    (hm : m.state.store.settings.pendingOwner = some account) :
    ∃ proposer t, Proposed as account proposer t ∧ m.state.store.settings.owner = some proposer ∧
      m.state.store.settings.pendingOwnerProposedAt = some t := by
  obtain ⟨before, a, later, u, v, rfl, ha, hdoes, hv, hrun, hlater⟩ := h.exists_last
    (f := fun m => m.state.store.settings.pendingOwner)
    (w := fun a => a.does Call.offers = true)
    (fun {m a m'} hstep hw => hstep.keeps_setting
      (P := fun s => s.pendingOwner = m.state.store.settings.pendingOwner)
      (fun _ _ _ _ h hc hold => (h.pendingOwner hc).1.trans hold)
      (Bool.eq_false_of_not_eq_true hw) rfl) rfl hm
  have hlater : ∀ b ∈ later, b.does Call.offers = false := fun b hb =>
    Bool.eq_false_of_not_eq_true (hlater b hb)
  cases ha with
  | call henv htime hseq hstreams hexec =>
      rename_i s' streams env c reply
      have hsetting := (effect_of_exec (henv ▸ hstreams) hexec).setting
      obtain ⟨proposer, rfl, howner, hproposedAt⟩ := hsetting.proposed hdoes hv
      -- from then on the owner and the time of the proposal stay
      let Kept (s : Settings) : Prop :=
        s.owner = some proposer ∧ s.pendingOwnerProposedAt = some env.timestamp
      have hkeep : ∀ env' old c new, Setting env' old c new → c.offers = false → Kept old → Kept new :=
        fun _ _ _ _ h hc hold => ⟨h.owner hc hold.1, (h.pendingOwner hc).2.trans hold.2⟩
      have hkept : Kept m.state.store.settings :=
        hrun.invariant (P := fun m => Kept m.state.store.settings)
          (fun hin hstep hm => hstep.keeps_setting hkeep (hlater _ hin) hm) ⟨howner, hproposedAt⟩
      exact ⟨proposer, env.timestamp, ⟨before, streams, env, reply, later, rfl, rfl, hlater⟩, hkept⟩
  | failed | outside => cases hdoes

/-! ### Runs -/

/-- **The timelocks.**  A migration that is carried out goes to the destination named last, and named two
days before; an ownership that is accepted is the one proposed last, by the account that still owns the
vault, and within the time that proposals last. -/
theorem timelocks_of_run (h : Run (Step here) (Moment.fresh tokens world) as m)
    (hstep : Step here m (.call streams env c reply) m') :
    (∀ caller, c = .executeEmergencyMigration caller → ∃ d t amount,
      m'.state.events = m.state.events ++ [.emergencyMigrationExecuted caller d amount] ∧
      (∃ ts, m'.state.transfers = m.state.transfers ++ ts ∧ ∀ x ∈ ts, x.src = here ∧ x.dst = d) ∧
      Initiated as d t ∧ t.val + emergencyMigrationTimelockSeconds.val ≤ env.timestamp.val) ∧
    (∀ account, c = .acceptOwner account → ∃ proposer t, Proposed as account proposer t ∧
      m.state.store.settings.owner = some proposer ∧
      env.timestamp.val <
        t.val + (m.state.store.settings.ownerProposalTtl.getD ownerProposalTtlSeconds).val) := by
  have hsetting := hstep.effect.setting
  generalize m'.state.books.settings = new at hsetting
  cases hstep with
  | call henv htime hseq hstreams hexec =>
      constructor
      · rintro caller rfl
        obtain ⟨migration, amount, hmigration, hdue, hevents, ts, hts, hall⟩ := executed_of hexec
        obtain ⟨t, hinitiated, hexecutable⟩ := initiated_of_run h hmigration
        exact ⟨migration.destination, t, amount, hevents, ⟨ts, hts, henv ▸ hall⟩, hinitiated,
          hexecutable ▸ hdue⟩
      · rintro account rfl
        cases hsetting with
        | acceptOwner hauth hpending hproposer hproposedAt hvalid =>
            obtain ⟨proposer, t, hproposed, howner, ht⟩ := proposed_of_run h hpending
            obtain rfl := Option.some.inj (ht.symm.trans hproposedAt)
            exact ⟨proposer, t, hproposed, howner, hvalid⟩
        | kept hsets => cases hsets

/-- A migration two days after its initiation, and an ownership accepted after 100 seconds. -/
theorem timelocks_of_run_due :
    let xs := [Sample.signed Sample.owner (.initiateEmergencyMigration Sample.owner (.account 3)),
      Sample.signed Sample.owner (.proposeOwner Sample.owner Sample.operator)]
    let as := ((Moment.fresh Sample.tokens ()).tour Sample.silent (Sample.calls xs)).1
    (∃ d t, Initiated as d t ∧ t.val + emergencyMigrationTimelockSeconds.val ≤ 172900) ∧
      ∃ proposer t, Proposed as Sample.operator proposer t ∧ 200 < t.val + 604800 := by
  intro xs as
  have hrun := Sample.run_visited xs (by decide)
  let m := Sample.visited xs
  let later := Sample.signedBy Sample.owner (.lit 172900) (.lit 2)
  let soon := Sample.signedBy Sample.operator (.lit 200) (.lit 2)
  constructor
  · have execute : Step Sample.address m (.call Sample.silent later
        (.executeEmergencyMigration Sample.owner) (.amount (.lit 0)))
        (m.perform Sample.silent (later, .executeEmergencyMigration Sample.owner)).2 :=
      .call rfl (by decide) (by decide) Sample.silent_spares rfl
    obtain ⟨d, t, -, -, -, hinitiated, hdue⟩ := (timelocks_of_run hrun execute).1 _ rfl
    exact ⟨d, t, hinitiated, hdue⟩
  · have accept : Step Sample.address m (.call Sample.silent soon
        (.acceptOwner Sample.operator) .done)
        (m.perform Sample.silent (soon, .acceptOwner Sample.operator)).2 :=
      .call rfl (by decide) (by decide) Sample.silent_spares rfl
    obtain ⟨proposer, t, hproposed, -, hvalid⟩ := (timelocks_of_run hrun accept).2 _ rfl
    exact ⟨proposer, t, hproposed, hvalid⟩

end Drip.Vault
