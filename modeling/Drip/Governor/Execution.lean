import Drip.Governor.StatusIndex

/-!
# Governor — Execution

When `execute_proposal` goes through, and of what.

* `Ready`: its checks, all on the state before the call; `executeProposal_ok_iff`.
* `Passed`: what an execution should be of: an open proposal past its timelock and within its window,
  with a quorum and more votes for it than against it.  The code checks all of it but the last.
* A proposal that has been executed or cancelled is never executed again (`not_executed_of_run`).
-/

namespace Drip.Governor
open Chain

variable {here : Address} {host : Host} {env : Env} {s s' : State} {c : Call} {a : Action}
variable {ps ps' : Proposals} {id i : U64} {status : ProposalStatus} {executor author : Address}
variable {tokens : Ledger} {as : List Action} {p : Proposal} {config : GovernorConfig}

/-! ### The checks -/

/-- The recorded stake, if any, can be paid back. -/
def Refundable (env : Env) (s : State) (id : U64) (author : Address) : Prop :=
  ∀ amount, s.store.proposals.proposalStake id = some amount →
    ∃ token, s.store.proposals.proposalStakeTokenByProposal id = some token ∧
      (s.tokens.transfer token env.contract author amount).isSome = true

def Ready (env : Env) (executor : Address) (id : U64) (s : State) : Prop :=
  Signed env s .executor executor ∧
    ∃ p config, Due env s id p config ∧ Refundable env s id p.author

theorem refund_ok_iff :
    (∃ s', refundProposalStake env id author s = .ok s') ↔ Refundable env s id author := by
  unfold refundProposalStake Refundable
  split
  · rename_i hnone
    exact iff_of_true ⟨s, rfl⟩ fun amount h => by rw [hnone] at h; cases h
  · rename_i amount hamount
    simp only [bind_eq_ok, okOr_eq_ok, pure_eq_ok, transfer, hamount, Option.some.injEq, forall_eq']
    constructor
    · rintro ⟨s', token, htoken, -, ⟨tokens, htokens, -⟩, -⟩
      refine ⟨token, htoken, ?_⟩
      rw [htokens]
      rfl
    · rintro ⟨token, htoken, hsome⟩
      obtain ⟨tokens, htokens⟩ := Option.isSome_iff_exists.mp hsome
      exact ⟨_, token, htoken, _, ⟨tokens, htokens, rfl⟩, rfl⟩

theorem executeProposal_ok_iff :
    (∃ s', executeProposal env executor id s = .ok s') ↔ Ready env executor id s := by
  simp only [executeProposal, requireExecutor, bind_eq_ok, okOr_eq_ok, reject_eq_ok, pure_eq_ok,
    requireRole_eq_ok]
  constructor
  · rintro ⟨s', -, hsigned, p, hp, -, hopen, -, hdelay, -, hwindow, config, hconfig, -, hquorum, s₁,
      hrefund, -⟩
    exact ⟨hsigned, p, config, ⟨hp, open_of_not p hopen, hdelay, hwindow, hconfig, hquorum⟩,
      refund_ok_iff.mp ⟨s₁, hrefund⟩⟩
  · rintro ⟨hsigned, p, config, hdue, hrefundable⟩
    obtain ⟨s₁, hrefund⟩ := refund_ok_iff.mpr hrefundable
    have hopen : ¬ (p.status ≠ .pending ∧ p.status ≠ .active) := by
      rintro ⟨hpending, hactive⟩
      rcases hdue.opened with h | h
      · exact hpending h
      · exact hactive h
    exact ⟨_, (), hsigned, p, hdue.stored, (), hopen, (), hdue.delay, (), hdue.window, config,
      hdue.loaded, (), hdue.quorum, s₁, hrefund, rfl⟩

/-! ### What is executed -/

structure Passed (env : Env) (s : State) (id : U64) (p : Proposal) : Prop where
  stored : s.store.proposals.proposal id = some p
  opened : p.Open
  delay : p.createdAt.val + 604800 ≤ env.timestamp.val
  window : env.timestamp.val ≤ p.createdAt.val + 604800 + p.executionWindowSecs.val
  quorum : ∃ snapshot, s.store.proposals.proposalVoteSnapshot id = some snapshot ∧
    snapshot.totalSupply.val * s.store.params.minQuorumBpsOr.val / 10000 ≤
      p.forVotes.val + p.againstVotes.val + (getAbstainVotes s.store.proposals id).val
  won : p.againstVotes.val < p.forVotes.val

/-- Every proposal has the snapshot that `propose` took. -/
def Snapshotted (ps : Proposals) : Prop :=
  ∀ id, (statusOf ps id).isSome = true → (ps.proposalVoteSnapshot id).isSome = true

theorem minQuorumBps_of_load (h : loadConfig s = .ok config) :
    config.minQuorumBps = s.store.params.minQuorumBpsOr := by
  simp only [loadConfig, bind_eq_ok, pure_eq_ok] at h
  obtain ⟨-, -, -, -, rfl⟩ := h
  rfl

theorem totalVotes_le : (totalVotes s id p).val ≤
    p.forVotes.val + p.againstVotes.val + (getAbstainVotes s.store.proposals id).val := by
  have hfor := p.forVotes.ge
  have hagainst := p.againstVotes.ge
  have habstain := (getAbstainVotes s.store.proposals id).ge
  simp only [totalVotes, Ranged.saturatingAdd, Ranged.val_clamp]
  omega

/-- The threshold is not cut off: a quorum is at most the whole supply. -/
theorem quorumThreshold_val {bps : U32} {snapshot : VoteTallySnapshot} (hle : bps.val ≤ 10000)
    (hsnapshot : s.store.proposals.proposalVoteSnapshot id = some snapshot) :
    (quorumThreshold s id bps).val = snapshot.totalSupply.val * bps.val / 10000 := by
  have hge := snapshot.totalSupply.ge
  have hsupply := snapshot.totalSupply.le
  have hbps := bps.ge
  have hnonneg : 0 ≤ snapshot.totalSupply.val * bps.val / 10000 :=
    Int.ediv_nonneg (Int.mul_nonneg hge hbps) (by decide)
  have hprod : snapshot.totalSupply.val * bps.val ≤ snapshot.totalSupply.val * 10000 :=
    Int.mul_le_mul_of_nonneg_left hle hge
  simp only [quorumThreshold, truncateU64, hsnapshot, Option.map_some, Option.getD_some,
    Ranged.val_clamp]
  omega

theorem passed_of_due (hdue : Due env s id p config) (hsound : s.store.params.Sound)
    (hsnap : Snapshotted s.store.proposals) (hwon : p.againstVotes.val < p.forVotes.val) :
    Passed env s id p := by
  have hdelay := hdue.delay
  have hwindow := hdue.window
  have hwge := p.executionWindowSecs.ge
  have hcreated := p.createdAt.ge
  have hnow := env.timestamp.le
  simp only [Ranged.lt_def, Ranged.saturatingSub, Ranged.saturatingAdd, Ranged.val_clamp,
    minExecutionDelay] at hdelay hwindow
  refine ⟨hdue.stored, hdue.opened, by omega, by omega, ?_, hwon⟩
  have hstored : (statusOf s.store.proposals id).isSome = true := by
    rw [statusOf, hdue.stored]
    rfl
  obtain ⟨snapshot, hsnapshot⟩ := Option.isSome_iff_exists.mp (hsnap id hstored)
  refine ⟨snapshot, hsnapshot, ?_⟩
  have hquorum := hdue.quorum
  have hvotes : (totalVotes s id p).val ≤ _ := totalVotes_le
  rw [minQuorumBps_of_load hdue.loaded, Ranged.lt_def,
    quorumThreshold_val hsound.quorum hsnapshot] at hquorum
  by_cases hzero : 0 < s.store.params.minQuorumBpsOr.val
  · have := not_lt.mp fun h => hquorum ⟨hzero, h⟩
    omega
  · -- without a quorum the threshold is nothing
    have hbps : s.store.params.minQuorumBpsOr.val = 0 :=
      le_antisymm (not_lt.mp hzero) s.store.params.minQuorumBpsOr.ge
    have hfor := p.forVotes.ge
    have hagainst := p.againstVotes.ge
    have habstain := (getAbstainVotes s.store.proposals id).ge
    rw [hbps, mul_zero, Int.zero_ediv]
    omega

/-! ### Over a run -/

theorem Snapshotted.congr (h : Snapshotted ps)
    (hstatus : ∀ i, (statusOf ps' i).isSome = true → (statusOf ps i).isSome = true)
    (hsnap : ps'.proposalVoteSnapshot = ps.proposalVoteSnapshot) : Snapshotted ps' := by
  intro i hi
  rw [hsnap]
  exact h i (hstatus i hi)

/-- A change of status stores no proposal. -/
theorem Snapshotted.setStatus (h : Snapshotted ps) (hi : Indexed ps) :
    Snapshotted (setProposalStatus id status ps).2 := by
  obtain ⟨proposal, lists, heq⟩ := setProposalStatus_frame id status ps
  refine h.congr (fun i hisSome => ?_) (by rw [heq])
  rw [(setProposalStatus_spec hi).2] at hisSome
  split at hisSome
  · rename_i hid
    rw [hid.1]
    exact hid.2
  · exact hisSome

/-- A new proposal comes with its snapshot. -/
theorem Snapshotted.record {caller token : Address} {stake : I128} {window supply : U64}
    (h : Snapshotted ps) (hi : Indexed ps) (hid : id.val = (counterOf ps).val + 1) :
    Snapshotted (recordProposal env id caller token stake window supply ps) := by
  intro i hisSome
  rw [(recordProposal_spec hi hid).2] at hisSome
  have hnot : id ∉ proposalsByStatus ps .pending := by
    rw [hi.mem, hi.fresh hid]
    exact nofun
  rw [recordProposal_eq hnot]
  dsimp only
  by_cases hii : i = id
  · rw [hii, Function.update_self]
    rfl
  · rw [if_neg hii] at hisSome
    rw [Function.update_of_ne hii]
    exact h i hisSome

theorem Effect.snapshotted (h : Effect env s c s') (hi : Indexed s.store.proposals)
    (hs : Snapshotted s.store.proposals) : Snapshotted s'.store.proposals := by
  cases h with
  | administers _ h => rwa [h.store]
  | initializes _ hset _ hfirst _ hrest => rwa [hrest.store, hfirst.store, hset.store]
  | sets _ h _ => rwa [h.store]
  | checkpoints => exact hs
  | proposes _ _ hid h =>
      obtain ⟨tokens, -, rfl⟩ := transfer_eq_ok h
      exact hs.record hi hid
  | executes _ h =>
      rename_i executor id p config s₁ _
      have hsnap : s₁.store.proposals.proposalVoteSnapshot =
          s.store.proposals.proposalVoteSnapshot := by
        obtain ⟨-, rfl⟩ | ⟨amount, token, tokens, -, -, -, rfl⟩ := refund_eq_ok h
        · rfl
        · rfl
      have hs₁ : Snapshotted s₁.store.proposals :=
        hs.congr (fun i hstored => by rwa [statusOf_refund h] at hstored) hsnap
      exact hs₁.setStatus (hi.refund h)
  | cancels _ hp _ =>
      rename_i id p es _ _
      obtain ⟨records, hrecords⟩ := archive_eq id p s.store.proposals
      show Snapshotted (setProposalStatus id .cancelled (archiveVoteRecord id p s.store.proposals)).2
      rw [hrecords]
      exact Snapshotted.setStatus (hs.congr (fun _ h => h) rfl) (hi.congr rfl (fun _ => rfl) rfl)

/-- What holds along every run. -/
structure Orderly (s : State) : Prop where
  indexed : Indexed s.store.proposals
  snapshotted : Snapshotted s.store.proposals
  sound : s.store.params.Sound

theorem Step.orderly (h : Step here s a s') (ho : Orderly s) : Orderly s' := by
  refine ⟨h.indexed ho.indexed, ?_, h.sound ho.sound⟩
  cases h with
  | call _ h => exact (effect_of_exec h).snapshotted ho.indexed ho.snapshotted
  | failed _ _ | outside _ => exact ho.snapshotted
  | ballot h =>
      rename_i b p
      obtain ⟨proposal, abstains, lists, heq⟩ := count_frame b p s.store.proposals
      refine ho.snapshotted.congr (fun i hisSome => ?_) ?_
      · rw [State.withProposals, (count_spec ho.indexed h).2] at hisSome
        split at hisSome
        · rename_i hid
          rw [hid.1, statusOf, h]
          rfl
        · exact hisSome
      · rw [State.withProposals, heq]

theorem orderly_fresh (tokens : Ledger) : Orderly (State.fresh tokens) :=
  ⟨Indexed.empty, fun _ => nofun, nofun, (by decide : (0 : Int) ≤ 10000)⟩

theorem orderly_of_run (h : Run (Step here) (State.fresh tokens) as s) : Orderly s :=
  h.invariant (fun _ => Step.orderly) (orderly_fresh tokens)

/-- A terminal status is kept by every step. -/
theorem Step.terminal (h : Step here s a s') (hi : Indexed s.store.proposals)
    (hst : status.Terminal) (hid : statusOf s.store.proposals id = some status) :
    statusOf s'.store.proposals id = some status := by
  cases h with
  | call _ h => exact ((effect_of_exec h).indexed hi).2 id status hst hid
  | failed _ _ | outside _ => exact hid
  | ballot h =>
      rw [State.withProposals, (count_spec hi h).2, if_neg, hid]
      rintro ⟨rfl, -, hpending⟩
      rw [statusOf, h] at hid
      have hopen : Proposal.Open _ := .inl hpending
      exact hopen.not_terminal (Option.some.inj hid ▸ hst)

/-- A proposal with a terminal status is never executed. -/
theorem not_executed_of_run {status : ProposalStatus} (h : Run (Step here) s as s')
    (hi : Indexed s.store.proposals) (hst : status.Terminal)
    (hid : statusOf s.store.proposals id = some status) : ¬ Ready env executor id s' := by
  have hkept := h.invariant
    (P := fun s => Indexed s.store.proposals ∧ statusOf s.store.proposals id = some status)
    (fun _ hstep hs => ⟨hstep.indexed hs.1, hstep.terminal hs.1 hst hs.2⟩) ⟨hi, hid⟩
  rintro ⟨-, p, config, hdue, -⟩
  have hid' := hkept.2
  rw [statusOf, hdue.stored] at hid'
  exact hdue.opened.not_terminal (Option.some.inj hid' ▸ hst)

/-- The proposal has more votes for it than against it. -/
def Won (s : State) (id : U64) : Prop :=
  ∀ p, s.store.proposals.proposal id = some p → p.againstVotes.val < p.forVotes.val

/-- At every state of every run an execution is of a passed proposal exactly when the proposal has
won, or one of the other checks refuses the call; and what has been executed or cancelled is never
executed again. -/
theorem execution_of_run (h : Run (Step here) (State.fresh tokens) as s) :
    (∀ env executor id, ((∃ s', executeProposal env executor id s = .ok s') →
        ∃ p, Passed env s id p) ↔ (Ready env executor id s → Won s id)) ∧
    (∀ id p, s.store.proposals.proposal id = some p →
      p.status = .executed ∨ p.status = .cancelled →
      ∀ bs s', Run (Step here) s bs s' →
        ∀ env executor s'', executeProposal env executor id s' ≠ .ok s'') := by
  have ho := orderly_of_run h
  refine ⟨fun env executor id => ?_, fun id p hp hst bs s' hrun env executor s'' hexec => ?_⟩
  · rw [executeProposal_ok_iff]
    constructor
    · intro hpassed hready p hp
      obtain ⟨p', hp'⟩ := hpassed hready
      obtain rfl := Option.some.inj (hp.symm.trans hp'.stored)
      exact hp'.won
    · intro hwon hready
      have hready' := hready
      obtain ⟨-, p, config, hdue, -⟩ := hready'
      exact ⟨p, passed_of_due hdue ho.sound ho.snapshotted (hwon hready p hdue.stored)⟩
  · have hid : statusOf s.store.proposals id = some p.status := by
      rw [statusOf, hp]
      rfl
    exact not_executed_of_run hrun ho.indexed hst hid (executeProposal_ok_iff.mp ⟨s'', hexec⟩)

/-- A vote of three to one, and the execution past the timelock. -/
theorem execution_of_run_won :
    let b : Ballot := ⟨.lit 1, .lit 3, .lit 1, .lit 0, true⟩
    let s := Sample.proposed.withProposals
      (b.count (.made (Sample.envAt (.lit 120)) (.account 1) (.lit 1000))
        Sample.proposed.store.proposals)
    let env := Sample.envAt (.lit 604930)
    (executeProposal env (.account 4) (.lit 1) s).isOk = true ∧ ∃ p, Passed env s (.lit 1) p := by
  intro b s env
  obtain ⟨tokens, as, hrun⟩ := Sample.reachable_proposed
  have hballot := hrun.snoc (.ballot (b := b) (by rfl))
  have hok : (executeProposal env (.account 4) (.lit 1) s).isOk = true := by decide
  refine ⟨hok, ((execution_of_run hballot).1 env (.account 4) (.lit 1)).mpr (fun _ p hp => ?_)
    (exists_of_isOk hok)⟩
  cases hp
  decide

/-- Nobody has voted on the proposal, and it is executed. -/
theorem unvoted_executes :
    let env := Sample.envAt (.lit 604930)
    Reachable Sample.address Sample.proposed ∧
      (executeProposal env (.account 4) (.lit 1) Sample.proposed).isOk = true ∧
      ¬ ∃ p, Passed env Sample.proposed (.lit 1) p := by
  intro env
  refine ⟨Sample.reachable_proposed, by decide, ?_⟩
  rintro ⟨p, hp⟩
  have hstored := hp.stored
  cases hstored
  exact absurd hp.won (by decide)

end Drip.Governor
