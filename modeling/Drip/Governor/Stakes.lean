import Drip.Support.Cover
import Drip.Governor.StatusIndex

/-!
# Governor — Stakes

The stakes of the proposals.  `propose` takes a stake into the governor's balance and records it;
`execute_proposal` pays it back and forgets it; neither form of `cancel_proposal` does.

* `Escrowed`: a proposal's stake is recorded and has not been paid back, or the proposal has been
  executed and its stake paid back once, to its author.
* `Accounted`: so it is for every proposal, and the balances cover what is recorded
  (`accounted_of_run`).
* `Settled`: the stake of every executed or cancelled proposal has been paid back.  The runs with that
  are the runs without a cancellation (`stakes_of_run`).
-/

namespace Drip.Governor
open Chain

variable {here : Address} {host : Host} {env : Env} {s s' : State} {c : Call} {a : Action}
variable {ps ps' : Proposals} {id i : U64} {token : Address} {tokens : Ledger} {as : List Action}
variable {p p' : Proposal}

/-- What is recorded for the proposal in the token. -/
def owed (ps : Proposals) (token : Address) (id : U64) : Int :=
  match ps.proposalStake id with
  | some amount => if ps.proposalStakeTokenByProposal id = some token then amount.val else 0
  | none => 0

/-- The refunds of a proposal. -/
def refundsOf (id : U64) (ts : List Transfer) : List Transfer :=
  ts.filter fun t => t.purpose = .refund id

/-- Where a proposal has been stored, another id is still free. -/
theorem of_update_none {f : U64 → Option Proposal} (h : Function.update f id (some p) i = none) :
    i ≠ id ∧ f i = none := by
  have hii : i ≠ id := by
    rintro rfl
    rw [Function.update_self] at h
    cases h
  rw [Function.update_of_ne hii] at h
  exact ⟨hii, h⟩

theorem refundsOf_append (id : U64) (ts us : List Transfer) :
    refundsOf id (ts ++ us) = refundsOf id ts ++ refundsOf id us := List.filter_append ..

/-! ### The books -/

inductive Escrowed (here : Address) (s : State) (id : U64) (p : Proposal) : Prop where
  | held (token : Address) (amount : I128)
      (hin : ⟨token, p.author, here, amount, .stake id⟩ ∈ s.transfers)
      (hstake : s.store.proposals.proposalStake id = some amount)
      (htoken : s.store.proposals.proposalStakeTokenByProposal id = some token)
      (hrefunds : refundsOf id s.transfers = []) (hst : p.status ≠ .executed)
  | returned (token : Address) (amount : I128)
      (hin : ⟨token, p.author, here, amount, .stake id⟩ ∈ s.transfers)
      (hstake : s.store.proposals.proposalStake id = none)
      (hrefunds : refundsOf id s.transfers = [⟨token, here, p.author, amount, .refund id⟩])
      (hst : p.status = .executed)

/-- Nothing of the proposal's stake has changed. -/
theorem Escrowed.later (h : Escrowed here s id p) (hauthor : p'.author = p.author)
    (hst : p'.status = .executed ↔ p.status = .executed)
    (hstake : s'.store.proposals.proposalStake id = s.store.proposals.proposalStake id)
    (htoken : s'.store.proposals.proposalStakeTokenByProposal id =
      s.store.proposals.proposalStakeTokenByProposal id)
    (hlog : s.transfers ⊆ s'.transfers)
    (hrefunds : refundsOf id s'.transfers = refundsOf id s.transfers) : Escrowed here s' id p' := by
  cases h with
  | held token amount hin hstake' htoken' hrefunds' hst' =>
      exact .held token amount (hlog (hauthor ▸ hin)) (hstake.trans hstake') (htoken.trans htoken')
        (hrefunds.trans hrefunds') fun he => hst' (hst.mp he)
  | returned token amount hin hstake' hrefunds' hst' =>
      exact .returned token amount (hlog (hauthor ▸ hin)) (hstake.trans hstake')
        (hrefunds.trans (hauthor ▸ hrefunds')) (hst.mpr hst')

structure Accounted (here : Address) (s : State) : Prop where
  indexed : Indexed s.store.proposals
  escrowed : ∀ id p, s.store.proposals.proposal id = some p → Escrowed here s id p
  unborn : ∀ id, s.store.proposals.proposal id = none →
    s.store.proposals.proposalStake id = none ∧ refundsOf id s.transfers = []
  outgoing : ∀ t ∈ s.transfers, t.src = here → ∃ id, t.purpose = .refund id
  covered : ∀ token, Covers (s.tokens.balance token here).val (owed s.store.proposals token)

theorem accounted_fresh (tokens : Ledger) : Accounted here (State.fresh tokens) := by
  refine ⟨Indexed.empty, fun _ _ => nofun, fun _ _ => ⟨rfl, rfl⟩, fun _ => nofun, fun token => ?_⟩
  exact Covers.zero (tokens.balance token here).ge

/-- Steps that leave the proposals and the log alone. -/
theorem Accounted.congr (h : Accounted here s) (hps : s'.store.proposals = s.store.proposals)
    (hlog : s'.transfers = s.transfers)
    (hle : ∀ t, (s.tokens.balance t here).val ≤ (s'.tokens.balance t here).val) :
    Accounted here s' := by
  refine ⟨hps ▸ h.indexed, fun id p hp => ?_, fun id hid => ?_, ?_, fun token => ?_⟩
  · rw [hps] at hp
    exact (h.escrowed id p hp).later rfl Iff.rfl (by rw [hps]) (by rw [hps]) (hlog ▸ List.Subset.refl _)
      (by rw [hlog])
  · rw [hps] at hid ⊢
    rw [hlog]
    exact h.unborn id hid
  · rw [hlog]
    exact h.outgoing
  · rw [hps]
    exact (h.covered token).mono (hle token)

/-- One proposal is stored, with its stake accounted for; nothing of the others has changed. -/
theorem Accounted.touch (h : Accounted here s) (hi : Indexed s'.store.proposals)
    (hproposal : s'.store.proposals.proposal =
      Function.update s.store.proposals.proposal id (some p'))
    (hid : Escrowed here s' id p') (hlog : s.transfers ⊆ s'.transfers)
    (hrest : ∀ i, i ≠ id → s'.store.proposals.proposalStake i = s.store.proposals.proposalStake i ∧
      s'.store.proposals.proposalStakeTokenByProposal i =
        s.store.proposals.proposalStakeTokenByProposal i ∧
      refundsOf i s'.transfers = refundsOf i s.transfers)
    (hout : ∀ t ∈ s'.transfers, t.src = here → ∃ id, t.purpose = .refund id)
    (hcover : ∀ token, Covers (s'.tokens.balance token here).val (owed s'.store.proposals token)) :
    Accounted here s' := by
  refine ⟨hi, fun i q hq => ?_, fun i hnone => ?_, hout, hcover⟩
  · rw [hproposal] at hq
    by_cases hii : i = id
    · subst hii
      rw [Function.update_self] at hq
      cases hq
      exact hid
    · rw [Function.update_of_ne hii] at hq
      obtain ⟨hstake, htoken, hrefunds⟩ := hrest i hii
      exact (h.escrowed i q hq).later rfl Iff.rfl hstake htoken hlog hrefunds
  · rw [hproposal] at hnone
    obtain ⟨hii, hnone⟩ := of_update_none hnone
    obtain ⟨hs, hr⟩ := h.unborn i hnone
    obtain ⟨hstake, -, hrefunds⟩ := hrest i hii
    exact ⟨hstake.trans hs, hrefunds.trans hr⟩

/-- A proposal changes, but not its author, nor whether it has been executed. -/
theorem Accounted.amend {es : List Event} (h : Accounted here s) (hi : Indexed ps')
    (hp : s.store.proposals.proposal id = some p)
    (hproposal : ps'.proposal = Function.update s.store.proposals.proposal id (some p'))
    (hauthor : p'.author = p.author) (hst : p'.status = .executed ↔ p.status = .executed)
    (hstake : ps'.proposalStake = s.store.proposals.proposalStake)
    (htoken : ps'.proposalStakeTokenByProposal = s.store.proposals.proposalStakeTokenByProposal) :
    Accounted here { s.withProposals ps' with events := es } := by
  refine h.touch hi hproposal ?_ (List.Subset.refl _) (fun i _ => ?_) h.outgoing fun token => ?_
  · exact (h.escrowed id p hp).later hauthor hst (congrFun hstake id) (congrFun htoken id) (.refl _) rfl
  · exact ⟨congrFun hstake i, congrFun htoken i, rfl⟩
  · have howed : owed ps' token = owed s.store.proposals token := by
      funext i
      rw [owed, owed, hstake, htoken]
    show Covers _ (owed ps' token)
    rw [howed]
    exact h.covered token

/-! ### The stake of a new proposal -/

theorem owed_update {amount : I128} {stakeToken : Address}
    (hstake : ps'.proposalStake = Function.update ps.proposalStake id (some amount))
    (htoken : ps'.proposalStakeTokenByProposal =
      Function.update ps.proposalStakeTokenByProposal id (some stakeToken)) (token : Address) :
    owed ps' token =
      Function.update (owed ps token) id (if token = stakeToken then amount.val else 0) := by
  funext i
  rw [owed, hstake, htoken]
  by_cases hii : i = id
  · rw [hii, Function.update_self, Function.update_self, Function.update_self]
    simp only [Option.some.injEq, eq_comm]
  · rw [Function.update_of_ne hii, Function.update_of_ne hii, Function.update_of_ne hii, owed]

/-- `propose`: the stake comes in, and is recorded. -/
theorem Accounted.propose {caller stakeToken : Address} {window : U64} {stake : I128} {s₁ : State}
    {supply : U64} (h : Accounted here s) (henv : env.contract = here)
    (hauth : env.authorized caller = true) (hpos : 0 < stake.val)
    (hid : id.val = (counterOf s.store.proposals).val + 1)
    (htransfer : transfer s ⟨stakeToken, caller, env.contract, stake, .stake id⟩ = .ok s₁) :
    Accounted here (s₁.withProposals
      (recordProposal env id caller stakeToken stake window supply s₁.store.proposals)) := by
  obtain ⟨tokens, htokens, rfl⟩ := transfer_eq_ok htransfer
  have hfresh := h.indexed.fresh hid
  have hnone : s.store.proposals.proposal id = none := by
    cases hp : s.store.proposals.proposal id with
    | none => rfl
    | some p =>
        rw [statusOf, hp] at hfresh
        cases hfresh
  have hnot : id ∉ proposalsByStatus s.store.proposals .pending := by
    rw [h.indexed.mem, hfresh]
    exact (Option.some_ne_none _).symm
  have hcaller : caller ≠ here := henv ▸ env.ne_contract hauth
  obtain ⟨-, -, hbalance⟩ := Ledger.transfer_spec htokens
  obtain ⟨hstake₀, hrefunds₀⟩ := h.unborn id hnone
  -- a stake is no refund
  have hrefunds : ∀ i, refundsOf i (s.transfers ++
      [⟨stakeToken, caller, env.contract, stake, .stake id⟩]) = refundsOf i s.transfers := by
    intro i
    rw [refundsOf_append]
    exact List.append_nil _
  let ps' := recordProposal env id caller stakeToken stake window supply s.store.proposals
  have hproposal : ps'.proposal =
      Function.update s.store.proposals.proposal id (some (.made env caller window)) := by
    show (recordProposal _ _ _ _ _ _ _ _).proposal = _
    rw [recordProposal_eq hnot]
  have hstake : ps'.proposalStake =
      Function.update s.store.proposals.proposalStake id (some stake) := by
    show (recordProposal _ _ _ _ _ _ _ _).proposalStake = _
    rw [recordProposal_eq hnot]
  have htoken : ps'.proposalStakeTokenByProposal =
      Function.update s.store.proposals.proposalStakeTokenByProposal id (some stakeToken) := by
    show (recordProposal _ _ _ _ _ _ _ _).proposalStakeTokenByProposal = _
    rw [recordProposal_eq hnot]
  subst henv
  refine h.touch (recordProposal_spec h.indexed hid).1 hproposal ?_ (List.subset_append_left _ _)
    (fun i hii => ⟨?_, ?_, hrefunds i⟩) (fun t ht hsrc => ?_) fun token => ?_
  · refine .held stakeToken stake (List.mem_append_right _ List.mem_cons_self) ?_ ?_
      ((hrefunds id).trans hrefunds₀) (show ProposalStatus.pending ≠ .executed by decide)
    · rw [State.withProposals, hstake, Function.update_self]
    · rw [State.withProposals, htoken, Function.update_self]
  · rw [State.withProposals, hstake, Function.update_of_ne hii]
  · rw [State.withProposals, htoken, Function.update_of_ne hii]
  · rcases List.mem_append.mp ht with ht | ht
    · exact h.outgoing t ht hsrc
    · obtain rfl := List.mem_singleton.mp ht
      exact absurd hsrc hcaller
  · have hzero : owed s.store.proposals token id = 0 := by rw [owed, hstake₀]
    have hgrow := hbalance token env.contract
    rw [if_neg fun h => hcaller h.2.symm] at hgrow
    show Covers (tokens.balance token env.contract).val (owed ps' token)
    rw [owed_update hstake htoken]
    refine ((h.covered token).update (a := id) ?_).mono ?_
    · split
      · exact hpos.le
      · exact le_rfl
    · rw [hzero, hgrow]
      simp only [and_true]
      omega

/-! ### The refund of an executed proposal -/

theorem owed_erase (hstake : ps'.proposalStake = Function.update ps.proposalStake id none)
    (htoken : ∀ i, i ≠ id →
      ps'.proposalStakeTokenByProposal i = ps.proposalStakeTokenByProposal i) (token : Address) :
    owed ps' token = Function.update (owed ps token) id 0 := by
  funext i
  rw [owed, hstake]
  by_cases hii : i = id
  · rw [hii, Function.update_self, Function.update_self]
  · rw [Function.update_of_ne hii, Function.update_of_ne hii, htoken i hii, owed]

/-- An open proposal has its stake in the contract. -/
theorem Accounted.held_of_open (h : Accounted here s) (hp : s.store.proposals.proposal id = some p)
    (hopen : p.Open) : ∃ token amount, ⟨token, p.author, here, amount, .stake id⟩ ∈ s.transfers ∧
      s.store.proposals.proposalStake id = some amount ∧
      s.store.proposals.proposalStakeTokenByProposal id = some token ∧
      refundsOf id s.transfers = [] := by
  cases h.escrowed id p hp with
  | held token amount hin hstake htoken hrefunds _ =>
      exact ⟨token, amount, hin, hstake, htoken, hrefunds⟩
  | returned _ _ _ _ _ hst => exact absurd (.inl hst) hopen.not_terminal

/-- `execute_proposal`: the stake goes back to the author. -/
theorem Accounted.execute {s₁ : State} (h : Accounted here s) (henv : env.contract = here)
    (hp : s.store.proposals.proposal id = some p) (hopen : p.Open)
    (hrefund : refundProposalStake env id p.author s = .ok s₁) :
    Accounted here (s₁.withProposals (setProposalStatus id .executed s₁.store.proposals).2) := by
  subst henv
  obtain ⟨stakeToken, amount, hin, hstake₀, htoken₀, hrefunds₀⟩ := h.held_of_open hp hopen
  obtain ⟨hnone, -⟩ | ⟨amount', token', tokens, hstake', htoken', htokens, rfl⟩ := refund_eq_ok hrefund
  · rw [hstake₀] at hnone
    cases hnone
  obtain rfl : amount = amount' := Option.some.inj (hstake₀.symm.trans hstake')
  obtain rfl : stakeToken = token' := Option.some.inj (htoken₀.symm.trans htoken')
  obtain ⟨-, -, hbalance⟩ := Ledger.transfer_spec htokens
  let ps₁ : Proposals := { s.store.proposals with
    proposalStake := Function.update s.store.proposals.proposalStake id none
    proposalStakeTokenByProposal :=
      Function.update s.store.proposals.proposalStakeTokenByProposal id none }
  obtain ⟨proposal, lists, hframe⟩ := setProposalStatus_frame id .executed ps₁
  have hproposal : (setProposalStatus id .executed ps₁).2.proposal =
      Function.update s.store.proposals.proposal id (some { p with status := .executed }) :=
    setProposalStatus_proposal hp
  have hstake : (setProposalStatus id .executed ps₁).2.proposalStake =
      Function.update s.store.proposals.proposalStake id none := by rw [hframe]
  have htoken : (setProposalStatus id .executed ps₁).2.proposalStakeTokenByProposal =
      Function.update s.store.proposals.proposalStakeTokenByProposal id none := by rw [hframe]
  let t : Transfer := ⟨stakeToken, env.contract, p.author, amount, .refund id⟩
  have hrefunds : ∀ i, i ≠ id → refundsOf i (s.transfers ++ [t]) = refundsOf i s.transfers := by
    intro i hii
    rw [refundsOf_append]
    have hnil : refundsOf i [t] = [] := by
      refine List.filter_eq_nil_iff.mpr fun u hu => ?_
      obtain rfl := List.mem_singleton.mp hu
      simp only [t, Purpose.refund.injEq, decide_eq_true_eq]
      exact Ne.symm hii
    rw [hnil, List.append_nil]
  have hrest : ∀ i, i ≠ id → (setProposalStatus id .executed ps₁).2.proposalStakeTokenByProposal i =
      s.store.proposals.proposalStakeTokenByProposal i := fun i hii => by
    rw [htoken, Function.update_of_ne hii]
  have hi₁ : Indexed ps₁ := h.indexed.congr rfl (fun _ => rfl) rfl
  refine h.touch (setProposalStatus_spec hi₁).1 hproposal ?_ (List.subset_append_left _ _)
    (fun i hii => ⟨?_, hrest i hii, hrefunds i hii⟩) (fun u hu hsrc => ?_) fun token => ?_
  · refine .returned stakeToken amount (List.mem_append_left _ hin) ?_ ?_ rfl
    · show (setProposalStatus id .executed ps₁).2.proposalStake id = none
      rw [hstake, Function.update_self]
    · show refundsOf id (s.transfers ++ [t]) = _
      have hone : refundsOf id [t] = [t] := List.filter_eq_self.mpr fun u hu => by
        obtain rfl := List.mem_singleton.mp hu
        exact decide_eq_true rfl
      rw [refundsOf_append, hrefunds₀, hone]
      rfl
  · show (setProposalStatus id .executed ps₁).2.proposalStake i = _
    rw [hstake, Function.update_of_ne hii]
  · rcases List.mem_append.mp hu with hu | hu
    · exact h.outgoing u hu hsrc
    · obtain rfl := List.mem_singleton.mp hu
      exact ⟨id, rfl⟩
  · have hshrink := hbalance token env.contract
    have howed : owed s.store.proposals token id = if token = stakeToken then amount.val else 0 := by
      rw [owed, hstake₀, htoken₀]
      simp only [Option.some.injEq, eq_comm]
    show Covers (tokens.balance token env.contract).val
      (owed (setProposalStatus id .executed ps₁).2 token)
    rw [owed_erase hstake hrest]
    refine ((h.covered token).update (a := id) le_rfl).mono ?_
    have hamount : 0 ≤ amount.val := (Ledger.transfer_spec htokens).1
    rw [howed, hshrink]
    simp only [and_true]
    split <;> split <;> omega

/-! ### Every step -/

/-- `cancel_proposal` and `cancel_proposal_by_admin` close the proposal and touch no stake. -/
theorem Accounted.cancel {es : List Event} (h : Accounted here s)
    (hp : s.store.proposals.proposal id = some p) (hopen : p.Open) :
    Accounted here { s.withProposals (setProposalStatus id .cancelled
      (archiveVoteRecord id p s.store.proposals)).2 with events := es } := by
  obtain ⟨records, hrecords⟩ := archive_eq id p s.store.proposals
  rw [hrecords]
  obtain ⟨proposal, lists, hframe⟩ := setProposalStatus_frame id .cancelled
    { s.store.proposals with voteRecord := records }
  have hi : Indexed { s.store.proposals with voteRecord := records } :=
    h.indexed.congr rfl (fun _ => rfl) rfl
  refine h.amend (setProposalStatus_spec hi).1 hp (setProposalStatus_proposal (by exact hp)) rfl ?_
    (by rw [hframe]) (by rw [hframe])
  exact iff_of_false nofun fun he => hopen.not_terminal (.inl he)

theorem count_proposal (b : Ballot) (p : Proposal) (ps : Proposals) :
    ∃ p', (b.count p ps).proposal = Function.update ps.proposal b.proposalId (some p') ∧
      p'.author = p.author ∧ (p'.status = .executed ↔ p.status = .executed) := by
  unfold Ballot.count
  dsimp only
  split
  · rename_i hstarts
    refine ⟨{ p with
      forVotes := b.forVotes, againstVotes := b.againstVotes, status := .active }, ?_, rfl, ?_⟩
    · rw [setProposalStatus_proposal (Function.update_self ..), Function.update_idem]
    · rw [hstarts.2]
      exact iff_of_false nofun nofun
  · exact ⟨_, rfl, rfl, Iff.rfl⟩

theorem Effect.accounted (h : Effect env s c s') (henv : env.contract = here)
    (ha : Accounted here s) : Accounted here s' := by
  cases h with
  | administers _ h =>
      exact ha.congr (by rw [h.store]) h.transfers fun t => by rw [h.tokens]
  | initializes _ hset _ hfirst _ hrest =>
      refine ha.congr (by rw [hrest.store, hfirst.store, hset.store])
        (hrest.transfers.trans (hfirst.transfers.trans hset.transfers)) fun t => ?_
      rw [hrest.tokens, hfirst.tokens, hset.tokens]
  | sets _ h _ => exact ha.congr (by rw [h.store]) h.transfers fun t => by rw [h.tokens]
  | checkpoints => exact ha.congr rfl rfl fun _ => le_rfl
  | proposes hauth hpos hid h => exact ha.propose henv hauth hpos hid h
  | executes hdue h => exact ha.execute henv hdue.stored hdue.opened h
  | cancels _ hp hopen => exact ha.cancel hp hopen

theorem Step.accounted (h : Step here s a s') (ha : Accounted here s) : Accounted here s' := by
  cases h with
  | call henv h => exact (effect_of_exec h).accounted henv ha
  | failed _ _ => exact ha
  | ballot h =>
      rename_i b p
      obtain ⟨p', hproposal, hauthor, hst⟩ :=
        count_proposal b p s.store.proposals
      obtain ⟨proposal, abstains, lists, hframe⟩ := count_frame b p s.store.proposals
      exact ha.amend (count_spec ha.indexed h).1 h hproposal hauthor hst (by rw [hframe])
        (by rw [hframe])
  | outside h => exact ha.congr rfl rfl h

theorem accounted_of_run (h : Run (Step here) (State.fresh tokens) as s) : Accounted here s :=
  h.invariant (fun _ => Step.accounted) (accounted_fresh tokens)

/-! ### Runs -/

/-- What holds of the stakes in every run. -/
structure Backed (here : Address) (s : State) : Prop where
  /-- whatever is recorded in a token is there -/
  covered : ∀ token (F : Finset U64),
    ∑ id ∈ F, owed s.store.proposals token id ≤ (s.tokens.balance token here).val
  once : ∀ id, (refundsOf id s.transfers).length ≤ 1
  /-- what leaves the contract is a refund, and goes to the author -/
  outgoing : ∀ t ∈ s.transfers, t.src = here → ∃ id p, t.purpose = .refund id ∧
    s.store.proposals.proposal id = some p ∧ t.dst = p.author

/-- The stake of every proposal with a terminal status has been paid back as it came in. -/
def Settled (here : Address) (s : State) : Prop :=
  ∀ id p, s.store.proposals.proposal id = some p → p.status.Terminal →
    ∃ token amount, ⟨token, p.author, here, amount, .stake id⟩ ∈ s.transfers ∧
      ⟨token, here, p.author, amount, .refund id⟩ ∈ s.transfers

/-- A successful `cancel_proposal` or `cancel_proposal_by_admin`. -/
def Action.cancels : Action → Bool
  | .call _ _ c => c.cancels.isSome
  | _ => false

theorem mem_refundsOf {t : Transfer} {ts : List Transfer} :
    t ∈ refundsOf id ts ↔ t ∈ ts ∧ t.purpose = .refund id := by
  rw [refundsOf, List.mem_filter, decide_eq_true_iff]

theorem Accounted.backed (h : Accounted here s) : Backed here s := by
  refine ⟨h.covered, fun id => ?_, fun t ht hsrc => ?_⟩
  · cases hp : s.store.proposals.proposal id with
    | none =>
        rw [(h.unborn id hp).2]
        exact Nat.zero_le 1
    | some p =>
        cases h.escrowed id p hp with
        | held _ _ _ _ _ hrefunds _ =>
            rw [hrefunds]
            exact Nat.zero_le 1
        | returned _ _ _ _ hrefunds _ =>
            rw [hrefunds]
            exact le_rfl
  · obtain ⟨id, hpurpose⟩ := h.outgoing t ht hsrc
    have hin := mem_refundsOf.mpr ⟨ht, hpurpose⟩
    cases hp : s.store.proposals.proposal id with
    | none =>
        rw [(h.unborn id hp).2] at hin
        cases hin
    | some p =>
        refine ⟨id, p, hpurpose, hp, ?_⟩
        cases h.escrowed id p hp with
        | held _ _ _ _ _ hrefunds _ =>
            rw [hrefunds] at hin
            cases hin
        | returned _ _ _ _ hrefunds _ =>
            rw [hrefunds] at hin
            obtain rfl := List.mem_singleton.mp hin
            rfl

/-- The stakes are settled where no proposal has been cancelled. -/
theorem Accounted.settled_iff (h : Accounted here s) :
    Settled here s ↔ ∀ id, statusOf s.store.proposals id ≠ some .cancelled := by
  constructor
  · intro hs id hid
    obtain ⟨p, hp, hst⟩ := Option.map_eq_some_iff.mp hid
    obtain ⟨token, amount, -, hrefund⟩ := hs id p hp (.inr hst)
    have hin := mem_refundsOf.mpr ⟨hrefund, rfl⟩
    cases h.escrowed id p hp with
    | held _ _ _ _ _ hrefunds _ =>
        rw [hrefunds] at hin
        cases hin
    | returned _ _ _ _ _ hexecuted =>
        rw [hst] at hexecuted
        cases hexecuted
  · intro hno id p hp hterminal
    cases h.escrowed id p hp with
    | held _ _ _ _ _ _ hst =>
        rcases hterminal with he | hc
        · exact absurd he hst
        · refine absurd ?_ (hno id)
          rw [statusOf, hp, ← hc]
          rfl
    | returned token amount hin _ hrefunds _ =>
        have hrefund : ⟨token, here, p.author, amount, .refund id⟩ ∈ refundsOf id s.transfers := by
          rw [hrefunds]
          exact List.mem_singleton.mpr rfl
        exact ⟨token, amount, hin, (mem_refundsOf.mp hrefund).1⟩

theorem Call.cancels_of_not (h : c.IsProposal = false) : c.cancels = none := by
  cases c <;> first | rfl | cases h

/-- Only a cancellation makes a proposal cancelled. -/
theorem Effect.none_cancelled (h : Effect env s c s') (hi : Indexed s.store.proposals)
    (hno : ∀ id, statusOf s.store.proposals id ≠ some .cancelled) :
    (∀ id, statusOf s'.store.proposals id ≠ some .cancelled) ↔ ¬ c.cancels.isSome = true := by
  cases h with
  | administers hc h =>
      rw [h.store, Call.cancels_of_not hc]
      exact iff_of_true hno Bool.false_ne_true
  | initializes _ hset _ hfirst _ hrest =>
      rw [hrest.store, hfirst.store, hset.store]
      exact iff_of_true hno Bool.false_ne_true
  | sets hc h _ =>
      rw [h.store, Call.cancels_of_not hc]
      exact iff_of_true hno Bool.false_ne_true
  | checkpoints => exact iff_of_true hno Bool.false_ne_true
  | proposes _ _ hid h =>
      obtain ⟨tokens, -, rfl⟩ := transfer_eq_ok h
      refine iff_of_true (fun i => ?_) Bool.false_ne_true
      rw [State.withProposals, (recordProposal_spec hi hid).2]
      split
      · decide
      · exact hno i
  | executes _ h =>
      refine iff_of_true (fun i => ?_) Bool.false_ne_true
      rw [State.withProposals, (setProposalStatus_spec (hi.refund h)).2, statusOf_refund h]
      split
      · decide
      · rw [statusOf_refund h]
        exact hno i
  | cancels hc hp _ =>
      rename_i id p es _
      rw [hc]
      refine iff_of_false (fun h => h id ?_) fun h => h rfl
      have hisSome : (statusOf (archiveVoteRecord id p s.store.proposals) id).isSome = true := by
        rw [statusOf_archive, statusOf, hp]
        rfl
      rw [State.withProposals, (setProposalStatus_spec hi.archive).2, if_pos ⟨rfl, hisSome⟩]

theorem Step.settled_iff (h : Step here s a s') (ha : Accounted here s) (hs : Settled here s) :
    Settled here s' ↔ ¬ a.cancels = true := by
  rw [(h.accounted ha).settled_iff]
  have hno := ha.settled_iff.mp hs
  cases h with
  | call _ h => exact (effect_of_exec h).none_cancelled ha.indexed hno
  | failed _ _ | outside _ => exact iff_of_true hno Bool.false_ne_true
  | ballot h =>
      refine iff_of_true (fun i => ?_) Bool.false_ne_true
      rw [State.withProposals, (count_spec ha.indexed h).2]
      split
      · decide
      · exact hno i

theorem settled_fresh (tokens : Ledger) : Settled here (State.fresh tokens) := fun _ _ => nofun

/-- **The stakes.**  In every run the balances cover the recorded stakes, and a stake is paid out at
most once and to its author.  In a run without a cancellation the stake of every executed or cancelled
proposal has been paid back, and the runs that have paid them back at every state are exactly those. -/
theorem stakes_of_run :
    (Run (Step here) (State.fresh tokens) as s → Backed here s) ∧
    (Run (fun s a s' => Step here s a s' ∧ ¬ a.cancels = true) (State.fresh tokens) as s →
      Settled here s) ∧
    (Run (fun s a s' => Step here s a s' ∧ Settled here s') (State.fresh tokens) as s ↔
      Run (fun s a s' => Step here s a s' ∧ ¬ a.cancels = true) (State.fresh tokens) as s) := by
  have hkeep : ∀ s a s', Step here s a s' → Accounted here s → Accounted here s' :=
    fun _ _ _ h => h.accounted
  have hiff : ∀ s a s', Step here s a s' → Accounted here s → Settled here s →
      (Settled here s' ↔ ¬ a.cancels = true) := fun _ _ _ h => h.settled_iff
  have hstart : Accounted here (State.fresh tokens) := accounted_fresh tokens
  refine ⟨fun h => (accounted_of_run h).backed, ?_⟩
  exact (Run.keeps_spec hkeep hiff hstart (settled_fresh tokens)).symm

namespace Sample

/-- A proposal made with a stake of 10 and executed after the stake has been set to 25. -/
def executing : List (U64 × Call) := [
  (.lit 110, .setProposalStakeConfig (.account 1) (.contract 9) (.lit 10)),
  (.lit 115, .grantRole (.account 1) .executor (.account 4)),
  (.lit 120, .propose (.account 1) (.lit 1000)),
  (.lit 130, .setProposalStakeConfig (.account 1) (.contract 8) (.lit 25)),
  (.lit 604930, .executeProposal (.account 4) (.lit 1))]

end Sample

theorem stakes_of_run_executed :
    Settled Sample.address (Sample.reached Sample.executing) ∧
      refundsOf (.lit 1) (Sample.reached Sample.executing).transfers =
        [⟨.contract 9, Sample.address, .account 1, .lit 10, .refund (.lit 1)⟩] := by
  have hrun : Run (Step Sample.address) (State.fresh Sample.tokens) (Sample.actions Sample.executing)
      (Sample.reached Sample.executing) := Sample.run_reached (by decide)
  have hkept : Run (fun s a s' => Step Sample.address s a s' ∧ ¬ a.cancels = true)
      (State.fresh Sample.tokens) (Sample.actions Sample.executing)
      (Sample.reached Sample.executing) := by
    have hno : ∀ x ∈ Sample.opening :: Sample.executing, ¬ x.2.cancels.isSome = true := by decide
    refine hrun.mono fun {s a s'} hin hstep => ⟨hstep, ?_⟩
    obtain ⟨x, hx, rfl⟩ := List.mem_map.mp hin
    exact hno x hx
  exact ⟨stakes_of_run.2.1 hkept, by decide⟩

/-- The author cancels, and its stake stays in the governor. -/
theorem cancelled_keeps_stake :
    let s := Sample.next Sample.proposed (Sample.envAt (.lit 200)) (.cancelProposal (.account 1) (.lit 1))
    Reachable Sample.address s ∧ ¬ Settled Sample.address s ∧
      statusOf s.store.proposals (.lit 1) = some .cancelled ∧
      s.store.proposals.proposalStake (.lit 1) = some (.lit 10) ∧
      refundsOf (.lit 1) s.transfers = [] := by
  intro s
  obtain ⟨tokens, as, hrun⟩ := Sample.reachable_proposed
  have hstep : Step Sample.address Sample.proposed (.call Sample.host (Sample.envAt (.lit 200))
    (.cancelProposal (.account 1) (.lit 1))) s := Sample.step_next rfl (by decide)
  have hcancelled : statusOf s.store.proposals (.lit 1) = some .cancelled := by decide
  refine ⟨⟨tokens, _, hrun.snoc hstep⟩, fun hs => ?_, hcancelled, by decide, by decide⟩
  exact (accounted_of_run (hrun.snoc hstep)).settled_iff.mp hs _ hcancelled

end Drip.Governor
