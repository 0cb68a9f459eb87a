import Drip.Support.Roster
import Drip.Governor.Effects

/-!
# Governor — Status index

`ProposalsByStatus` lists the ids of the proposals by their status, and the status itself stands in
the proposal.  `Indexed ps` says that the two agree and that the ids are those up to the counter.

Every transition removes the id from one list and appends it to another (`Indexed.move`), a new
proposal is appended to the pending ones (`Indexed.push`), and everything else leaves the statuses and
the lists alone (`Indexed.congr`).
-/

namespace Drip.Governor
open Chain

variable {here : Address} {host : Host} {env : Env} {s s' : State} {c : Call} {a : Action}
variable {ps ps' : Proposals} {id i : U64} {status old new : ProposalStatus}

def statusOf (ps : Proposals) (id : U64) : Option ProposalStatus := (ps.proposal id).map Proposal.status

/-- The number of proposals made. -/
def counterOf (ps : Proposals) : U64 := ps.proposalCounter.getD (.lit 0)

structure Indexed (ps : Proposals) : Prop where
  stored : ∀ id, (statusOf ps id).isSome = true ↔ 1 ≤ id.val ∧ id.val ≤ (counterOf ps).val
  listed : ∀ status, Roster (fun id => statusOf ps id = some status) (proposalsByStatus ps status)

theorem Indexed.empty : Indexed {} := by
  refine ⟨fun id => ?_, fun status => .nil fun _ => nofun⟩
  have hcounter : (counterOf {}).val = 0 := rfl
  refine iff_of_false nofun fun h => ?_
  omega

theorem Indexed.congr (hi : Indexed ps) (hcounter : ps'.proposalCounter = ps.proposalCounter)
    (hstatus : ∀ id, statusOf ps' id = statusOf ps id)
    (hlists : ps'.proposalsByStatus = ps.proposalsByStatus) : Indexed ps' := by
  refine ⟨fun id => ?_, fun status => ?_⟩
  · rw [hstatus, counterOf, hcounter]
    exact hi.stored id
  · rw [proposalsByStatus, hlists]
    exact (hi.listed status).congr fun id => by rw [hstatus]

theorem Indexed.mem (hi : Indexed ps) :
    id ∈ proposalsByStatus ps status ↔ statusOf ps id = some status := (hi.listed status).mem id

/-- An id past the counter is not stored. -/
theorem Indexed.fresh (hi : Indexed ps) (hid : id.val = (counterOf ps).val + 1) :
    statusOf ps id = none := by
  have h := hi.stored id
  cases hs : statusOf ps id with
  | none => rfl
  | some st =>
      rw [hs] at h
      have := h.mp rfl
      omega

/-! ### Transitions -/

/-- A proposal goes from one list to the end of another. -/
theorem Indexed.move (hi : Indexed ps) (hid : statusOf ps id = some old) (hne : old ≠ new)
    (hcounter : ps'.proposalCounter = ps.proposalCounter)
    (hstatus : ∀ i, statusOf ps' i = if i = id then some new else statusOf ps i)
    (hold : proposalsByStatus ps' old = (proposalsByStatus ps old).filter fun i => i ≠ id)
    (hnew : proposalsByStatus ps' new = proposalsByStatus ps new ++ [id])
    (hrest : ∀ st, st ≠ old → st ≠ new → proposalsByStatus ps' st = proposalsByStatus ps st) :
    Indexed ps' := by
  refine ⟨fun i => ?_, fun st => ?_⟩
  · rw [hstatus, counterOf, hcounter]
    split
    · rename_i h
      rw [h, ← counterOf, ← hi.stored id, hid]
      exact Iff.rfl
    · exact hi.stored i
  · have hother : ∀ {st}, st ≠ old → statusOf ps id ≠ some st := fun h he => by
      rw [hid] at he
      exact h (Option.some.inj he).symm
    by_cases hsnew : st = new
    · subst hsnew
      rw [hnew]
      exact (hi.listed st).fibre_push hstatus (hother hne.symm)
    · by_cases hsold : st = old
      · subst hsold
        rw [hold]
        exact (hi.listed st).fibre_drop hstatus hne.symm
      · rw [hrest st hsold hsnew]
        exact (hi.listed st).fibre_keep hstatus (Ne.symm hsnew) (hother hsold)

/-- A new proposal stands last among the pending ones. -/
theorem Indexed.push (hi : Indexed ps) (hid : id.val = (counterOf ps).val + 1)
    (hcounter : ps'.proposalCounter = some id)
    (hstatus : ∀ i, statusOf ps' i = if i = id then some .pending else statusOf ps i)
    (hnew : proposalsByStatus ps' .pending = proposalsByStatus ps .pending ++ [id])
    (hrest : ∀ st, st ≠ .pending → proposalsByStatus ps' st = proposalsByStatus ps st) :
    Indexed ps' := by
  have hfresh := hi.fresh hid
  refine ⟨fun i => ?_, fun st => ?_⟩
  · have hge := (counterOf ps).ge
    rw [hstatus, counterOf, hcounter, Option.getD_some]
    split
    · rename_i h
      rw [h]
      exact iff_of_true rfl (by omega)
    · rename_i h
      have hne : i.val ≠ id.val := fun he => h (Ranged.ext he)
      rw [hi.stored i]
      omega
  · have hother : ∀ st, statusOf ps id ≠ some st := fun st => by
      rw [hfresh]
      exact nofun
    by_cases hs : st = .pending
    · subst hs
      rw [hnew]
      exact (hi.listed .pending).fibre_push hstatus (hother _)
    · rw [hrest st hs]
      exact (hi.listed st).fibre_keep hstatus (Ne.symm hs) (hother st)

/-! ### The operations -/

theorem statusOf_update (f : U64 → Option Proposal) (p : Proposal) (i : U64) :
    (Function.update f id (some p) i).map Proposal.status =
      if i = id then some p.status else (f i).map Proposal.status := by
  by_cases h : i = id
  · rw [h, Function.update_self, if_pos rfl]
    rfl
  · rw [Function.update_of_ne h, if_neg h]

theorem addProposal_eq (hid : id ∉ proposalsByStatus ps status) :
    addProposalToStatusIndex id status ps = { ps with
      proposalsByStatus := Function.update ps.proposalsByStatus status
        (some (proposalsByStatus ps status ++ [id])) } :=
  if_neg hid

theorem lists_update (ps : Proposals) (status : ProposalStatus) (ids : List U64)
    (st : ProposalStatus) :
    (Function.update ps.proposalsByStatus status (some ids) st).getD [] =
      if st = status then ids else proposalsByStatus ps st := by
  by_cases h : st = status
  · rw [h, Function.update_self, if_pos rfl]
    rfl
  · rw [Function.update_of_ne h, if_neg h]
    rfl

/-- A change of status writes the proposal and the lists. -/
theorem setProposalStatus_frame (id : U64) (status : ProposalStatus) (ps : Proposals) :
    ∃ proposal lists, (setProposalStatus id status ps).2 =
      { ps with proposal := proposal, proposalsByStatus := lists } := by
  unfold setProposalStatus
  split
  · exact ⟨_, _, rfl⟩
  · split
    · unfold addProposalToStatusIndex
      dsimp only
      split
      · exact ⟨_, _, rfl⟩
      · exact ⟨_, _, rfl⟩
    · exact ⟨_, _, rfl⟩

/-- A stored proposal takes the status, and keeps the rest. -/
theorem setProposalStatus_proposal {p : Proposal} (hp : ps.proposal id = some p) :
    (setProposalStatus id status ps).2.proposal =
      Function.update ps.proposal id (some { p with status := status }) := by
  unfold setProposalStatus
  rw [hp]
  dsimp only
  split
  · unfold addProposalToStatusIndex
    dsimp only
    split <;> rfl
  · rename_i heq
    obtain rfl := not_not.mp heq
    rw [← hp, Function.update_eq_self]

/-- A transition takes the id out of its list and puts it at the end of another. -/
theorem lists_setProposalStatus {p : Proposal} (hi : Indexed ps) (hp : ps.proposal id = some p)
    (hne : p.status ≠ new) (st : ProposalStatus) :
    proposalsByStatus (setProposalStatus id new ps).2 st =
      if st = new then proposalsByStatus ps new ++ [id]
      else if st = p.status then (proposalsByStatus ps p.status).filter fun i => i ≠ id
      else proposalsByStatus ps st := by
  have hnot : id ∉ proposalsByStatus ps new := by
    rw [hi.mem, statusOf, hp]
    exact fun h => hne (Option.some.inj h)
  let ps₁ : Proposals := { removeProposalFromStatusIndex id p.status ps with
    proposal := Function.update ps.proposal id (some { p with status := new }) }
  have hremoved : ∀ st, proposalsByStatus ps₁ st = if st = p.status then
      (proposalsByStatus ps p.status).filter fun i => i ≠ id
    else proposalsByStatus ps st := lists_update ps p.status _
  -- the list of the new status is not the one the id has just left
  have hkept : proposalsByStatus ps₁ new = proposalsByStatus ps new := by
    rw [hremoved, if_neg hne.symm]
  have hset : (setProposalStatus id new ps).2 = addProposalToStatusIndex id new ps₁ := by
    unfold setProposalStatus
    rw [hp]
    dsimp only
    rw [if_pos hne]
    rfl
  rw [hset, addProposal_eq (by rw [hkept]; exact hnot), hkept, ← hremoved]
  exact lists_update ps₁ new (proposalsByStatus ps new ++ [id]) st

/-- `set_proposal_status` gives a stored proposal the status, and touches no other. -/
theorem setProposalStatus_spec (hi : Indexed ps) :
    Indexed (setProposalStatus id status ps).2 ∧
      ∀ i, statusOf (setProposalStatus id status ps).2 i =
        if i = id ∧ (statusOf ps id).isSome = true then some status else statusOf ps i := by
  cases hp : ps.proposal id with
  | none =>
      have hs : statusOf ps id = none := by rw [statusOf, hp]; rfl
      have hsame : (setProposalStatus id status ps).2 = ps := by
        unfold setProposalStatus
        rw [hp]
      rw [hsame]
      exact ⟨hi, fun i => by rw [hs, if_neg fun h => nomatch h.2]⟩
  | some p =>
      have hs : statusOf ps id = some p.status := by rw [statusOf, hp]; rfl
      have hstatus : ∀ i, statusOf (setProposalStatus id status ps).2 i =
          if i = id then some status else statusOf ps i := by
        intro i
        rw [statusOf, setProposalStatus_proposal hp]
        exact statusOf_update ps.proposal _ i
      obtain ⟨proposal, lists, hframe⟩ := setProposalStatus_frame id status ps
      have hcounter : (setProposalStatus id status ps).2.proposalCounter = ps.proposalCounter := by
        rw [hframe]
      refine ⟨?_, fun i => by rw [hstatus, hs]; simp⟩
      by_cases hne : p.status = status
      · refine hi.congr hcounter (fun i => ?_) ?_
        · rw [hstatus]
          split
          next h => rw [h, hs, hne]
          next => rfl
        · unfold setProposalStatus
          rw [hp]
          dsimp only
          rw [if_neg (not_not_intro hne)]
      · have hlists := lists_setProposalStatus hi hp hne
        refine hi.move hs hne hcounter hstatus ?_ ?_ fun st hold hnew => ?_
        · rw [hlists, if_neg hne, if_pos rfl]
        · rw [hlists, if_pos rfl]
        · rw [hlists, if_neg hnew, if_neg hold]

/-- The proposal that `propose` stores. -/
def Proposal.made (env : Env) (caller : Address) (window : U64) : Proposal :=
  ⟨caller, env.timestamp, env.sequence, window, .pending, .lit 0, .lit 0⟩

theorem recordProposal_eq {caller token : Address} {stake : I128} {window supply : U64}
    (hnot : id ∉ proposalsByStatus ps .pending) :
    recordProposal env id caller token stake window supply ps = { ps with
      proposalCounter := some id
      proposal := Function.update ps.proposal id (some (.made env caller window))
      proposalStake := Function.update ps.proposalStake id (some stake)
      proposalStakeTokenByProposal :=
        Function.update ps.proposalStakeTokenByProposal id (some token)
      proposalSnapshotLedger := Function.update ps.proposalSnapshotLedger id (some env.sequence)
      proposalVoteSnapshot := Function.update ps.proposalVoteSnapshot id
        (some ⟨id, env.sequence, .lit 0, .lit 0, supply⟩)
      proposalAbstainVotes := Function.update ps.proposalAbstainVotes id (some (.lit 0))
      proposalsByStatus := Function.update ps.proposalsByStatus .pending
        (some (proposalsByStatus ps .pending ++ [id])) } := by
  unfold recordProposal
  dsimp only
  rw [addProposal_eq]
  · rfl
  · exact hnot

/-- `propose` stores a pending proposal under the next id. -/
theorem recordProposal_spec {caller token : Address} {stake : I128} {window supply : U64}
    (hi : Indexed ps) (hid : id.val = (counterOf ps).val + 1) :
    Indexed (recordProposal env id caller token stake window supply ps) ∧
      ∀ i, statusOf (recordProposal env id caller token stake window supply ps) i =
        if i = id then some .pending else statusOf ps i := by
  have hnot : id ∉ proposalsByStatus ps .pending := by
    rw [hi.mem, hi.fresh hid]
    exact nofun
  rw [recordProposal_eq hnot]
  have hstatus : ∀ i, (Function.update ps.proposal id (some (.made env caller window)) i).map
      Proposal.status = if i = id then some .pending else statusOf ps i :=
    statusOf_update ps.proposal _
  have hadded := lists_update ps .pending (proposalsByStatus ps .pending ++ [id])
  refine ⟨hi.push hid rfl hstatus ?_ fun st hst => ?_, hstatus⟩
  · refine (hadded .pending).trans ?_
    rw [if_pos rfl]
  · refine (hadded st).trans ?_
    rw [if_neg hst]

theorem archive_eq (id : U64) (p : Proposal) (ps : Proposals) :
    ∃ records, archiveVoteRecord id p ps = { ps with voteRecord := records } := by
  unfold archiveVoteRecord
  split
  · exact ⟨_, rfl⟩
  · exact ⟨_, rfl⟩

theorem statusOf_archive {p : Proposal} :
    statusOf (archiveVoteRecord id p ps) i = statusOf ps i := by
  obtain ⟨records, hrecords⟩ := archive_eq id p ps
  rw [hrecords]
  rfl

theorem Indexed.archive {p : Proposal} (hi : Indexed ps) : Indexed (archiveVoteRecord id p ps) := by
  obtain ⟨records, hrecords⟩ := archive_eq id p ps
  rw [hrecords]
  exact hi.congr rfl (fun _ => rfl) rfl

/-- The tallies of a ballot written, without a change of status. -/
def Ballot.tally (b : Ballot) (p : Proposal) (ps : Proposals) : Proposals :=
  { ps with
    proposal := Function.update ps.proposal b.proposalId
      (some { p with forVotes := b.forVotes, againstVotes := b.againstVotes })
    proposalAbstainVotes :=
      Function.update ps.proposalAbstainVotes b.proposalId (some b.abstainVotes) }

theorem count_eq (b : Ballot) (p : Proposal) (ps : Proposals) : b.count p ps =
    if b.starts = true ∧ p.status = .pending then
      (setProposalStatus b.proposalId .active (b.tally p ps)).2
    else b.tally p ps := rfl

/-- The tallies leave the index alone. -/
theorem tally_spec {b : Ballot} {p : Proposal} (hi : Indexed ps)
    (hp : ps.proposal b.proposalId = some p) :
    Indexed (b.tally p ps) ∧ ∀ i, statusOf (b.tally p ps) i = statusOf ps i := by
  have hstatus : ∀ i, statusOf (b.tally p ps) i = statusOf ps i := by
    intro i
    refine (statusOf_update ps.proposal _ i).trans ?_
    split
    · rename_i h
      rw [h, statusOf, hp]
      rfl
    · rfl
  exact ⟨hi.congr rfl hstatus rfl, hstatus⟩

/-- A ballot on a stored proposal changes its status at most from pending to active. -/
theorem count_spec {b : Ballot} {p : Proposal} (hi : Indexed ps)
    (hp : ps.proposal b.proposalId = some p) :
    Indexed (b.count p ps) ∧ ∀ i, statusOf (b.count p ps) i =
      if i = b.proposalId ∧ b.starts = true ∧ p.status = .pending then some .active
      else statusOf ps i := by
  obtain ⟨hi', hstatus⟩ := tally_spec hi hp
  rw [count_eq]
  split
  · rename_i hstarts
    obtain ⟨hset, hset'⟩ : Indexed (setProposalStatus b.proposalId .active (b.tally p ps)).2 ∧ _ :=
      setProposalStatus_spec hi'
    have hstored : (statusOf ps b.proposalId).isSome = true := by
      rw [statusOf, hp]
      rfl
    refine ⟨hset, fun i => (hset' i).trans ?_⟩
    simp only [hstatus, hstored, hstarts.1, hstarts.2, and_true]
  · rename_i hstarts
    refine ⟨hi', fun i => ?_⟩
    rw [if_neg fun h => hstarts h.2]
    exact hstatus i

/-- A refund leaves the index alone. -/
theorem refund_index {author : Address} (h : refundProposalStake env id author s = .ok s') :
    s'.store.proposals.proposalCounter = s.store.proposals.proposalCounter ∧
      s'.store.proposals.proposal = s.store.proposals.proposal ∧
      s'.store.proposals.proposalsByStatus = s.store.proposals.proposalsByStatus := by
  obtain ⟨-, rfl⟩ | ⟨amount, token, tokens, -, -, -, rfl⟩ := refund_eq_ok h
  · exact ⟨rfl, rfl, rfl⟩
  · exact ⟨rfl, rfl, rfl⟩

theorem statusOf_refund {author : Address} (h : refundProposalStake env id author s = .ok s')
    (i : U64) : statusOf s'.store.proposals i = statusOf s.store.proposals i := by
  rw [statusOf, (refund_index h).2.1]
  rfl

theorem Indexed.refund {author : Address} (hi : Indexed s.store.proposals)
    (h : refundProposalStake env id author s = .ok s') : Indexed s'.store.proposals := by
  obtain ⟨hcounter, -, hlists⟩ := refund_index h
  exact hi.congr hcounter (statusOf_refund h) hlists

/-! ### What the operations leave alone -/

/-- A ballot writes the proposal, its abstentions and the lists. -/
theorem count_frame (b : Ballot) (p : Proposal) (ps : Proposals) :
    ∃ proposal abstains lists, b.count p ps = { ps with
      proposal := proposal, proposalAbstainVotes := abstains, proposalsByStatus := lists } := by
  rw [count_eq]
  split
  · obtain ⟨proposal, lists, heq⟩ := setProposalStatus_frame b.proposalId .active (b.tally p ps)
    exact ⟨proposal, _, lists, heq⟩
  · exact ⟨_, _, _, rfl⟩

/-! ### Runs -/

/-- The status is final. -/
def ProposalStatus.Terminal (st : ProposalStatus) : Prop := st = .executed ∨ st = .cancelled

theorem Proposal.Open.not_terminal {p : Proposal} (h : p.Open) : ¬ p.status.Terminal := by
  unfold ProposalStatus.Terminal
  rcases h with h | h
  · rw [h]
    exact fun ht => by rcases ht with ht | ht <;> cases ht
  · rw [h]
    exact fun ht => by rcases ht with ht | ht <;> cases ht

/-- A change of an open proposal's status leaves the terminal ones. -/
theorem terminal_kept {p : Proposal} (hi : Indexed ps) (hp : ps.proposal id = some p) (hopen : p.Open)
    (hst : old.Terminal) (hold : statusOf ps i = some old) :
    statusOf (setProposalStatus id new ps).2 i = some old := by
  rw [(setProposalStatus_spec hi).2, if_neg, hold]
  rintro ⟨rfl, -⟩
  rw [statusOf, hp] at hold
  exact hopen.not_terminal (Option.some.inj hold ▸ hst)

/-- Every call keeps the index, and the terminal statuses. -/
theorem Effect.indexed (h : Effect env s c s') (hi : Indexed s.store.proposals) :
    Indexed s'.store.proposals ∧ ∀ i old, old.Terminal → statusOf s.store.proposals i = some old →
      statusOf s'.store.proposals i = some old := by
  cases h with
  | administers _ h =>
      rw [h.store]
      exact ⟨hi, fun _ _ _ h => h⟩
  | initializes _ hset _ hfirst _ hrest =>
      rw [hrest.store, hfirst.store, hset.store]
      exact ⟨hi, fun _ _ _ h => h⟩
  | sets _ h _ =>
      rw [h.store]
      exact ⟨hi, fun _ _ _ h => h⟩
  | checkpoints => exact ⟨hi, fun _ _ _ h => h⟩
  | proposes _ _ hid h =>
      obtain ⟨tokens, -, rfl⟩ := transfer_eq_ok h
      obtain ⟨hi', hstatus⟩ := recordProposal_spec hi hid
      refine ⟨hi', fun i old _ hold => ?_⟩
      rw [State.withProposals, hstatus, if_neg, hold]
      rintro rfl
      rw [hi.fresh hid] at hold
      cases hold
  | executes hdue h =>
      rename_i executor id p config s₁
      have hi' : Indexed s₁.store.proposals := hi.refund h
      have hp' : s₁.store.proposals.proposal id = some p := by rw [(refund_index h).2.1, hdue.stored]
      refine ⟨(setProposalStatus_spec hi').1, fun i old hst hold => ?_⟩
      refine terminal_kept hi' hp' hdue.opened hst ?_
      rw [statusOf_refund h]
      exact hold
  | cancels _ hp hopen =>
      rename_i id p es _
      have hp' : (archiveVoteRecord id p s.store.proposals).proposal id = some p := by
        obtain ⟨records, hrecords⟩ := archive_eq id p s.store.proposals
        rw [hrecords]
        exact hp
      refine ⟨(setProposalStatus_spec hi.archive).1, fun i old hst hold => ?_⟩
      refine terminal_kept hi.archive hp' hopen hst ?_
      rw [statusOf_archive]
      exact hold

theorem Step.indexed (h : Step here s a s') (hi : Indexed s.store.proposals) :
    Indexed s'.store.proposals := by
  cases h with
  | call _ h => exact ((effect_of_exec h).indexed hi).1
  | failed _ _ | outside _ => exact hi
  | ballot h => exact (count_spec hi h).1

theorem indexed_of_run {tokens : Ledger} {as : List Action}
    (h : Run (Step here) (State.fresh tokens) as s) : Indexed s.store.proposals :=
  h.invariant (P := fun s => Indexed s.store.proposals) (fun _ => Step.indexed) Indexed.empty

/-- A step of the governor, or a use of `set_proposal_status` on its own. -/
inductive StatusAction where
  | step (a : Action)
  | setStatus (id : U64) (status : ProposalStatus)

inductive StatusStep (here : Address) : State → StatusAction → State → Prop where
  | step {s s' : State} {a : Action} (h : Step here s a s') : StatusStep here s (.step a) s'
  | setStatus {s : State} {id : U64} {status : ProposalStatus} :
      StatusStep here s (.setStatus id status)
        (s.withProposals (setProposalStatus id status s.store.proposals).2)

theorem StatusStep.indexed {a : StatusAction} (h : StatusStep here s a s')
    (hi : Indexed s.store.proposals) : Indexed s'.store.proposals := by
  cases h with
  | step h => exact h.indexed hi
  | setStatus => exact (setProposalStatus_spec hi).1

/-- Every id up to the counter is a proposal's and stands once in the lists, under the proposal's
status; no other id stands in them; and no call takes a proposal out of a terminal status. -/
theorem statusIndex_of_run {tokens : Ledger} {as : List StatusAction}
    (h : Run (StatusStep here) (State.fresh tokens) as s) :
    (∀ id : U64, 1 ≤ id.val → id.val ≤ (counterOf s.store.proposals).val →
      ∃ p, s.store.proposals.proposal id = some p ∧
        (proposalsByStatus s.store.proposals p.status).count id = 1 ∧
        ∀ status, status ≠ p.status → id ∉ proposalsByStatus s.store.proposals status) ∧
    (∀ (id : U64) status, id ∈ proposalsByStatus s.store.proposals status →
      1 ≤ id.val ∧ id.val ≤ (counterOf s.store.proposals).val) ∧
    (∀ host env c s', exec host env s c = .ok s' →
      ∀ id p, s.store.proposals.proposal id = some p → p.status = .executed ∨ p.status = .cancelled →
        ∃ p', s'.store.proposals.proposal id = some p' ∧ p'.status = p.status) := by
  have hi : Indexed s.store.proposals :=
    h.invariant (P := fun s => Indexed s.store.proposals) (fun _ => StatusStep.indexed) Indexed.empty
  refine ⟨fun id hpos hle => ?_, fun id status hin => ?_, fun host env c s' hexec id p hp hst => ?_⟩
  · obtain ⟨st, hst⟩ := Option.isSome_iff_exists.mp ((hi.stored id).mpr ⟨hpos, hle⟩)
    obtain ⟨p, hp, rfl⟩ := Option.map_eq_some_iff.mp hst
    refine ⟨p, hp, ?_, fun status hne hin => ?_⟩
    · exact List.count_eq_one_of_mem (hi.listed p.status).nodup (hi.mem.mpr hst)
    · rw [hi.mem, hst] at hin
      exact hne (Option.some.inj hin).symm
  · have hstatus := hi.mem.mp hin
    exact (hi.stored id).mp (by rw [hstatus]; rfl)
  · have hstatus : statusOf s.store.proposals id = some p.status := by
      rw [statusOf, hp]
      rfl
    have hkept := ((effect_of_exec hexec).indexed hi).2 id p.status hst hstatus
    exact Option.map_eq_some_iff.mp hkept

/-- Two proposals; the first is cancelled, then set to defeated. -/
theorem statusIndex_of_run_moved :
    let s := Sample.reached [(.lit 110, .setProposalStakeConfig (.account 1) (.contract 9) (.lit 10)),
      (.lit 120, .propose (.account 1) (.lit 1000)), (.lit 130, .propose (.account 1) (.lit 1000)),
      (.lit 140, .cancelProposal (.account 1) (.lit 1))]
    let s' := s.withProposals (setProposalStatus (.lit 1) .defeated s.store.proposals).2
    proposalsByStatus s.store.proposals .cancelled = [.lit 1] ∧
      ∃ p, s'.store.proposals.proposal (.lit 1) = some p ∧
        (proposalsByStatus s'.store.proposals p.status).count (.lit 1) = 1 := by
  intro s s'
  have hcalls : Run (Step Sample.address) (State.fresh Sample.tokens) _ s :=
    Sample.run_reached (by decide)
  have hsteps : Run (StatusStep Sample.address) (State.fresh Sample.tokens) _ s :=
    hcalls.relabel (f := StatusAction.step) StatusStep.step
  have hrun : Run (StatusStep Sample.address) (State.fresh Sample.tokens) _ s' :=
    hsteps.snoc .setStatus
  obtain ⟨p, hp, hcount, -⟩ := (statusIndex_of_run hrun).1 (.lit 1) (by decide) (by decide)
  exact ⟨by decide, p, hp, hcount⟩

end Drip.Governor
