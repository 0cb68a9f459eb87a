import Drip.Governor.StatusIndex

/-!
# Governor — Listings

The order of the lists that `proposals_by_status` returns.  Ids are given out in order, so creation
order is their order; but a transition puts an id at the end of its new list, whenever the proposal
was made.

* `ordered_set_iff`: a transition keeps the order exactly if the id comes after those in the new list.
* `ordered_of_run`: the runs that keep the lists in creation order.
-/

namespace Drip.Governor

variable {here : Address} {host : Host} {env : Env} {s s' : State} {c : Call} {a : Action}
variable {ps ps' : Proposals} {id i : U64} {p : Proposal} {status st new : ProposalStatus}

/-- Every list is in the order in which the proposals were made. -/
def CreationOrdered (ps : Proposals) : Prop :=
  ∀ status, (proposalsByStatus ps status).Pairwise fun i j => i.val < j.val

/-- Every proposal with the status was made before `id`. -/
def Latest (ps : Proposals) (status : ProposalStatus) (id : U64) : Prop :=
  ∀ i, statusOf ps i = some status → i.val < id.val

/-! ### Transitions -/

theorem pairwise_snoc {xs : List U64} (h : xs.Pairwise fun i j => i.val < j.val) :
    (xs ++ [id]).Pairwise (fun i j => i.val < j.val) ↔ ∀ i ∈ xs, i.val < id.val := by
  simp [List.pairwise_append, h]

theorem ordered_set_iff (hi : Indexed ps) (ho : CreationOrdered ps) (hp : ps.proposal id = some p)
    (hne : p.status ≠ new) :
    CreationOrdered (setProposalStatus id new ps).2 ↔ Latest ps new id := by
  unfold CreationOrdered Latest
  simp only [lists_setProposalStatus hi hp hne, ← hi.mem]
  rw [← pairwise_snoc (ho new)]
  constructor
  · intro h
    simpa using h new
  · intro h st
    split
    · exact h
    · split
      · exact (ho _).filter _
      · exact ho st

theorem CreationOrdered.congr (h : ps'.proposalsByStatus = ps.proposalsByStatus) :
    CreationOrdered ps' ↔ CreationOrdered ps := by
  unfold CreationOrdered proposalsByStatus
  rw [h]

theorem Latest.congr (h : ∀ i, statusOf ps' i = statusOf ps i) :
    Latest ps' status id ↔ Latest ps status id := by
  unfold Latest
  simp only [h]

/-- A new proposal comes after all others. -/
theorem CreationOrdered.record {caller token : Address} {stake : I128} {window supply : U64}
    (ho : CreationOrdered ps) (hi : Indexed ps) (hid : id.val = (counterOf ps).val + 1) :
    CreationOrdered (recordProposal env id caller token stake window supply ps) := by
  have hnot : id ∉ proposalsByStatus ps .pending := by
    rw [hi.mem, hi.fresh hid]
    exact nofun
  have hlatest : ∀ i ∈ proposalsByStatus ps .pending, i.val < id.val := by
    intro i hin
    have hstored := (hi.stored i).mp (by rw [hi.mem.mp hin]; rfl)
    omega
  rw [recordProposal_eq hnot]
  intro st
  have hlists := lists_update ps .pending (proposalsByStatus ps .pending ++ [id]) st
  unfold proposalsByStatus at hlists ⊢
  rw [hlists]
  split
  · exact (pairwise_snoc (ho .pending)).mpr hlatest
  · exact ho st

/-! ### Steps -/

/-- The list a call puts a proposal in. -/
def Call.lists : Call → Option (ProposalStatus × U64)
  | .executeProposal _ id => some (.executed, id)
  | .cancelProposal _ id | .cancelProposalByAdmin _ id _ => some (.cancelled, id)
  | _ => none

/-- The list an action puts a proposal in; a ballot that starts the vote makes it active. -/
def Action.lists (s : State) : Action → Option (ProposalStatus × U64)
  | .call _ _ c => c.lists
  | .ballot b =>
      if b.starts = true ∧ statusOf s.store.proposals b.proposalId = some .pending then
        some (.active, b.proposalId)
      else none
  | .failed .. | .outside _ => none

/-- No proposal made later has come into the list before. -/
def InTurn (s : State) (a : Action) : Prop :=
  ∀ status id, a.lists s = some (status, id) → Latest s.store.proposals status id

theorem Call.lists_of_not (h : c.IsProposal = false) : c.lists = none := by
  cases c <;> first | rfl | cases h

theorem Call.lists_of_cancels (h : c.cancels = some id) : c.lists = some (.cancelled, id) := by
  cases c <;> cases h <;> rfl

theorem Effect.ordered_iff (h : Effect env s c s') (hi : Indexed s.store.proposals)
    (ho : CreationOrdered s.store.proposals) : CreationOrdered s'.store.proposals ↔
    ∀ status id, c.lists = some (status, id) → Latest s.store.proposals status id := by
  cases h with
  | administers hc h =>
      rw [h.store, Call.lists_of_not hc]
      exact iff_of_true ho nofun
  | initializes _ hset _ hfirst _ hrest =>
      rw [hrest.store, hfirst.store, hset.store]
      exact iff_of_true ho nofun
  | sets hc h _ =>
      rw [h.store, Call.lists_of_not hc]
      exact iff_of_true ho nofun
  | checkpoints => exact iff_of_true ho nofun
  | proposes _ _ hid h =>
      obtain ⟨tokens, -, rfl⟩ := transfer_eq_ok h
      exact iff_of_true (ho.record hi hid) nofun
  | executes hdue h =>
      rename_i executor id p config s₁
      obtain ⟨-, hproposal, hlists⟩ := refund_index h
      have hp : s₁.store.proposals.proposal id = some p := by rw [hproposal, hdue.stored]
      have hne : p.status ≠ .executed := fun heq => hdue.opened.not_terminal (.inl heq)
      have hset := ordered_set_iff (hi.refund h) ((CreationOrdered.congr hlists).mpr ho) hp hne
      rw [Latest.congr (statusOf_refund h)] at hset
      refine hset.trans ?_
      simp [Call.lists]
  | cancels hc hp hopen =>
      rename_i id p es
      obtain ⟨records, hrecords⟩ := archive_eq id p s.store.proposals
      have hne : p.status ≠ .cancelled := fun heq => hopen.not_terminal (.inr heq)
      let archived : Proposals := archiveVoteRecord id p s.store.proposals
      have hlists : archived.proposalsByStatus = s.store.proposals.proposalsByStatus := by
        simp only [archived, hrecords]
      have hp' : archived.proposal id = some p := by
        simp only [archived, hrecords, hp]
      have hset := ordered_set_iff hi.archive ((CreationOrdered.congr hlists).mpr ho) hp' hne
      rw [Latest.congr fun i => statusOf_archive] at hset
      rw [Call.lists_of_cancels hc]
      refine hset.trans ?_
      simp

theorem ordered_count_iff {b : Ballot} (hi : Indexed ps) (ho : CreationOrdered ps)
    (hp : ps.proposal b.proposalId = some p) : CreationOrdered (b.count p ps) ↔
    (b.starts = true ∧ p.status = .pending → Latest ps .active b.proposalId) := by
  rw [count_eq]
  split
  next hstarts =>
    have hne : p.status ≠ .active := by rw [hstarts.2]; exact nofun
    have hp' : (b.tally p ps).proposal b.proposalId =
        some { p with forVotes := b.forVotes, againstVotes := b.againstVotes } :=
      Function.update_self _ _ _
    obtain ⟨hi', hstatus⟩ := tally_spec hi hp
    rw [ordered_set_iff hi' ho hp' hne, Latest.congr hstatus]
    exact ⟨fun h _ => h, fun h => h hstarts⟩
  next hstarts => exact iff_of_true ho fun h => absurd h hstarts

theorem Step.ordered_iff (h : Step here s a s') (hi : Indexed s.store.proposals)
    (ho : CreationOrdered s.store.proposals) :
    CreationOrdered s'.store.proposals ↔ InTurn s a := by
  cases h with
  | call _ h => exact (effect_of_exec h).ordered_iff hi ho
  | failed _ _ | outside _ => exact iff_of_true ho nofun
  | ballot h =>
      rename_i b p
      have hstatus : statusOf s.store.proposals b.proposalId = some p.status := by
        rw [statusOf, h]
        rfl
      refine (ordered_count_iff hi ho h).trans ?_
      by_cases hstarts : b.starts = true ∧ p.status = .pending
      · simp [InTurn, Action.lists, hstatus, hstarts]
      · simp [InTurn, Action.lists, hstatus, hstarts]

/-! ### Runs -/

theorem creationOrdered_fresh : CreationOrdered {} := fun _ => .nil

/-- **Listings in creation order.**  The runs that keep every list in creation order throughout are
those in which no proposal gets a status that one made later has already. -/
theorem ordered_of_run {tokens : Ledger} {as : List Action} :
    (Run (fun s a s' => Step here s a s' ∧ CreationOrdered s'.store.proposals)
        (State.fresh tokens) as s ↔
      Run (fun s a s' => Step here s a s' ∧ InTurn s a) (State.fresh tokens) as s) ∧
    (Run (fun s a s' => Step here s a s' ∧ InTurn s a) (State.fresh tokens) as s →
      CreationOrdered s.store.proposals) := by
  have hkeep : ∀ s a s', Step here s a s' → Indexed s.store.proposals → Indexed s'.store.proposals :=
    fun s a s' h hi => h.indexed hi
  have hiff : ∀ s a s', Step here s a s' → Indexed s.store.proposals →
      CreationOrdered s.store.proposals → (CreationOrdered s'.store.proposals ↔ InTurn s a) :=
    fun s a s' h hi ho => h.ordered_iff hi ho
  exact Run.keeps_spec (P := fun s : State => CreationOrdered s.store.proposals) hkeep hiff
    Indexed.empty creationOrdered_fresh

/-- Two proposals, cancelled in the order they were made in, and the other way round. -/
def Sample.cancelled (first second : U64) : State := reached [
  (.lit 110, .setProposalStakeConfig (.account 1) (.contract 9) (.lit 10)),
  (.lit 120, .propose (.account 1) (.lit 1000)), (.lit 130, .propose (.account 1) (.lit 1000)),
  (.lit 140, .cancelProposal (.account 1) first), (.lit 150, .cancelProposal (.account 1) second)]

example : proposalsByStatus (Sample.cancelled (.lit 1) (.lit 2)).store.proposals .cancelled =
    [.lit 1, .lit 2] := by decide

/-- The second proposal is cancelled before the first. -/
theorem cancelled_out_of_order : Reachable Sample.address (Sample.cancelled (.lit 2) (.lit 1)) ∧
    proposalsByStatus (Sample.cancelled (.lit 2) (.lit 1)).store.proposals .cancelled =
      [.lit 2, .lit 1] ∧
    ¬ CreationOrdered (Sample.cancelled (.lit 2) (.lit 1)).store.proposals := by
  have hlist : proposalsByStatus (Sample.cancelled (.lit 2) (.lit 1)).store.proposals .cancelled =
      [.lit 2, .lit 1] := by decide
  refine ⟨Sample.reachable_reached (by decide), hlist, fun h => ?_⟩
  have hpair := h .cancelled
  rw [hlist] at hpair
  simp at hpair

end Drip.Governor
