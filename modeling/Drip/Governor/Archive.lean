import Drip.Governor.Execution

/-!
# Governor — Archive

The vote records.  A cancellation archives the tallies of the proposal it closes; an execution closes
its proposal without a record.

* `Closes id s s' r`: between the two states the proposal has closed, with the tallies `r`.
* `Turn`: what a step does to the statuses and the records, in three kinds.
* `Filed`: a record belongs to a closed proposal.  It holds along every run, and with it a record is
  written when its proposal closes and never again.
* `archive_of_run`: in a run without an execution every closed proposal has the record of its closing.
-/

namespace Drip.Governor
open Chain

variable {here : Address} {host : Host} {env : Env} {s s' s'' : State} {c : Call} {a : Action}
variable {ps ps' : Proposals} {id i : U64} {p : Proposal} {r : VoteRecord} {tokens : Ledger}
variable {as : List Action}

/-- The tallies of a proposal. -/
def tally (ps : Proposals) (id : U64) (p : Proposal) : VoteRecord :=
  ⟨p.forVotes, p.againstVotes, getAbstainVotes ps id⟩

/-- The proposal is open in `s`, where `r` are its tallies, and executed or cancelled in `s'`. -/
structure Closes (id : U64) (s s' : State) (r : VoteRecord) : Prop where
  opened : ∃ p, s.store.proposals.proposal id = some p ∧ p.Open ∧ r = tally s.store.proposals id p
  closed : ∃ status, status.Terminal ∧ statusOf s'.store.proposals id = some status

/-- The record of every proposal that closes between the two states stands in the second. -/
def Files (s s' : State) : Prop :=
  ∀ id r, Closes id s s' r → s'.store.proposals.voteRecord id = some r

/-- Records belong to executed or cancelled proposals. -/
def Filed (ps : Proposals) : Prop :=
  ∀ id r, ps.voteRecord id = some r → ∃ status, status.Terminal ∧ statusOf ps id = some status

/-- A successful `execute_proposal`. -/
def Call.executes : Call → Bool
  | .executeProposal .. => true
  | _ => false

def Action.executes : Action → Bool
  | .call _ _ c => c.executes
  | _ => false

/-! ### One step -/

/-- What a step does to the statuses and the records; the flag says whether it executes. -/
inductive Turn (ps ps' : Proposals) : Bool → Prop where
  | quiet (hrecords : ps'.voteRecord = ps.voteRecord)
      (hstatus : ∀ i status, status.Terminal → statusOf ps' i = some status →
        statusOf ps i = some status) : Turn ps ps' false
  | executed {id : U64} {p : Proposal} (hp : ps.proposal id = some p) (hopen : p.Open)
      (hrecords : ps'.voteRecord = ps.voteRecord)
      (hstatus : ∀ i, statusOf ps' i = if i = id then some .executed else statusOf ps i) :
      Turn ps ps' true
  | cancelled {id : U64} {p : Proposal} (hp : ps.proposal id = some p) (hopen : p.Open)
      (hrecords : ps'.voteRecord = (archiveVoteRecord id p ps).voteRecord)
      (hstatus : ∀ i, statusOf ps' i = if i = id then some .cancelled else statusOf ps i) :
      Turn ps ps' false

theorem statusOf_eq_some (hp : ps.proposal id = some p) : statusOf ps id = some p.status := by
  rw [statusOf, hp]
  rfl

theorem Proposal.Open.ne_terminal {status : ProposalStatus} (hopen : p.Open)
    (hst : status.Terminal) (hp : ps.proposal id = some p) : statusOf ps id ≠ some status := by
  rw [statusOf_eq_some hp]
  exact fun h => hopen.not_terminal (Option.some.inj h ▸ hst)

/-- A stored proposal takes the status it is given. -/
theorem statusOf_set {status : ProposalStatus} (hi : Indexed ps) (hp : ps.proposal id = some p) :
    ∀ i, statusOf (setProposalStatus id status ps).2 i =
      if i = id then some status else statusOf ps i := by
  intro i
  have hisSome : (statusOf ps id).isSome = true := by rw [statusOf_eq_some hp]; rfl
  rw [(setProposalStatus_spec hi).2]
  simp only [hisSome, and_true]

theorem voteRecord_set {status : ProposalStatus} :
    (setProposalStatus id status ps).2.voteRecord = ps.voteRecord := by
  obtain ⟨proposal, lists, heq⟩ := setProposalStatus_frame id status ps
  rw [heq]

/-- Statuses and records that stay as they are. -/
theorem Turn.unchanged (h : ps' = ps) : Turn ps ps' false := by
  rw [h]
  exact .quiet rfl fun _ _ _ h => h

theorem Call.executes_of_not (h : c.IsProposal = false) : c.executes = false := by
  cases c <;> first | rfl | cases h

theorem Call.executes_of_cancels (h : c.cancels = some id) : c.executes = false := by
  cases c <;> first | rfl | cases h

theorem Effect.turn (h : Effect env s c s') (hi : Indexed s.store.proposals) :
    Turn s.store.proposals s'.store.proposals c.executes := by
  cases h with
  | administers hc h =>
      rw [Call.executes_of_not hc]
      exact .unchanged (by rw [h.store])
  | initializes _ hset _ hfirst _ hrest =>
      exact .unchanged (by rw [hrest.store, hfirst.store, hset.store])
  | sets hc h _ =>
      rw [Call.executes_of_not hc]
      exact .unchanged (by rw [h.store])
  | checkpoints => exact .unchanged rfl
  | proposes _ _ hid h =>
      rename_i id token stake s₁ _ _
      obtain ⟨tokens, -, rfl⟩ := transfer_eq_ok h
      refine .quiet ?_ fun i status hst hi' => ?_
      · have hnot : id ∉ proposalsByStatus s.store.proposals .pending := by
          rw [hi.mem, hi.fresh hid]
          exact nofun
        rw [State.withProposals, recordProposal_eq hnot]
      · rw [State.withProposals, (recordProposal_spec hi hid).2] at hi'
        split at hi'
        · -- the new proposal is pending
          cases hi'
          rcases hst with hst | hst <;> cases hst
        · exact hi'
  | executes hdue h =>
      rename_i executor id p config s₁
      obtain ⟨-, hproposal, -⟩ := refund_index h
      have hrecords : s₁.store.proposals.voteRecord = s.store.proposals.voteRecord := by
        obtain ⟨-, rfl⟩ | ⟨amount, token, tokens, -, -, -, rfl⟩ := refund_eq_ok h
        · rfl
        · rfl
      refine .executed hdue.stored hdue.opened (voteRecord_set.trans hrecords) fun i => ?_
      rw [State.withProposals, statusOf_set (hi.refund h) (by rw [hproposal, hdue.stored]),
        statusOf, statusOf, hproposal]
  | cancels hc hp hopen =>
      rename_i id p es
      rw [Call.executes_of_cancels hc]
      refine .cancelled hp hopen voteRecord_set fun i => ?_
      have hp' : (archiveVoteRecord id p s.store.proposals).proposal id = some p := by
        obtain ⟨records, hrecords⟩ := archive_eq id p s.store.proposals
        rw [hrecords]
        exact hp
      rw [State.withProposals, statusOf_set hi.archive hp', statusOf_archive]

theorem Step.turn (h : Step here s a s') (hi : Indexed s.store.proposals) :
    Turn s.store.proposals s'.store.proposals a.executes := by
  cases h with
  | call _ h => exact (effect_of_exec h).turn hi
  | failed _ _ | outside _ => exact .unchanged rfl
  | ballot h =>
      rename_i b p
      obtain ⟨proposal, abstains, lists, hframe⟩ := count_frame b p s.store.proposals
      refine .quiet (by rw [State.withProposals, hframe]) fun i status hst hi' => ?_
      rw [State.withProposals, (count_spec hi h).2] at hi'
      split at hi'
      · cases hi'
        rcases hst with hst | hst <;> cases hst
      · exact hi'

/-! ### What a turn closes and records -/

theorem archive_none (h : ps.voteRecord id = none) : (archiveVoteRecord id p ps).voteRecord =
    Function.update ps.voteRecord id (some (tally ps id p)) := by
  unfold archiveVoteRecord
  rw [if_neg (by rw [h]; exact Bool.false_ne_true)]
  rfl

theorem Filed.open_none (h : Filed ps) (hp : ps.proposal id = some p) (hopen : p.Open) :
    ps.voteRecord id = none := by
  cases hr : ps.voteRecord id with
  | none => rfl
  | some r =>
      obtain ⟨status, hst, hid⟩ := h id r hr
      exact absurd hid (hopen.ne_terminal hst hp)

/-- A proposal that the turn leaves closed was closed before, or the turn has closed it. -/
theorem Turn.closes {executes : Bool} {status : ProposalStatus}
    (h : Turn s.store.proposals s'.store.proposals executes) (hst : status.Terminal)
    (hid : statusOf s'.store.proposals id = some status) :
    statusOf s.store.proposals id = some status ∨ ∃ r, Closes id s s' r := by
  cases h with
  | quiet _ hstatus => exact .inl (hstatus id status hst hid)
  | executed hp hopen _ hstatus | cancelled hp hopen _ hstatus =>
      have hid' := hid
      rw [hstatus] at hid'
      split at hid'
      · rename_i h
        exact .inr ⟨_, ⟨_, h ▸ hp, hopen, rfl⟩, status, hst, hid⟩
      · exact .inl hid'

/-- The records stay, and the one that a turn adds is that of the proposal it closes. -/
theorem Turn.records {executes : Bool} (h : Turn s.store.proposals s'.store.proposals executes)
    (hf : Filed s.store.proposals) :
    (∀ id r, s.store.proposals.voteRecord id = some r →
      s'.store.proposals.voteRecord id = some r) ∧
    ∀ id r, s.store.proposals.voteRecord id = none → s'.store.proposals.voteRecord id = some r →
      Closes id s s' r := by
  cases h with
  | quiet hrecords _ | executed _ _ hrecords _ =>
      rw [hrecords]
      refine ⟨fun _ _ h => h, fun id r hnone hsome => ?_⟩
      rw [hnone] at hsome
      cases hsome
  | cancelled hp hopen hrecords hstatus =>
      rename_i id p
      have hnone : s.store.proposals.voteRecord id = none := hf.open_none hp hopen
      rw [hrecords, archive_none hnone]
      refine ⟨fun i r hr => ?_, fun i r hr hr' => ?_⟩
      · rw [Function.update_of_ne, hr]
        rintro rfl
        rw [hnone] at hr
        cases hr
      · by_cases h : i = id
        · subst h
          rw [Function.update_self] at hr'
          cases hr'
          exact ⟨⟨p, hp, hopen, rfl⟩, .cancelled, .inr rfl, by rw [hstatus, if_pos rfl]⟩
        · rw [Function.update_of_ne h, hr] at hr'
          cases hr'

theorem Step.filed (h : Step here s a s') (hi : Indexed s.store.proposals)
    (hf : Filed s.store.proposals) : Filed s'.store.proposals := by
  intro id r hr
  cases hold : s.store.proposals.voteRecord id with
  | none => exact (((h.turn hi).records hf).2 id r hold hr).closed
  | some r' =>
      obtain ⟨status, hst, hid⟩ := hf id r' hold
      exact ⟨status, hst, h.terminal hi hst hid⟩

/-- A step files what it closes exactly when it is not an execution. -/
theorem Turn.files_iff {executes : Bool} (h : Turn s.store.proposals s'.store.proposals executes)
    (hf : Filed s.store.proposals) : Files s s' ↔ ¬ executes = true := by
  cases h with
  | quiet _ hstatus =>
      refine iff_of_true (fun id r hcloses => ?_) Bool.false_ne_true
      obtain ⟨p, hp, hopen, -⟩ := hcloses.opened
      obtain ⟨status, hst, hid⟩ := hcloses.closed
      exact absurd (hstatus id status hst hid) (hopen.ne_terminal hst hp)
  | executed hp hopen hrecords hstatus =>
      rename_i id p
      refine iff_of_false (fun hfiles => ?_) (not_not.mpr rfl)
      have hclosed : statusOf s'.store.proposals id = some .executed := by rw [hstatus, if_pos rfl]
      have hrecord := hfiles id _ ⟨⟨p, hp, hopen, rfl⟩, .executed, .inl rfl, hclosed⟩
      rw [hrecords, hf.open_none hp hopen] at hrecord
      cases hrecord
  | cancelled hp hopen hrecords hstatus =>
      rename_i id p
      refine iff_of_true (fun i r hcloses => ?_) Bool.false_ne_true
      obtain ⟨q, hq, hq', rfl⟩ := hcloses.opened
      obtain ⟨status, hst, hclosed⟩ := hcloses.closed
      rw [hstatus] at hclosed
      split at hclosed
      · rename_i h
        subst h
        obtain rfl := Option.some.inj (hp.symm.trans hq)
        rw [hrecords, archive_none (hf.open_none hp hopen), Function.update_self]
      · exact absurd hclosed (hq'.ne_terminal hst hq)

/-! ### Runs -/

/-- The index and the records are in order. -/
def Archiving (s : State) : Prop := Indexed s.store.proposals ∧ Filed s.store.proposals

theorem Step.archiving (h : Step here s a s') (ha : Archiving s) : Archiving s' :=
  ⟨h.indexed ha.1, h.filed ha.1 ha.2⟩

theorem archiving_fresh (tokens : Ledger) : Archiving (State.fresh tokens) :=
  ⟨Indexed.empty, fun _ _ h => by cases h⟩

theorem archiving_of_run (h : Run (Step here) (State.fresh tokens) as s) : Archiving s :=
  h.invariant (P := Archiving) (fun _ => Step.archiving) (archiving_fresh tokens)

/-- The run from `s₀` to `s` has a step at which the proposal closed with the tallies `r`. -/
def ClosedWith (here : Address) (s₀ : State) (as : List Action) (s : State) (id : U64)
    (r : VoteRecord) : Prop :=
  ∃ before a later t t', as = before ++ a :: later ∧ Run (Step here) s₀ before t ∧
    Step here t a t' ∧ Run (Step here) t' later s ∧ Closes id t t' r

theorem ClosedWith.snoc {s₀ : State} (h : ClosedWith here s₀ as s id r) (hstep : Step here s a s') :
    ClosedWith here s₀ (as ++ [a]) s' id r := by
  obtain ⟨before, b, later, t, t', rfl, hbefore, hb, hlater, hcloses⟩ := h
  refine ⟨before, b, later ++ [a], t, t', ?_, hbefore, hb, hlater.snoc hstep, hcloses⟩
  rw [List.append_assoc, List.cons_append]

/-- A run of steps that file what they close: the record of a closed proposal is that of its
closing. -/
theorem record_of_run {status : ProposalStatus}
    (h : Run (fun s a s' => Step here s a s' ∧ Files s s') (State.fresh tokens) as s)
    (hst : status.Terminal) (hid : statusOf s.store.proposals id = some status) :
    ∃ r, s.store.proposals.voteRecord id = some r ∧
      ClosedWith here (State.fresh tokens) as s id r := by
  generalize h₀ : State.fresh tokens = s₀ at h ⊢
  induction h with
  | nil =>
      rw [← h₀] at hid
      cases hid
  | snoc hrun hstep ih =>
      rename_i s s' as a
      obtain ⟨hstep, hfiles⟩ := hstep
      have hrun : Run (Step here) s₀ as s := hrun.mono fun _ h => h.1
      obtain ⟨hi, hf⟩ := archiving_of_run (h₀ ▸ hrun)
      rcases (hstep.turn hi).closes hst hid with hold | ⟨r, hcloses⟩
      · obtain ⟨r, hr, hclosed⟩ := ih hold
        exact ⟨r, ((hstep.turn hi).records hf).1 id r hr, hclosed.snoc hstep⟩
      · exact ⟨r, hfiles id r hcloses, as, a, [], s, s', rfl, hrun, hstep, .nil s', hcloses⟩

/-- **The archive.**  In every run a record is written when its proposal closes, with the tallies of
that moment, and never changes, and an open proposal has none.  In a run without an execution every
closed proposal has its record, and the runs that file every proposal they close are exactly those. -/
theorem archive_of_run :
    (Run (Step here) (State.fresh tokens) as s →
      (∀ id p, s.store.proposals.proposal id = some p → p.status = .pending ∨ p.status = .active →
        s.store.proposals.voteRecord id = none) ∧
      ∀ a s', Step here s a s' → ∀ id r,
        (s.store.proposals.voteRecord id = some r → s'.store.proposals.voteRecord id = some r) ∧
        (s.store.proposals.voteRecord id = none → s'.store.proposals.voteRecord id = some r →
          Closes id s s' r)) ∧
    (Run (fun s a s' => Step here s a s' ∧ ¬ a.executes = true) (State.fresh tokens) as s →
      ∀ id p, s.store.proposals.proposal id = some p →
        p.status = .executed ∨ p.status = .cancelled →
        ∃ r, s.store.proposals.voteRecord id = some r ∧
          ClosedWith here (State.fresh tokens) as s id r) ∧
    (Run (fun s a s' => Step here s a s' ∧ Files s s') (State.fresh tokens) as s ↔
      Run (fun s a s' => Step here s a s' ∧ ¬ a.executes = true) (State.fresh tokens) as s) := by
  have hiff : Run (fun s a s' => Step here s a s' ∧ Files s s') (State.fresh tokens) as s ↔
      Run (fun s a s' => Step here s a s' ∧ ¬ a.executes = true) (State.fresh tokens) as s :=
    Run.steps_iff (fun _ _ _ h => h.archiving) (fun _ _ _ h ha => (h.turn ha.1).files_iff ha.2)
      (archiving_fresh tokens)
  refine ⟨fun h => ?_, fun h id p hp hst => ?_, hiff⟩
  · obtain ⟨hi, hf⟩ := archiving_of_run h
    refine ⟨fun id p hp hopen => hf.open_none hp hopen, fun a s' hstep id r => ?_⟩
    exact ⟨((hstep.turn hi).records hf).1 id r, ((hstep.turn hi).records hf).2 id r⟩
  · exact record_of_run (hiff.mpr h) hst (statusOf_eq_some hp)

namespace Sample

/-- One proposal. -/
def proposing : List (U64 × Call) := [
  (.lit 110, .setProposalStakeConfig (.account 1) (.contract 9) (.lit 10)),
  (.lit 120, .propose (.account 1) (.lit 1000))]

/-- The proposal after two votes for it and an abstention. -/
def voted : State := (reached proposing).withProposals
  (Ballot.count ⟨.lit 1, .lit 2, .lit 0, .lit 1, true⟩
    (.made (envAt (.lit 120)) (.account 1) (.lit 1000)) (reached proposing).store.proposals)

end Sample

theorem archive_of_run_cancelled :
    let s := Sample.next Sample.voted (Sample.envAt (.lit 200)) (.cancelProposal (.account 1) (.lit 1))
    s.store.proposals.voteRecord (.lit 1) = some ⟨.lit 2, .lit 0, .lit 1⟩ ∧
      ∃ as r, s.store.proposals.voteRecord (.lit 1) = some r ∧
        ClosedWith Sample.address (State.fresh Sample.tokens) as s (.lit 1) r := by
  intro s
  have hrun : Run (Step Sample.address) (State.fresh Sample.tokens)
      (Sample.actions Sample.proposing) (Sample.reached Sample.proposing) :=
    Sample.run_reached (by decide)
  have hkept : Run (fun s a s' => Step Sample.address s a s' ∧ ¬ a.executes = true)
      (State.fresh Sample.tokens) (Sample.actions Sample.proposing)
      (Sample.reached Sample.proposing) := by
    have hno : ∀ x ∈ Sample.opening :: Sample.proposing, ¬ x.2.executes = true := by decide
    refine hrun.mono fun {s a s'} hin hstep => ⟨hstep, ?_⟩
    obtain ⟨x, hx, rfl⟩ := List.mem_map.mp hin
    exact hno x hx
  have hvoted := hkept.snoc ⟨.ballot (b := ⟨.lit 1, .lit 2, .lit 0, .lit 1, true⟩) (by rfl),
    Bool.false_ne_true⟩
  have hcancel : Step Sample.address Sample.voted (.call Sample.host (Sample.envAt (.lit 200))
    (.cancelProposal (.account 1) (.lit 1))) s := Sample.step_next rfl (by decide)
  have hclosed := archive_of_run.2.1 (hvoted.snoc ⟨hcancel, Bool.false_ne_true⟩)
  exact ⟨by decide, _, hclosed (.lit 1) _ (by rfl) (.inr rfl)⟩

/-- The proposal is executed, and has no record. -/
theorem executed_unarchived :
    let s := Sample.next Sample.proposed (Sample.envAt (.lit 604930))
      (.executeProposal (.account 4) (.lit 1))
    Reachable Sample.address s ∧ statusOf s.store.proposals (.lit 1) = some .executed ∧
      s.store.proposals.voteRecord (.lit 1) = none := by
  intro s
  obtain ⟨tokens, as, hrun⟩ := Sample.reachable_proposed
  have hstep : Step Sample.address Sample.proposed (.call Sample.host (Sample.envAt (.lit 604930))
    (.executeProposal (.account 4) (.lit 1))) s := Sample.step_next rfl (by decide)
  exact ⟨⟨tokens, _, hrun.snoc hstep⟩, by decide, by decide⟩

end Drip.Governor
