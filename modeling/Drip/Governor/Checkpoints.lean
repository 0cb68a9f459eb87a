import Drip.Support.Timeline
import Drip.Governor.Effects

/-!
# Governor — Checkpoints

The voting weights: `get_checkpoint_weight` of `contracts/governor/src/storage.rs` and
`get_prior_votes` of `lib.rs`, over the checkpoints that `record_checkpoint` leaves.

* `Recorded calls s`: the checkpoints of `s` are the history of the `calls` made so far.
  `Recorded.record` is the step, for a call that is not earlier than the others.
* `checkpoints_of_run`: the answers at every ledger, and that later calls leave them alone.

The first checkpoint of a governor turns the answer of every account from `None` into `Some(0)`.
-/

namespace Drip.Governor
open Chain

variable {here : Address} {host : Host} {env : Env} {s s' : State} {c : Call}
variable {account : Address} {ledger snapshot : U32} {tokens : Ledger}

/-! ### Lookup -/

/-- The loop of `get_checkpoint_weight`, which stops at the first later checkpoint. -/
def matchedWeight (snapshotLedger : U32) (matched : U64) : List BalanceCheckpoint → U64
  | [] => matched
  | cp :: cps =>
      if cp.ledger ≤ snapshotLedger then matchedWeight snapshotLedger cp.weight cps else matched

/-- `storage::get_checkpoint_weight`: `none` when checkpointing has not been used. -/
def getCheckpointWeight (account : Address) (snapshotLedger : U32) (s : State) : Option U64 :=
  match s.store.voteCheckpoints account with
  | some cps => some (matchedWeight snapshotLedger (.lit 0) cps)
  | none => if s.store.checkpointingEnabled.getD false then some (.lit 0) else none

def getPriorVotes (account : Address) (ledgerSequence : U32) (s : State) : U64 :=
  (getCheckpointWeight account ledgerSequence s).getD (.lit 0)

def BalanceCheckpoint.at (cp : BalanceCheckpoint) : Int := cp.ledger.val

theorem addCheckpoint_eq (cps : List BalanceCheckpoint) {weight : U64} :
    addCheckpoint cps ledger weight = Timeline.put BalanceCheckpoint.at cps ⟨ledger, weight⟩ := by
  unfold addCheckpoint Timeline.put
  cases cps.getLast? <;> rfl

theorem matchedWeight_eq (cps : List BalanceCheckpoint) (w : U64) :
    matchedWeight snapshot w cps =
      (((cps.takeWhile fun cp => cp.at ≤ snapshot.val).getLast?).map BalanceCheckpoint.weight).getD w := by
  induction cps generalizing w with
  | nil => rfl
  | cons cp cps ih =>
      unfold matchedWeight
      by_cases h : cp.ledger ≤ snapshot
      · rw [if_pos h, ih, List.takeWhile_cons_of_pos (by rw [decide_eq_true_iff]; exact h),
          List.getLast?_cons]
        cases (cps.takeWhile fun cp => cp.at ≤ snapshot.val).getLast? <;> rfl
      · rw [if_neg h, List.takeWhile_cons_of_neg (by rw [decide_eq_true_iff]; exact h)]
        rfl

theorem matchedWeight_of_timeline {cps : List BalanceCheckpoint}
    (h : Timeline BalanceCheckpoint.at cps) :
    matchedWeight snapshot (.lit 0) cps =
      ((Timeline.upTo BalanceCheckpoint.at snapshot.val cps).map BalanceCheckpoint.weight).getD
        (.lit 0) := by
  rw [matchedWeight_eq, h.upTo_eq]

/-! ### Histories -/

/-- A call of `record_checkpoint`. -/
structure Recording where
  account : Address
  ledger : U32
  weight : U64
deriving DecidableEq

def Recording.checkpoint (r : Recording) : BalanceCheckpoint := ⟨r.ledger, r.weight⟩

/-- The checkpoints of one account, in the order of the calls. -/
def recordedOf (account : Address) (calls : List Recording) : List BalanceCheckpoint :=
  (calls.filter fun r => r.account = account).map Recording.checkpoint

/-- The weight of the last call for the account at a ledger up to `snapshot`, or 0. -/
def lastWeight (calls : List Recording) (account : Address) (snapshot : U32) : U64 :=
  ((Timeline.upTo BalanceCheckpoint.at snapshot.val (recordedOf account calls)).map
    BalanceCheckpoint.weight).getD (.lit 0)

theorem recordedOf_concat (calls : List Recording) (r : Recording) :
    recordedOf account (calls ++ [r]) =
      if r.account = account then recordedOf account calls ++ [r.checkpoint]
      else recordedOf account calls := by
  unfold recordedOf
  rw [List.filter_append]
  by_cases h : r.account = account
  · rw [if_pos h, List.filter_cons_of_pos (by rwa [decide_eq_true_iff]), List.map_append]
    rfl
  · rw [if_neg h, List.filter_cons_of_neg (by rwa [decide_eq_true_iff]), List.map_append]
    exact List.append_nil _

/-- The checkpoints of `s` are what the calls have left. -/
structure Recorded (calls : List Recording) (s : State) : Prop where
  enabled : s.store.checkpointingEnabled.getD false = decide (calls ≠ [])
  none_of : calls = [] → ∀ account, s.store.voteCheckpoints account = none
  timeline : ∀ account, Timeline BalanceCheckpoint.at ((s.store.voteCheckpoints account).getD [])
  upTo : ∀ account k, Timeline.upTo BalanceCheckpoint.at k ((s.store.voteCheckpoints account).getD []) =
    Timeline.upTo BalanceCheckpoint.at k (recordedOf account calls)
  within : ∀ account, ∀ cp ∈ (s.store.voteCheckpoints account).getD [],
    ∃ r ∈ calls, r.ledger = cp.ledger

theorem Recorded.congr {calls : List Recording} (h : Recorded calls s)
    (hcps : s'.store.voteCheckpoints = s.store.voteCheckpoints)
    (henabled : s'.store.checkpointingEnabled = s.store.checkpointingEnabled) :
    Recorded calls s' := by
  refine ⟨?_, ?_, ?_, ?_, ?_⟩
  · rw [henabled]
    exact h.enabled
  · rw [hcps]
    exact h.none_of
  · rw [hcps]
    exact h.timeline
  · rw [hcps]
    exact h.upTo
  · rw [hcps]
    exact h.within

theorem Recorded.fresh (tokens : Ledger) : Recorded [] (State.fresh tokens) :=
  ⟨rfl, fun _ _ => rfl, fun _ => Timeline.nil, fun _ _ => rfl, fun _ _ h => absurd h List.not_mem_nil⟩

/-- The checkpoints of an account after a call. -/
theorem recordCheckpointAt_cps (r : Recording) (account : Address) (s : State) :
    ((recordCheckpointAt r.account r.ledger r.weight s).store.voteCheckpoints account).getD [] =
      if r.account = account then
        Timeline.put BalanceCheckpoint.at ((s.store.voteCheckpoints account).getD []) r.checkpoint
      else (s.store.voteCheckpoints account).getD [] := by
  unfold recordCheckpointAt
  dsimp only
  by_cases h : r.account = account
  · rw [if_pos h, ← h, Function.update_self, Option.getD_some]
    exact addCheckpoint_eq _
  · rw [if_neg h, Function.update_of_ne (Ne.symm h)]

/-- A call that is not earlier than the others. -/
theorem Recorded.record {calls : List Recording} (h : Recorded calls s) (r : Recording)
    (hr : ∀ c ∈ calls, c.ledger.val ≤ r.ledger.val) :
    Recorded (calls ++ [r]) (recordCheckpointAt r.account r.ledger r.weight s) := by
  have hne : calls ++ [r] ≠ [] := List.concat_ne_nil r calls
  have hle : ∀ account, ∀ cp ∈ (s.store.voteCheckpoints account).getD [],
      cp.at ≤ r.checkpoint.at := fun account cp hcp => by
    obtain ⟨c, hc, hledger⟩ := h.within account cp hcp
    have := hr c hc
    rwa [hledger] at this
  refine ⟨?_, fun hnil => absurd hnil hne, fun account => ?_, fun account k => ?_,
    fun account cp hcp => ?_⟩
  · rw [decide_eq_true hne]
    rfl
  · rw [recordCheckpointAt_cps]
    split
    · exact (h.timeline account).putLast (hle account)
    · exact h.timeline account
  · rw [recordCheckpointAt_cps, recordedOf_concat]
    split
    · rw [Timeline.upTo_put (hle account), Timeline.upTo_concat, h.upTo]
    · exact h.upTo account k
  · rw [recordCheckpointAt_cps] at hcp
    split at hcp
    · rcases Timeline.mem_put hcp with hcp | rfl
      · obtain ⟨c, hc, hledger⟩ := h.within account cp hcp
        exact ⟨c, List.mem_append_left _ hc, hledger⟩
      · exact ⟨r, List.mem_append_right _ (List.mem_singleton.mpr rfl), rfl⟩
    · obtain ⟨c, hc, hledger⟩ := h.within account cp hcp
      exact ⟨c, List.mem_append_left _ hc, hledger⟩

theorem Recorded.answer {calls : List Recording} (h : Recorded calls s) (account : Address)
    (snapshot : U32) : getCheckpointWeight account snapshot s =
      if calls = [] then none else some (lastWeight calls account snapshot) := by
  have hupTo := h.upTo account snapshot.val
  have htimeline := h.timeline account
  unfold getCheckpointWeight lastWeight
  rw [← hupTo]
  cases hcps : s.store.voteCheckpoints account with
  | none =>
      rw [h.enabled]
      by_cases hnil : calls = []
      · rw [if_pos hnil, hnil]
        rfl
      · rw [if_neg hnil, decide_eq_true hnil]
        rfl
  | some cps =>
      have hnil : calls ≠ [] := fun hnil => by
        rw [h.none_of hnil account] at hcps
        cases hcps
      rw [hcps] at htimeline
      rw [if_neg hnil]
      exact congrArg some (matchedWeight_of_timeline htimeline)

/-- A later call does not count before its ledger. -/
theorem lastWeight_concat (calls : List Recording) (r : Recording) (account : Address)
    (hlt : snapshot.val < r.ledger.val) :
    lastWeight (calls ++ [r]) account snapshot = lastWeight calls account snapshot := by
  unfold lastWeight
  rw [recordedOf_concat]
  split
  · rw [Timeline.upTo_concat, if_neg]
    exact not_le.mpr hlt
  · rfl

/-! ### Runs -/

/-- A step of the governor, or a use of `record_checkpoint` on its own. -/
inductive CheckpointAction where
  | step (a : Action)
  | record (env : Env) (account : Address) (weight : U64)

inductive CheckpointStep (here : Address) : State → CheckpointAction → State → Prop where
  | step {s s' : State} {a : Action} (h : Step here s a s') : CheckpointStep here s (.step a) s'
  | record {s : State} {env : Env} {account : Address} {weight : U64} :
      CheckpointStep here s (.record env account weight) (recordCheckpoint env account weight s)

/-- The call of `record_checkpoint` that a step makes. -/
def CheckpointAction.recording : CheckpointAction → Option Recording
  | .step (.call _ env (.checkpointBalance _ voter weight)) => some ⟨voter, env.sequence, weight⟩
  | .record env account weight => some ⟨account, env.sequence, weight⟩
  | _ => none

def recordings (as : List CheckpointAction) : List Recording :=
  as.filterMap CheckpointAction.recording

def Call.checkpoints : Call → Bool
  | .checkpointBalance .. => true
  | _ => false

/-- The other calls leave the checkpoints alone. -/
theorem Effect.checkpoints_kept (h : Effect env s c s') (hc : c.checkpoints = false) :
    s'.store.voteCheckpoints = s.store.voteCheckpoints ∧
      s'.store.checkpointingEnabled = s.store.checkpointingEnabled := by
  cases h with
  | administers _ h => exact ⟨by rw [h.store], by rw [h.store]⟩
  | initializes _ hset _ hfirst _ hrest =>
      rw [hrest.store, hfirst.store, hset.store]
      exact ⟨rfl, rfl⟩
  | sets _ h _ => exact ⟨by rw [h.store], by rw [h.store]⟩
  | checkpoints => cases hc
  | proposes _ _ _ h =>
      obtain ⟨tokens, -, rfl⟩ := transfer_eq_ok h
      exact ⟨rfl, rfl⟩
  | executes _ h =>
      obtain ⟨-, rfl⟩ | ⟨amount, token, tokens, -, -, -, rfl⟩ := refund_eq_ok h
      · exact ⟨rfl, rfl⟩
      · exact ⟨rfl, rfl⟩
  | cancels _ _ _ => exact ⟨rfl, rfl⟩

theorem exec_checkpoints (hc : c.checkpoints = true) (h : exec host env s c = .ok s') :
    ∃ caller voter weight, c = .checkpointBalance caller voter weight ∧
      s' = recordCheckpoint env voter weight s := by
  cases c with
  | checkpointBalance caller voter weight =>
      simp only [exec, checkpointBalance, bind_eq_ok, pure_eq_ok] at h
      obtain ⟨u, -, rfl⟩ := h
      exact ⟨caller, voter, weight, rfl, rfl⟩
  | _ => cases hc

theorem recording_none (hc : c.checkpoints = false) :
    CheckpointAction.recording (.step (.call host env c)) = none := by
  cases c <;> first | rfl | cases hc

/-- A step records the call that its label says, or leaves the checkpoints alone. -/
theorem CheckpointStep.spec {a : CheckpointAction} (h : CheckpointStep here s a s') :
    (∃ r, a.recording = some r ∧ s' = recordCheckpointAt r.account r.ledger r.weight s) ∨
      a.recording = none ∧ s'.store.voteCheckpoints = s.store.voteCheckpoints ∧
        s'.store.checkpointingEnabled = s.store.checkpointingEnabled := by
  cases h with
  | record => exact .inl ⟨_, rfl, rfl⟩
  | step h =>
      cases h with
      | failed _ _ | ballot _ | outside _ => exact .inr ⟨rfl, rfl, rfl⟩
      | @call _ host env c henv h =>
          by_cases hc : c.checkpoints = true
          · obtain ⟨caller, voter, weight, rfl, rfl⟩ := exec_checkpoints hc h
            exact .inl ⟨_, rfl, rfl⟩
          · rw [Bool.not_eq_true] at hc
            exact .inr ⟨recording_none hc, (effect_of_exec h).checkpoints_kept hc⟩

theorem recordings_snoc (as : List CheckpointAction) (a : CheckpointAction) :
    recordings (as ++ [a]) = recordings as ++ a.recording.toList := by
  unfold recordings
  rw [List.filterMap_append]
  cases h : a.recording with
  | none => rw [List.filterMap_cons_none h]; rfl
  | some r => rw [List.filterMap_cons_some h]; rfl

/-- The calls are made at nondecreasing ledgers. -/
def Ordered (calls : List Recording) : Prop :=
  calls.Pairwise fun a b => a.ledger.val ≤ b.ledger.val

theorem CheckpointStep.recorded {a : CheckpointAction} {calls : List Recording}
    (h : CheckpointStep here s a s') (hs : Recorded calls s)
    (ho : Ordered (calls ++ a.recording.toList)) : Recorded (calls ++ a.recording.toList) s' := by
  rcases h.spec with ⟨r, hr, rfl⟩ | ⟨hr, hcps, henabled⟩
  · rw [hr] at ho ⊢
    exact hs.record r fun c hc =>
      (List.pairwise_append.mp ho).2.2 c hc r (List.mem_singleton.mpr rfl)
  · rw [hr]
    exact (List.append_nil calls).symm ▸ hs.congr hcps henabled

theorem recorded_of_run {as : List CheckpointAction}
    (h : Run (CheckpointStep here) (State.fresh tokens) as s) (ho : Ordered (recordings as)) :
    Recorded (recordings as) s := by
  generalize h₀ : State.fresh tokens = s₀ at h
  induction h with
  | nil => exact h₀ ▸ Recorded.fresh tokens
  | snoc _ ha ih =>
      rw [recordings_snoc] at ho ⊢
      exact ha.recorded (ih (List.pairwise_append.mp ho).1) ho

/-- **The checkpoints.**  While `record_checkpoint` is called at nondecreasing ledgers, the checkpoints
of an account strictly increase, and its weight at a ledger is that of the last call up to it: 0 where
there is none, `none` as long as there has been no call at all.  A call changes no vote count before
its ledger, and no answer either, unless it is the first call of all. -/
theorem checkpoints_of_run {as : List CheckpointAction}
    (h : Run (CheckpointStep here) (State.fresh tokens) as s) (ho : Ordered (recordings as)) :
    (∀ account cps, s.store.voteCheckpoints account = some cps →
      cps.Pairwise fun a b => a.ledger.val < b.ledger.val) ∧
    (∀ account snapshot, getCheckpointWeight account snapshot s =
      if recordings as = [] then none else some (lastWeight (recordings as) account snapshot)) ∧
    ∀ a s', CheckpointStep here s a s' → Ordered (recordings (as ++ [a])) →
      ∀ account (snapshot : U32), (∀ r ∈ a.recording, snapshot.val < r.ledger.val) →
        getPriorVotes account snapshot s' = getPriorVotes account snapshot s ∧
        (recordings as ≠ [] →
          getCheckpointWeight account snapshot s' = getCheckpointWeight account snapshot s) := by
  have hs := recorded_of_run h ho
  refine ⟨fun account cps hcps => ?_, hs.answer, fun a s' hstep ho' account snapshot hlt => ?_⟩
  · have htimeline := hs.timeline account
    rw [hcps] at htimeline
    exact htimeline
  · rw [recordings_snoc] at ho'
    have hs' := hstep.recorded hs ho'
    have hlast : lastWeight (recordings as ++ a.recording.toList) account snapshot =
        lastWeight (recordings as) account snapshot := by
      cases hr : a.recording with
      | none => exact congrArg (lastWeight · account snapshot) (List.append_nil _)
      | some r => exact lastWeight_concat _ r account (hlt r hr)
    have hbefore := hs.answer account snapshot
    have hafter := hs'.answer account snapshot
    rw [hlast] at hafter
    by_cases hnil : recordings as = []
    · -- nothing has been recorded, and the answer counts as 0 before and after
      have hnone : lastWeight (recordings as) account snapshot = .lit 0 := by rw [hnil]; rfl
      refine ⟨?_, fun hne => absurd hnil hne⟩
      unfold getPriorVotes
      rw [hbefore, if_pos hnil, hafter, hnone]
      split <;> rfl
    · have hne : recordings as ++ a.recording.toList ≠ [] := fun h =>
        hnil (List.append_eq_nil_iff.mp h).1
      rw [if_neg hnil] at hbefore
      rw [if_neg hne] at hafter
      have heq : getCheckpointWeight account snapshot s' = getCheckpointWeight account snapshot s :=
        hafter.trans hbefore.symm
      refine ⟨?_, fun _ => heq⟩
      unfold getPriorVotes
      rw [heq]

/-- A weight of 5 recorded at ledger 1, replaced at once by 3, and another 7 at ledger 4. -/
theorem checkpoints_of_run_moved :
    let record := fun (l : U32) (w : U64) => CheckpointAction.record
      ⟨Sample.address, .lit 100, l, fun _ => false, rfl⟩ (.account 2) w
    let as := [record (.lit 1) (.lit 5), record (.lit 1) (.lit 3), record (.lit 4) (.lit 7)]
    ∃ s, Run (CheckpointStep Sample.address) (State.fresh Sample.tokens) as s ∧
      getCheckpointWeight (.account 2) (.lit 3) s = some (.lit 3) := by
  intro record as
  have hrun : Run (CheckpointStep Sample.address) (State.fresh Sample.tokens) as _ :=
    (((Run.nil _).snoc .record).snoc .record).snoc .record
  have ho : Ordered (recordings as) := by
    refine List.pairwise_cons.mpr ⟨by decide, List.pairwise_cons.mpr ⟨by decide, ?_⟩⟩
    exact List.pairwise_singleton _ _
  exact ⟨_, hrun, (checkpoints_of_run hrun ho).2.1 (.account 2) (.lit 3)⟩

/-- The first call, at ledger 1, changes the answer at ledger 0. -/
theorem first_checkpoint_answers :
    let s := Sample.reached []
    let s' := Sample.next s (Sample.envAt (.lit 110))
      (.checkpointBalance (.account 1) (.account 2) (.lit 5))
    Step Sample.address s (.call Sample.host (Sample.envAt (.lit 110))
        (.checkpointBalance (.account 1) (.account 2) (.lit 5))) s' ∧ Reachable Sample.address s ∧
      (Sample.envAt (.lit 110)).sequence = .lit 1 ∧
      getCheckpointWeight (.account 2) (.lit 0) s = none ∧
      getCheckpointWeight (.account 2) (.lit 0) s' = some (.lit 0) := by
  intro s s'
  exact ⟨Sample.step_next rfl (by decide), Sample.reachable_reached (by decide), rfl, by decide,
    by decide⟩

end Drip.Governor
