import Mathlib.Algebra.BigOperators.Finprod
import Drip.Factory.Batches

/-!
# Factory — TokenCounts

The counts of the streams by token, against the streams created.  A run creates the requests of its
successful calls (`Action.requests`), and the counter of all streams is their number
(`counts_of_run`); the counts by token are read and never written.

* `tokenCounts_of_run`: they are right exactly as long as there is nothing to count.
-/

namespace Drip.Factory
open Chain

/-- The requests that a step has created streams for. -/
def Action.requests : Action → List StreamInitParams
  | .call _ _ c => c.requests
  | _ => []

/-- The counter has grown by `n`, and the counts by token are what they were. -/
structure Counts (n : Nat) (w w' : World) : Prop where
  total : (streamCount w'.factory).val = (streamCount w.factory).val + n
  byToken : w'.factory.tokenStreamCount = w.factory.tokenStreamCount

section

variable {host : Host} {env : Env} {config : GovernorConfig} {here : Address} {c : Call} {n k : Nat}
variable {w w₀ w₁ w' : World} {a : Action} {as : List Action}

theorem Counts.of_frame (hcount : w'.factory.streamCount = w.factory.streamCount)
    (htoken : w'.factory.tokenStreamCount = w.factory.tokenStreamCount) : Counts 0 w w' := by
  refine ⟨?_, htoken⟩
  unfold streamCount
  rw [hcount]
  omega

theorem Counts.refl (w : World) : Counts 0 w w := .of_frame rfl rfl

theorem Counts.trans (h : Counts n w w₁) (h' : Counts k w₁ w') : Counts (n + k) w w' := by
  refine ⟨?_, h'.byToken.trans h.byToken⟩
  rw [h'.total, h.total]
  omega

/-! ### Creations -/

theorem counts_of_makes {made : List (StreamInitParams × Address)}
    (h : Run (Makes host env config) w made w') : Counts made.length w w' := by
  induction h with
  | nil => exact .refl _
  | snoc _ hmakes ih =>
      obtain ⟨-, now, description, id, -, hcreate, -⟩ := hmakes
      obtain ⟨stream, hregisters⟩ := registers_of_create hcreate
      obtain ⟨-, -, htoken⟩ := create_frame hcreate
      rw [List.length_append, List.length_singleton]
      exact ih.trans ⟨hregisters.count, htoken⟩

theorem counts_of_requireNotPaused (h : requireNotPaused env w = .ok w') : Counts 0 w w' := by
  simp only [requireNotPaused, bind_eq_ok, pure_eq_ok] at h
  obtain ⟨-, -, rfl⟩ := h
  exact .of_frame rfl rfl

/-! ### The other calls -/

theorem counts_of_callCancel {sender stream : Address}
    (h : callCancel host env sender stream w = .ok w') : Counts 0 w w' := by
  unfold callCancel at h
  split at h
  · cases h
  · split at h
    · split at h
      · cases h
      · cases h
        exact .of_frame rfl rfl
    · simp only [bind_eq_ok, pure_eq_ok] at h
      obtain ⟨⟨tokens, become⟩, -, rfl⟩ := h
      exact .of_frame rfl rfl

theorem counts_of_cancelTurn {sender stream : Address}
    (h : cancelTurn host env sender w stream = .ok w') : Counts 0 w w' := by
  simp only [cancelTurn, bind_eq_ok] at h
  obtain ⟨w₁, hcall, h⟩ := h
  refine (counts_of_callCancel hcall).trans (k := 0) ?_
  split at h
  · cases h
    exact .refl _
  · cases h
    exact .of_frame rfl rfl

theorem counts_of_cancelBatchStreams {sender : Address} {streamAddresses : List Address}
    (h : cancelBatchStreams host env sender streamAddresses w = .ok w') : Counts 0 w w' := by
  simp only [cancelBatchStreams, bind_eq_ok] at h
  obtain ⟨-, -, -, -, -, -, -, -, h⟩ := h
  refine foldlM_invariant (P := Counts 0 w) (fun a _ w₁ w₂ hturn hw => ?_) h (.refl w)
  exact hw.trans (counts_of_cancelTurn hturn)

theorem counts_of_recordCancel {stream : Address} (h : recordCancel stream w = .ok w') :
    Counts 0 w w' := by
  unfold recordCancel at h
  split at h
  · cases h
    exact .refl _
  · split at h
    · cases h
      exact .refl _
    · simp only [bind_eq_ok] at h
      obtain ⟨info, -, h⟩ := h
      split at h
      · cases h
        exact .refl _
      · cases h
        exact .of_frame rfl rfl

theorem counts_of_pause (h : pause env w = .ok w') : Counts 0 w w' := by
  simp only [pause, bind_eq_ok, pure_eq_ok] at h
  obtain ⟨governor, -, -, -, w₁, hset, rfl⟩ := h
  obtain ⟨stored, rfl⟩ := setPaused_frame hset
  obtain ⟨last, hlast⟩ := bump_frame (isPaused env w).2.factory
  rw [hlast]
  exact .of_frame rfl rfl

theorem counts_of_unpause (h : unpause env w = .ok w') : Counts 0 w w' := by
  simp only [unpause, bind_eq_ok, pure_eq_ok] at h
  obtain ⟨governor, -, -, -, w₁, hset, rfl⟩ := h
  obtain ⟨stored, rfl⟩ := setPaused_frame hset
  obtain ⟨last, hlast⟩ := bump_frame (isPaused env w).2.factory
  rw [hlast]
  exact .of_frame rfl rfl

theorem counts_of_upgradeStreamWasm {hash : Hash} (h : upgradeStreamWasm env hash w = .ok w') :
    Counts 0 w w' := by
  simp only [upgradeStreamWasm, requireNotPaused, bind_eq_ok, pure_eq_ok] at h
  obtain ⟨governor, -, -, -, _, ⟨-, -, rfl⟩, old, -, h⟩ := h
  obtain ⟨last, hlast⟩ := bump_frame (isPaused env w).2.factory
  split at h
  · cases h
    exact hlast ▸ Counts.of_frame rfl rfl
  · cases h
    exact hlast ▸ Counts.of_frame rfl rfl

/-! ### A run -/

theorem counts_of_exec (hr : Registered w) (h : exec host env w c = .ok w') :
    Counts c.requests.length w w' := by
  cases c with
  | initializeFactory hash governor => simp [exec, initializeFactory, hr.initialized] at h
  | createStream | batchCreateStreams | createBatchStreams =>
      obtain ⟨w₁, config, made, hpause, -, hmade, hrun⟩ := makes_of_exec h rfl
      rw [← hmade, List.length_map, ← Nat.zero_add made.length]
      exact (counts_of_requireNotPaused hpause).trans (counts_of_makes hrun)
  | cancelBatchStreams sender streamAddresses => exact counts_of_cancelBatchStreams h
  | recordCancel stream => exact counts_of_recordCancel h
  | pause => exact counts_of_pause h
  | unpause => exact counts_of_unpause h
  | isPaused =>
      cases h
      exact .of_frame rfl rfl
  | upgradeStreamWasm hash => exact counts_of_upgradeStreamWasm h
  | migrateSenderIndex sender maxPages =>
      rw [migrateSenderIndex_eq hr h]
      exact .refl w
  | migrateRecipientIndex recipient maxPages =>
      rw [migrateRecipientIndex_eq hr h]
      exact .refl w

theorem counts_of_step (hr : Registered w) (h : Step here w a w') :
    Counts a.requests.length w w' := by
  cases h with
  | call henv h => exact counts_of_exec hr h
  | failed henv h => exact .refl w
  | direct hd h => exact .of_frame rfl rfl
  | outside => exact .of_frame rfl rfl

theorem counts_of_run (hr : Registered w₀) (h : Run (Step here) w₀ as w) :
    Counts (as.flatMap Action.requests).length w₀ w := by
  induction h with
  | nil => exact .refl _
  | snoc hrun hstep ih =>
      obtain ⟨hr', -⟩ := registered_of_run hrun hr
      have hcounts := ih.trans (counts_of_step hr' hstep)
      rw [List.flatMap_append, List.flatMap_singleton, List.length_append]
      exact hcounts

/-- **The counts by token.**  After a run of a fresh factory, the count of every token is the number of
streams created with it, and the counts add up to the counter of all streams, if and only if no stream
has been created. -/
theorem tokenCounts_of_run (hfresh : Fresh w₀) (hrun : Run (Step here) w₀ as w) :
    ((∀ t, (deployedStreamCountByToken w.factory t).val =
        (as.flatMap Action.requests).countP fun p => p.token = t) ∧
      ∑ᶠ t, (deployedStreamCountByToken w.factory t).val = (streamCount w.factory).val) ↔
    ∀ a ∈ as, a.requests = [] := by
  have hcounts := counts_of_run (registered_of_fresh hfresh) hrun
  obtain ⟨hash, governor, tokens, hinit⟩ := hfresh
  simp only [initializeFactory, bind_eq_ok, pure_eq_ok] at hinit
  obtain ⟨-, -, -, -, -, -, rfl⟩ := hinit
  have hzero : ∀ t, (deployedStreamCountByToken w.factory t).val = 0 := by
    intro t
    unfold deployedStreamCountByToken
    rw [hcounts.byToken]
    rfl
  rw [← List.flatMap_eq_nil_iff]
  constructor
  · rintro ⟨htoken, -⟩
    refine List.eq_nil_iff_forall_not_mem.mpr fun p hp => ?_
    have hcount := htoken p.token
    rw [hzero] at hcount
    have hpos : 0 < (as.flatMap Action.requests).countP fun q => q.token = p.token :=
      List.countP_pos_iff.mpr ⟨p, hp, decide_eq_true rfl⟩
    omega
  · intro hnone
    have htotal := hcounts.total
    rw [hnone] at htotal ⊢
    refine ⟨fun t => hzero t, ?_⟩
    rw [finsum_congr hzero, finsum_zero, htotal]
    rfl

end

/-- One stream created, and none counted. -/
theorem created_uncounted :
    Fresh Sample.opened ∧ Run (Step Sample.env.contract) Sample.opened
      [.call Sample.deployer Sample.env (.createStream Sample.request none)] Sample.registered ∧
    (deployedStreamCountByToken Sample.registered.factory Sample.request.token).val = 0 ∧
    ([.call Sample.deployer Sample.env (.createStream Sample.request none)].flatMap
      Action.requests).countP (fun p => p.token = Sample.request.token) = 1 ∧
    (streamCount Sample.registered.factory).val = 1 :=
  ⟨Sample.fresh_opened, Run.snoc (.nil _) (Sample.step_next (by decide +kernel)), by decide +kernel,
    by decide +kernel, by decide +kernel⟩

theorem tokenCounts_of_run_read :
    (∀ t, (deployedStreamCountByToken (Sample.next Sample.opened .isPaused).factory t).val = 0) ∧
      ∑ᶠ t, (deployedStreamCountByToken (Sample.next Sample.opened .isPaused).factory t).val =
        (streamCount (Sample.next Sample.opened .isPaused).factory).val := by
  have hrun : Run (Step Sample.env.contract) Sample.opened
      [.call Sample.deployer Sample.env .isPaused] (Sample.next Sample.opened .isPaused) :=
    Run.snoc (.nil _) (Sample.step_next (by decide +kernel))
  exact (tokenCounts_of_run Sample.fresh_opened hrun).mpr (by simp [Action.requests, Call.requests])

end Drip.Factory
