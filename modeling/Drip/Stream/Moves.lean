import Drip.Stream.Payouts

/-!
# Stream — Moves

What the entry points that rewrite the schedule do to it: `pause`, `resume`, `change_rate` and
`set_cliff` each make the move of `Schedule.lean` of the same name, having passed the checks
`Schedule.Allows` lists (`pause_moves`, `resume_moves`, `changeRate_moves`, `setCliff_moves`).
-/

namespace Drip.Stream
open Chain

variable {env : Env} {s s' : State} {info info' : StreamInfo} {st : Storage}

/-- The caller of a call only the sender or the operator may make. -/
def IsManager (env : Env) (s : State) (info : StreamInfo) : Prop :=
  ∃ caller, (caller = info.sender ∨ s.store.operator = some caller) ∧ env.authorized caller = true

/-- A call that made the move `m`, and nothing else. -/
structure Rescheduled (env : Env) (s : State) (info : StreamInfo) (m : Move) (s' : State)
    (info' : StreamInfo) : Prop where
  manager : IsManager env s info
  config : s'.store.config = some info'
  sender : info'.sender = info.sender
  token : info'.token = info.token
  withdrawn : info'.withdrawn = info.withdrawn
  cancelled : info'.isCancelled = info.isCancelled
  schedule : scheduleOf info' s'.store = (scheduleOf info s.store).move env.timestamp.val m
  allows : (scheduleOf info s.store).Allows i128Max env.timestamp.val m
  pool : s'.store.keeperRewardPool = s.store.keeperRewardPool
  splitConfig : s'.store.splitConfig = s.store.splitConfig
  operator : s'.store.operator = s.store.operator
  tokens : s'.tokens = s.tokens
  transfers : s'.transfers = s.transfers

/-- The schedule is read from six fields of the config and from two keys. -/
theorem scheduleOf_congr {st st' : Storage} (hr : info'.ratePerSecond = info.ratePerSecond)
    (hs : info'.startTime = info.startTime) (he : info'.endTime = info.endTime)
    (hp : info'.pausedAt = info.pausedAt) (hf : info'.isPaused = info.isPaused)
    (hc : st'.rateCheckpoint = st.rateCheckpoint) (hk : st'.cliffConfig = st.cliffConfig) :
    scheduleOf info' st' = scheduleOf info st := by
  unfold scheduleOf
  rw [hr, hs, he, hp, hf, hc, hk]

/-- A value the code computed is the schedule's. -/
theorem value_of_streamedAmount {now : Int} {v : I128}
    (hq : (scheduleOf info s.store).Valid now) (h : streamedAmount env s info = .ok v) :
    v.val = (scheduleOf info s.store).value env.timestamp.val := by
  rw [streamedAmount_eq hq, asI128_eq_ok] at h
  exact h

theorem value_le_of_streamedAmount {now : Int} {v : I128}
    (hq : (scheduleOf info s.store).Valid now) (h : streamedAmount env s info = .ok v) :
    (scheduleOf info s.store).value env.timestamp.val ≤ i128Max := by
  rw [← value_of_streamedAmount hq h]
  exact v.le

theorem mem_stop {e : Int} :
    e ∈ (scheduleOf info st).stop ↔ 0 < info.endTime.val ∧ info.endTime.val = e := by
  rw [Option.mem_def, stop_eq_some]

/-! ### Pause -/

theorem pause_moves {caller : Address} {now : Int} (hi : s.store.config = some info)
    (hq : (scheduleOf info s.store).Valid now) (h : exec env s (.pause caller) = .ok s') :
    ∃ info', Rescheduled env s info .pause s' info' := by
  simp [exec, pause, pauseBody, hi] at h
  obtain ⟨-, s₁, ⟨-, hp, hman, hstart, hend, w, hw, h₁⟩, rfl⟩ := h
  have hnote := (publish_noted h₁).trans (released_noted s₁)
  obtain ⟨n, hn⟩ := hnote.config rfl
  simp only [withdrawable, bind_eq_ok, pure_eq_ok] at hw
  obtain ⟨v, hv, -⟩ := hw
  refine ⟨_, ⟨caller, hman⟩, hn, rfl, rfl, rfl, info.isCancelled_markPaused, ?_, ?_, hnote.pool,
    hnote.splitConfig, hnote.operator, hnote.tokens, hnote.transfers⟩
  · unfold scheduleOf
    rw [hnote.rateCheckpoint, hnote.cliffConfig]
    ext1 <;> try rfl
    show (if info.markPaused.isPaused = true then _ else _) = _
    rw [info.isPaused_markPaused]
    rfl
  · refine ⟨pausedAt_eq_none.mpr hp, hstart, ?_, value_le_of_streamedAmount hq hv⟩
    intro e he
    obtain ⟨hpos, rfl⟩ := mem_stop.mp he
    exact hend hpos

/-! ### Resume -/

theorem shiftCheckpoint_spec {d : U64} (h : shiftCheckpoint s info d = .ok s') :
    ∃ k, s' = { s with store := { s.store with rateCheckpoint := k } } ∧
      k.map (fun c => (c.at.val, c.accrued.val)) = (s.store.rateCheckpoint.map
        fun c => (c.at.val, c.accrued.val)).map
          fun c => if c.1 ≤ info.pausedAt.val then (c.1 + d.val, c.2) else c := by
  unfold shiftCheckpoint at h
  cases hc : s.store.rateCheckpoint with
  | none =>
      rw [hc] at h
      cases h
      exact ⟨none, by rw [← hc], rfl⟩
  | some c =>
      rw [hc] at h
      dsimp only at h
      split at h
      · rename_i hle
        simp only [bind_eq_ok, okOr_eq_ok, Ranged.checkedAdd_eq_some, pure_eq_ok] at h
        obtain ⟨t, ht, rfl⟩ := h
        refine ⟨_, rfl, ?_⟩
        simp only [Option.map_some, Option.some.injEq]
        rw [if_pos (show c.at.val ≤ info.pausedAt.val from hle), ht]
      · rename_i hle
        cases h
        refine ⟨some c, by rw [← hc], ?_⟩
        simp only [Option.map_some, Option.some.injEq]
        rw [if_neg (show ¬ c.at.val ≤ info.pausedAt.val from hle)]

theorem shiftEndTime_spec {d e : U64} (h : shiftEndTime info d = .ok e) :
    (if e.val = 0 then none else some e.val) =
      (if info.endTime.val = 0 then none else some info.endTime.val).map (· + d.val) := by
  have h0 := info.endTime.ge
  have hd := d.ge
  unfold shiftEndTime at h
  split at h
  · rw [okOr_eq_ok, Ranged.checkedAdd_eq_some] at h
    rw [if_neg (by omega), if_neg (by omega), h]
    rfl
  · cases h
    rw [if_pos (by omega)]
    rfl

theorem resume_moves {caller : Address} (hi : s.store.config = some info)
    (h : exec env s (.resume caller) = .ok s') :
    ∃ info', Rescheduled env s info .resume s' info' := by
  simp [exec, resume, resumeBody, hi] at h
  obtain ⟨-, s₂, ⟨-, hp, hman, d, hd, s₁, h₁, -, st, hst, e, he, h₂⟩, rfl⟩ := h
  obtain ⟨k, rfl, hk⟩ := shiftCheckpoint_spec h₁
  have hnote := (publish_noted h₂).trans (released_noted s₂)
  obtain ⟨n, hn⟩ := hnote.config rfl
  have hpa : (scheduleOf info s.store).pausedAt = some info.pausedAt.val :=
    pausedAt_eq_some.mpr ⟨hp, rfl⟩
  refine ⟨_, ⟨caller, hman⟩, hn, rfl, rfl, rfl, info.isCancelled_markResumed, ?_, ?_, hnote.pool,
    hnote.splitConfig, hnote.operator, hnote.tokens, hnote.transfers⟩
  · rw [Schedule.move, hpa, Option.elim_some, ← hd]
    unfold scheduleOf Schedule.shift
    rw [hnote.rateCheckpoint, hnote.cliffConfig]
    ext1
    · rfl
    · exact hst
    · exact shiftEndTime_spec he
    · show (if info.markResumed.isPaused = true then _ else _) = _
      rw [info.isPaused_markResumed]
      rfl
    · exact hk
    · rfl
  · exact ⟨_, hpa, by have := d.ge; omega⟩

/-! ### The rate -/

theorem checkpointFor_val {v : I128} {now : U64}
    (hv : v.val = (scheduleOf info s.store).value now.val) :
    ((checkpointFor s info (if info.isPaused then info.pausedAt else now) v).at.val,
      (checkpointFor s info (if info.isPaused then info.pausedAt else now) v).accrued.val) =
      (scheduleOf info s.store).checkpointFor now.val := by
  have ht : ((scheduleOf info s.store).pausedAt.getD now.val) =
      (if info.isPaused then info.pausedAt else now : U64).val := by
    unfold scheduleOf
    cases info.isPaused <;> rfl
  have hk : (scheduleOf info s.store).cliff =
      s.store.cliffConfig.map fun c => (c.cliffTime.val, c.cliffUnlockAmount.val) := rfl
  unfold Schedule.checkpointFor checkpointFor
  rw [ht, ← hv, hk]
  generalize (if info.isPaused then info.pausedAt else now : U64) = t
  cases s.store.cliffConfig with
  | none =>
      simp only [Option.map_none, Ranged.lt_def]
      show _ = if _ < info.startTime.val then _ else _
      split <;> rfl
  | some c =>
      simp only [Option.map_some, Ranged.lt_def]
      split <;> rfl

theorem checkObligation_spec {c : RateCheckpoint} {r : I128} {u : Unit}
    (h : checkObligation info c r = .ok u) :
    ∀ e ∈ (scheduleOf info st).stop, c.at.val < e → c.accrued.val + r.val * (e - c.at.val) ≤ i128Max := by
  intro e he hlt
  obtain ⟨hpos, rfl⟩ := mem_stop.mp he
  unfold checkObligation at h
  rw [if_pos ⟨hpos, hlt⟩] at h
  simp only [bind_eq_ok, okOr_eq_ok, Ranged.checkedSub_eq_some, Ranged.checkedMul_eq_some,
    Ranged.checkedAdd_eq_some] at h
  obtain ⟨d, hd, f, hf, t, ht, -⟩ := h
  rw [Ranged.val_widen, hd] at hf
  rw [← hf, ← ht]
  exact t.le

theorem changeRate_moves {caller : Address} {r : I128} {now : Int}
    (hi : s.store.config = some info) (hq : (scheduleOf info s.store).Valid now)
    (h : exec env s (.changeRate caller r) = .ok s') :
    ∃ info', Rescheduled env s info (.changeRate r.val) s' info' := by
  simp [exec, changeRate, changeRateBody, hi] at h
  obtain ⟨-, s₁, ⟨hr, -, hman, hend, v, hv, ⟨u, hob⟩, h₁⟩, rfl⟩ := h
  have hnote := (publish_noted h₁).trans (released_noted s₁)
  obtain ⟨n, hn⟩ := hnote.config rfl
  have hval : v.val = (scheduleOf info s.store).value env.timestamp.val :=
    value_of_streamedAmount hq hv
  have hcp := checkpointFor_val hval
  refine ⟨_, ⟨caller, hman⟩, hn, rfl, rfl, rfl, rfl, ?_, ?_, hnote.pool,
    hnote.splitConfig, hnote.operator, hnote.tokens, hnote.transfers⟩
  · rw [Schedule.move, ← hcp]
    unfold scheduleOf
    rw [hnote.rateCheckpoint, hnote.cliffConfig]
    rfl
  · refine ⟨hr, ?_, value_le_of_streamedAmount hq hv, ?_⟩
    · intro e he
      obtain ⟨hpos, rfl⟩ := mem_stop.mp he
      exact hend hpos
    · rw [← hcp]
      exact checkObligation_spec hob

/-! ### The cliff -/

theorem setCliff_moves {caller : Address} {t : U64} {a : I128} (hi : s.store.config = some info)
    (h : exec env s (.setCliff caller t a) = .ok s') :
    ∃ info', Rescheduled env s info (.setCliff t.val a.val) s' info' := by
  simp [exec, setCliff, setCliffBody, hi] at h
  obtain ⟨-, s₁, ⟨-, hman, ha, ⟨hstart, hend⟩, h₁⟩, rfl⟩ := h
  have hnote := (publish_noted h₁).trans (released_noted s₁)
  obtain ⟨n, hn⟩ := hnote.config rfl
  refine ⟨_, ⟨caller, hman⟩, hn, rfl, rfl, rfl, rfl, ?_, ?_, hnote.pool,
    hnote.splitConfig, hnote.operator, hnote.tokens, hnote.transfers⟩
  · unfold scheduleOf
    rw [hnote.rateCheckpoint, hnote.cliffConfig]
    rfl
  · refine ⟨ha, hstart, ?_⟩
    intro e he
    obtain ⟨hpos, rfl⟩ := mem_stop.mp he
    exact hend hpos

end Drip.Stream
