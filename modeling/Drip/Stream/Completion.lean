import Drip.Stream.Announced

/-!
# Stream — Completion

The `stream_completed` event over the whole history of a stream.  Its readers take it for the end:
`Final` says that neither a withdrawal nor a second completion follows one, `Completes` that a step
announces it only once a bounded stream is over and all of it has been withdrawn.

The code goes by the balance a withdrawal leaves and by a flag that nothing clears.  `Closing` is the
condition on the withdrawals under which that comes to the same (`completion_of_run`).
-/

namespace Drip.Stream
open Chain

variable {env : Env} {here : Address} {m m' m₀ : Moment} {a : Action} {as : List Action}
variable {s s' : State} {info info' : StreamInfo} {c : Call} {args : InitArgs} {log es : List Event}
variable {amount x total remaining : I128}

/-! ### A log with an end -/

def Event.isCompletion : Event → Bool
  | .streamCompleted .. => true
  | _ => false

def Event.isWithdrawal : Event → Bool
  | .withdrawn .. => true
  | _ => false

/-- No withdrawal and no completion follow a completion. -/
def Final (log : List Event) : Prop :=
  log.Pairwise fun e e' => e.isCompletion = true → e'.isCompletion = false ∧ e'.isWithdrawal = false

/-- Neither a completion nor a withdrawal. -/
def Quiet (es : List Event) : Prop := ∀ e ∈ es, e.isCompletion = false ∧ e.isWithdrawal = false

/-- The completion has been announced. -/
def Ended (log : List Event) : Prop := ∃ e ∈ log, e.isCompletion = true

instance (log : List Event) : Decidable (Final log) := inferInstanceAs (Decidable (List.Pairwise _ log))

instance (log : List Event) : Decidable (Ended log) :=
  inferInstanceAs (Decidable (∃ e ∈ log, e.isCompletion = true))

theorem ended_append : Ended (log ++ es) ↔ Ended log ∨ Ended es := by
  simp only [Ended, List.mem_append, or_and_right, exists_or]

theorem Quiet.not_ended (h : Quiet es) : ¬ Ended es := by
  rintro ⟨e, he, hc⟩
  rw [(h e he).1] at hc
  cases hc

/-- A quiet addition may follow anything. -/
theorem final_append_quiet (h : Quiet es) : Final (log ++ es) ↔ Final log := by
  unfold Final
  rw [List.pairwise_append]
  constructor
  · exact fun h => h.1
  · intro hlog
    refine ⟨hlog, ?_, fun e _ e' he' _ => h e' he'⟩
    exact List.pairwise_of_forall_mem_list fun e _ e' he' _ => h e' he'

/-- A log without a completion goes on as it likes. -/
theorem final_append (h : ¬ Ended log) : Final (log ++ es) ↔ Final es := by
  have hnot : ∀ e ∈ log, e.isCompletion ≠ true := fun e he hc => h ⟨e, he, hc⟩
  unfold Final
  rw [List.pairwise_append]
  constructor
  · exact fun h => h.2.1
  · intro hes
    refine ⟨?_, hes, fun e he e' _ hc => absurd hc (hnot e he)⟩
    exact List.pairwise_of_forall_mem_list fun e he e' _ hc => absurd hc (hnot e he)

/-- After the end, a withdrawal breaks it. -/
theorem not_final_of_withdrawal (h : Ended log) {e : Event} (he : e ∈ es) (hw : e.isWithdrawal = true) :
    ¬ Final (log ++ es) := by
  obtain ⟨e₀, he₀, hc⟩ := h
  intro hfinal
  have hnot := ((List.pairwise_append.mp hfinal).2.2 e₀ he₀ e he hc).2
  rw [hw] at hnot
  cases hnot

/-! ### What the calls announce about it -/

theorem cliffNotice_quiet : Quiet (cliffNotice env s info) := by
  unfold cliffNotice
  intro e he
  split at he
  · split at he
    · rw [List.mem_singleton] at he
      subst he
      exact ⟨rfl, rfl⟩
    · cases he
  · cases he

/-- Only a withdrawal announces a withdrawal or a completion. -/
theorem quiet_of_announces (h : c.Announces env s info es) (hc : ∀ amount, c ≠ .withdraw amount) :
    Quiet es := by
  have hq : ∀ e : Event, e.isCompletion = false ∧ e.isWithdrawal = false → Quiet [e] := by
    intro e he e' he'
    rw [List.mem_singleton] at he'
    rw [he']
    exact he
  unfold Call.Announces at h
  cases c with
  | initializeStream args => exact h.elim
  | withdraw amount => exact absurd rfl (hc amount)
  | setOperator caller op =>
      subst h
      intro e he
      split at he
      · cases he
      · rw [List.mem_append] at he
        rcases he with he | he
        · split at he
          · rw [List.mem_singleton] at he
            subst he
            exact ⟨rfl, rfl⟩
          · cases he
        · rw [List.mem_singleton] at he
          subst he
          exact ⟨rfl, rfl⟩
  | setAutoForwardAddress | setStreamTitle | setReferenceTag | setInvoiceMetadataUri
  | setMilestoneMetadataUri | setStreamConfig | isEmergencyPaused =>
      subst h
      intro e he
      cases he
  | resume | changeRate | setCliff | transferRecipient | setSplitRecipient | removeSplitRecipient
  | revokeOperator | setMinWithdrawalInterval | emergencyPause | emergencyUnpause
  | configureKeeperRewardPool =>
      subst h
      exact hq _ ⟨rfl, rfl⟩
  | clawback | topUp | pause | fundKeeperRewardPool | withdrawKeeperRewardPool | keeperPing =>
      obtain ⟨_, rfl⟩ := h
      exact hq _ ⟨rfl, rfl⟩
  | cancel | forceCancel | extendDuration =>
      obtain ⟨_, _, rfl⟩ := h
      exact hq _ ⟨rfl, rfl⟩
  | topUpAndExtend =>
      obtain ⟨_, _, _, rfl⟩ := h
      exact hq _ ⟨rfl, rfl⟩

/-- Only a withdrawal writes the flag. -/
theorem flag_of_wrote (h : Wrote env c s info s' info') (hc : ∀ amount, c ≠ .withdraw amount)
    (hi : ∀ args, c ≠ .initializeStream args) :
    s'.store.streamCompleted = s.store.streamCompleted := by
  have hw := congrArg Storage.streamCompleted h.write
  rw [hw]
  cases c with
  | initializeStream args => exact absurd rfl (hi args)
  | withdraw amount => exact absurd rfl (hc amount)
  | _ => rfl

/-! ### The end of a stream -/

/-- A bounded stream past its end, all of it withdrawn. -/
def Over (m : Moment) : Prop :=
  Holds (fun info m => 0 < info.endTime.val ∧ info.endTime.val ≤ m.clock.val ∧
    (scheduleOf info m.state.store).value m.clock.val ≤ info.withdrawn.val) m

/-- A step that announces the completion leaves a stream that is over. -/
def Completes (m m' : Moment) : Prop :=
  ∀ es, m'.state.log = m.state.log ++ es → Ended es → Over m'

/-- A withdrawal that takes all that the stream holds comes past the end of a bounded stream that holds
what is owed; once the completion is flagged, nothing is owed or nothing is held. -/
def Closing (here : Address) (m : Moment) (a : Action) : Prop :=
  ∀ env amount info, a = .call env (.withdraw amount) → m.state.store.config = some info →
    let e := escrowOf here info m.state
    let now := env.timestamp.val
    (m.state.store.streamCompleted = none → e.balance ≤ amount.val → e.balance ≤ e.owed now →
      0 < info.endTime.val ∧ info.endTime.val ≤ now ∧ e.owed now ≤ e.balance) ∧
    (m.state.store.streamCompleted ≠ none → e.owed now = 0 ∨ e.balance = 0)

/-- The flag tells whether the completion has been announced. -/
def Marked (s : State) : Prop := s.store.streamCompleted = none ↔ ¬ Ended s.log

theorem ended_completionNotice {held : I128} :
    Ended (completionNotice s info held remaining total) ↔
      completionNotice s info held remaining total ≠ [] := by
  unfold completionNotice
  split
  · simp [Ended, Event.isCompletion]
  · simp [Ended]

/-- What a withdrawal adds to the log ends it exactly when the withdrawal completes. -/
theorem ended_withdrawal {held : I128} :
    Ended (.withdrawn info.recipient x total remaining :: (cliffNotice env s info ++
      completionNotice s info held remaining total)) ↔
      completionNotice s info held remaining total ≠ [] := by
  have hfirst : ¬ Ended [Event.withdrawn info.recipient x total remaining] := by
    simp [Ended, Event.isCompletion]
  have hcliff : ¬ Ended (cliffNotice env s info) := cliffNotice_quiet.not_ended
  rw [← List.singleton_append, ended_append, ended_append, or_iff_right hfirst,
    or_iff_right hcliff, ended_completionNotice]

/-- A completion is the last event of its withdrawal. -/
theorem final_withdrawal {held : I128} :
    Final (.withdrawn info.recipient x total remaining :: (cliffNotice env s info ++
      completionNotice s info held remaining total)) := by
  have hfirst : ¬ Ended [Event.withdrawn info.recipient x total remaining] := by
    simp [Ended, Event.isCompletion]
  rw [← List.singleton_append, final_append hfirst, final_append cliffNotice_quiet.not_ended]
  unfold completionNotice
  split
  · exact List.pairwise_singleton _ _
  · exact .nil

theorem marked_of_exec (hi : s.store.config = some info) (hw : 0 ≤ info.withdrawn.val)
    (h : exec env s c = .ok s') (hm : Marked s) : Marked s' := by
  unfold Marked at hm ⊢
  by_cases hc : ∃ amount, c = .withdraw amount
  · obtain ⟨amount, rfl⟩ := hc
    obtain ⟨x, total, remaining, hwd⟩ := withdrew_of_exec hi hw h
    rw [hwd.flag, hwd.log, ended_append, ended_withdrawal, hm, not_or, not_not]
  · have hc : ∀ amount, c ≠ .withdraw amount := fun amount he => hc ⟨amount, he⟩
    obtain ⟨info', hwrote⟩ := wrote_of_exec hi h
    obtain ⟨es, hlog, ha⟩ := announced_of_exec hi hw h
    have hinit : ∀ args, c ≠ .initializeStream args := by
      rintro args rfl
      exact ha
    have hq := (quiet_of_announces ha hc).not_ended
    rw [flag_of_wrote hwrote hc hinit, hm, hlog, ended_append, or_iff_left hq]

/-- A withdrawal completes when it is the first to leave nothing. -/
theorem Withdrew.completes_iff (h : Withdrew env s info amount s' x total remaining) :
    completionNotice s info (s.balance info.token env.contract) remaining total ≠ [] ↔
      s.store.streamCompleted = none ∧ x.val = (s.balance info.token env.contract).val := by
  have hrest := h.rest
  have hpos := h.pos
  unfold completionNotice
  constructor
  · intro hne
    by_cases hc : remaining.val = 0 ∧ (0 < info.endTime.val ∨
        0 < (s.balance info.token env.contract).val) ∧ s.store.streamCompleted = none
    · exact ⟨hc.2.2, by omega⟩
    · exact absurd (if_neg hc) hne
  · rintro ⟨hflag, hx⟩
    rw [if_pos ⟨by omega, .inr (by omega), hflag⟩]
    exact List.cons_ne_nil _ _

/-- What a withdrawal adds to the log ends it when it is the first to leave nothing. -/
theorem Withdrew.ended_iff (h : Withdrew env s info amount s' x total remaining) :
    Ended (.withdrawn info.recipient x total remaining :: (cliffNotice env s info ++
      completionNotice s info (s.balance info.token env.contract) remaining total)) ↔
      s.store.streamCompleted = none ∧ x.val = (s.balance info.token env.contract).val :=
  ended_withdrawal.trans h.completes_iff

theorem Withdrew.paid_eq (hs : Sound env.contract s info env.timestamp.val)
    (h : Withdrew env s info amount s' x total remaining) :
    x.val = (escrowOf env.contract info s).payout env.timestamp.val amount.val := by
  obtain ⟨v, hv, hx⟩ := h.paid
  rw [hx, value_of_streamedAmount hs.valid hv]
  rfl

/-- The stream after a withdrawal that leaves nothing. -/
theorem over_of_withdrawal (hs : Sound env.contract s info env.timestamp.val)
    (h : exec env s (.withdraw amount) = .ok s') :
    Over ⟨s', env.timestamp⟩ ↔ 0 < info.endTime.val ∧ info.endTime.val ≤ env.timestamp.val ∧
      (escrowOf env.contract info s).owed env.timestamp.val ≤
        (escrowOf env.contract info s).payout env.timestamp.val amount.val := by
  obtain ⟨info', kept, heffect⟩ := effect_of_exec hs h
  obtain ⟨info₁, hwrote⟩ := wrote_of_exec hs.config h
  obtain rfl := Option.some.inj (heffect.sound.config.symm.trans hwrote.config)
  have hend : info'.endTime = info.endTime := (congrArg StreamInfo.endTime hwrote.rewrite).trans rfl
  have hschedule : scheduleOf info' s'.store = scheduleOf info s.store := heffect.schedule
  have hwithdrawn : info'.withdrawn.val = info.withdrawn.val +
      (escrowOf env.contract info s).payout env.timestamp.val amount.val :=
    congrArg Escrow.withdrawn heffect.escrow
  have hv := heffect.sound.config
  have howed : (escrowOf env.contract info s).owed env.timestamp.val =
      max ((scheduleOf info s.store).value env.timestamp.val - info.withdrawn.val) 0 := rfl
  have hpos : 0 < (escrowOf env.contract info s).payout env.timestamp.val amount.val :=
    heffect.allows.2.1
  constructor
  · rintro ⟨info₂, hi₂, hover⟩
    obtain rfl := Option.some.inj (hi₂.symm.trans hv)
    rw [hend, hschedule, hwithdrawn] at hover
    dsimp only at hover
    omega
  · rintro ⟨hpos, hle, howed_le⟩
    refine ⟨info', hv, ?_⟩
    dsimp only
    rw [hend, hschedule, hwithdrawn]
    omega

/-- Whether a step announces the completion is read off what it added to the log. -/
theorem completes_iff (hlog : m'.state.log = m.state.log ++ es) :
    Completes m m' ↔ (Ended es → Over m') := by
  constructor
  · exact fun h => h es hlog
  · intro h es' hlog' hended
    obtain rfl := List.append_cancel_left (hlog.symm.trans hlog')
    exact h hended

/-- A step that adds nothing about the end keeps it. -/
theorem final_of_quiet (hlog : m'.state.log = m.state.log ++ es) (hq : Quiet es)
    (hfinal : Final m.state.log) : Final m'.state.log ∧ Completes m m' := by
  rw [completes_iff hlog, hlog, final_append_quiet hq]
  exact ⟨hfinal, fun h => absurd h hq.not_ended⟩

theorem closing_of_withdrawal (hs : Sound env.contract m.state info env.timestamp.val)
    (hmark : Marked m.state) (h : exec env m.state (.withdraw amount) = .ok s') :
    Final s'.log ∧ Completes m ⟨s', env.timestamp⟩ ↔
      Closing env.contract m (.call env (.withdraw amount)) := by
  obtain ⟨x, total, remaining, hwd⟩ := withdrew_of_exec hs.config hs.withdrawn_nonneg h
  have hx := hwd.paid_eq hs
  have hpos := hwd.pos
  unfold Escrow.payout at hx
  -- the condition, of this withdrawal
  have hclosing : Closing env.contract m (.call env (.withdraw amount)) ↔
      let e := escrowOf env.contract info m.state
      let now := env.timestamp.val
      (m.state.store.streamCompleted = none → e.balance ≤ amount.val → e.balance ≤ e.owed now →
        0 < info.endTime.val ∧ info.endTime.val ≤ now ∧ e.owed now ≤ e.balance) ∧
      (m.state.store.streamCompleted ≠ none → e.owed now = 0 ∨ e.balance = 0) := by
    constructor
    · exact fun hc => hc env amount info rfl hs.config
    · rintro hc _ _ info₁ ⟨⟩ hi₁
      obtain rfl := Option.some.inj (hi₁.symm.trans hs.config)
      exact hc
  rw [hclosing]
  by_cases hflag : m.state.store.streamCompleted = none
  · -- not announced yet: the withdrawal announces it where it leaves nothing
    have hnot := hmark.mp hflag
    have hcompletes : Completes m ⟨s', env.timestamp⟩ ↔ _ := completes_iff hwd.log
    rw [hwd.ended_iff, and_iff_right hflag, over_of_withdrawal hs h] at hcompletes
    rw [hcompletes, hwd.log, final_append hnot, and_iff_right final_withdrawal]
    have hheld : (m.state.balance info.token env.contract).val =
      (escrowOf env.contract info m.state).balance := rfl
    rw [hheld, Escrow.payout]
    constructor
    · intro hx'
      refine ⟨fun _ hamount howed => ?_, fun hne => absurd hflag hne⟩
      obtain ⟨hend, hle, hall⟩ := hx' (by omega)
      exact ⟨hend, hle, by omega⟩
    · rintro ⟨hc, -⟩ hx'
      obtain ⟨hend, hle, hall⟩ := hc hflag (by omega) (by omega)
      exact ⟨hend, hle, by omega⟩
  · -- the completion has been announced: no withdrawal may follow it
    have hended : Ended m.state.log := by
      by_contra hno
      exact hflag (hmark.mpr hno)
    refine iff_of_false (fun hc => ?_) (fun hc => ?_)
    · refine not_final_of_withdrawal hended List.mem_cons_self rfl (hwd.log ▸ hc.1)
    · have hzero := hc.2 hflag
      omega

theorem closing_of_step (hs : Sound here m.state info m.clock.val) (hmark : Marked m.state)
    (hfinal : Final m.state.log) (hstep : Step here m a m') :
    Final m'.state.log ∧ Completes m m' ↔ Closing here m a := by
  cases hstep with
  | outside h =>
      have hquiet : Quiet [] := fun e he => by cases he
      refine iff_of_true (final_of_quiet (List.append_nil _).symm hquiet hfinal) ?_
      intro env amount info' ha
      cases ha
  | call henv hclock h =>
      rename_i env c s'
      subst henv
      have hs := hs.wait hclock
      by_cases hc : ∃ amount, c = .withdraw amount
      · obtain ⟨amount, rfl⟩ := hc
        exact closing_of_withdrawal hs hmark h
      · have hc : ∀ amount, c ≠ .withdraw amount := fun amount he => hc ⟨amount, he⟩
        obtain ⟨es, hlog, ha⟩ := announced_of_exec hs.config hs.withdrawn_nonneg h
        refine iff_of_true (final_of_quiet hlog (quiet_of_announces ha hc) hfinal) ?_
        intro env amount info' ha
        cases ha
        exact absurd rfl (hc amount)

/-- A new stream has announced neither. -/
theorem marked_of_born (h : Born here args m) : Marked m.state ∧ Final m.state.log := by
  obtain ⟨hlog, hflag⟩ := log_of_born h
  have hnot : ¬ Ended m.state.log := by
    rw [hlog]
    simp [Ended, Event.isCompletion]
  rw [Final, hlog]
  exact ⟨iff_of_true hflag hnot, List.pairwise_singleton _ _⟩

/-- **The end of a stream.**  Along a run the completion comes at the end of a bounded stream, all of
it withdrawn, and no withdrawal and no completion follow, exactly if each of its withdrawals closes. -/
theorem completion_of_run (hborn : Born here args m₀) :
    (Run (fun m a m' => Step here m a m' ∧ Final m'.state.log ∧ Completes m m') m₀ as m ↔
      Run (fun m a m' => Step here m a m' ∧ Closing here m a) m₀ as m) ∧
    (Run (fun m a m' => Step here m a m' ∧ Closing here m a) m₀ as m → Final m.state.log) := by
  have hmarked : ∀ m a m', Step here m a m' →
      (∃ info, Sound here m.state info m.clock.val) ∧ Marked m.state →
      (∃ info, Sound here m'.state info m'.clock.val) ∧ Marked m'.state := by
    rintro m a m' hstep ⟨⟨info, hs⟩, hm⟩
    obtain ⟨info', hs', -⟩ := hs.run ((Run.nil m).snoc hstep)
    refine ⟨⟨info', hs'⟩, ?_⟩
    cases hstep with
    | outside h => exact hm
    | call henv hclock h => exact marked_of_exec hs.config hs.withdrawn_nonneg h hm
  have hiff : ∀ m a m', Step here m a m' →
      (∃ info, Sound here m.state info m.clock.val) ∧ Marked m.state → Final m.state.log →
      (Final m'.state.log ∧ Completes m m' ↔ Closing here m a) := by
    rintro m a m' hstep ⟨⟨info, hs⟩, hm⟩ hfinal
    exact closing_of_step hs hm hfinal hstep
  obtain ⟨hmark, hfinal⟩ := marked_of_born hborn
  have hQ : (∃ info, Sound here m₀.state info m₀.clock.val) ∧ Marked m₀.state :=
    ⟨⟨_, sound_of_born hborn⟩, hmark⟩
  exact Run.keeps_and_spec (P := fun m : Moment => Final m.state.log)
    (Q := fun m : Moment => (∃ info, Sound here m.state info m.clock.val) ∧ Marked m.state)
    hmarked hiff hQ hfinal

/-- All of a stream withdrawn after its end: completed, and then over. -/
theorem completion_of_run_closing :
    let m := Sample.next (Sample.born Sample.args) (.lit 1200) (.withdraw (.lit 10000))
    Final m.state.log ∧ Ended m.state.log := by
  intro m
  have hborn : Born Sample.address Sample.args (Sample.born Sample.args) :=
    Sample.born_of_initialize (by decide +kernel)
  have hstep : Step Sample.address (Sample.born Sample.args)
      (.call (Sample.envAt (.lit 1200)) (.withdraw (.lit 10000))) m :=
    Sample.step_next (by decide) (by decide +kernel)
  refine ⟨(completion_of_run hborn).2 (Run.snoc (.nil _) ⟨hstep, ?_⟩), by decide +kernel⟩
  rintro env amount info ⟨⟩ hi
  obtain rfl : Sample.infoOf (Sample.born Sample.args).state = info := by
    unfold Sample.infoOf
    rw [hi]
    rfl
  exact ⟨fun _ _ _ => by decide +kernel, fun hne => absurd (by decide +kernel) hne⟩

/-- Half of a stream is clawed back; the rest, withdrawn at once, completes the stream long before its
end; then it is topped up and withdrawn from again. -/
theorem completed_before_end :
    let calls : List (U64 × Call) := [(.lit 600, .clawback Sample.sender),
      (.lit 600, .withdraw (.lit 10000)), (.lit 700, .topUp Sample.sender (.lit 1000)),
      (.lit 700, .withdraw (.lit 10000))]
    let early := Sample.reached Sample.args (calls.take 2)
    let later := Sample.reached Sample.args calls
    Born Sample.address Sample.args (Sample.born Sample.args) ∧
      Run (Step Sample.address) (Sample.born Sample.args) (Sample.actions calls) later ∧
      Ended early.state.log ∧ early.clock.val < (Sample.infoOf early.state).endTime.val ∧
      ¬ Final later.state.log := by
  intro calls early later
  exact ⟨Sample.born_of_initialize (by decide +kernel), Sample.run_reached (by decide +kernel),
    by decide +kernel, by decide +kernel, by decide +kernel⟩

end Drip.Stream
