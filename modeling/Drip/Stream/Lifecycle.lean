import Drip.Stream.Announced

/-!
# Stream — Lifecycle

The flags and the recipient of a stream, call by call, beside the events that tell of them.

* `Event.IsQuiet`: an event that no reader of the lifecycle needs.
* `Turn info info' c es`: what the call makes of the flags and the recipient, and what it announces.
* `turn_of_exec`: every successful call takes such a turn.
-/

namespace Drip.Stream
open Chain

variable {env : Env} {s s' : State} {info info' : StreamInfo} {c : Call} {e : Event} {es : List Event}

/-- An event that tells nothing of the lifecycle. -/
def Event.IsQuiet : Event → Bool
  | .withdrawn .. | .cancelled .. | .forceCancelled .. | .paused .. | .resumed .. | .toppedUp ..
  | .clawback .. | .recipientTransferred .. => false
  | _ => true

/-- The calls that start the stream, or announce an event of its lifecycle. -/
def Call.IsLoud : Call → Bool
  | .initializeStream _ | .withdraw _ | .cancel _ | .forceCancel | .clawback _ | .topUp ..
  | .extendDuration .. | .pause _ | .resume _ | .transferRecipient _ => true
  | _ => false

/-- The flags and the recipient are as they were. -/
structure Unaltered (info info' : StreamInfo) : Prop where
  cancelled : info'.isCancelled = info.isCancelled
  paused : info'.isPaused = info.isPaused
  recipient : info'.recipient = info.recipient

/-- The flags and the recipient after the call, and the events it announced. -/
inductive Turn (info info' : StreamInfo) : Call → List Event → Prop where
  | quiet {c : Call} {es : List Event} (hc : c.IsLoud = false) (hes : ∀ e ∈ es, e.IsQuiet = true)
      (h : Unaltered info info') : Turn info info' c es
  | withdraw {amount : I128} {recipient : Address} {x total remaining : I128} {rest : List Event}
      (hrest : ∀ e ∈ rest, e.IsQuiet = true) (h : Unaltered info info') :
      Turn info info' (.withdraw amount) (.withdrawn recipient x total remaining :: rest)
  | topUp {caller : Address} {amount x b : I128} (h : Unaltered info info') :
      Turn info info' (.topUp caller amount) [.toppedUp caller x b]
  | extendDuration {caller : Address} {extra : U64} {x b : I128} (h : Unaltered info info') :
      Turn info info' (.extendDuration caller extra) [.toppedUp caller x b]
  | pause {caller : Address} {now : U64} {w : I128} (hc : info'.isCancelled = info.isCancelled)
      (hp : info'.isPaused = true) (hr : info'.recipient = info.recipient) :
      Turn info info' (.pause caller) [.paused caller now w]
  | resume {caller : Address} {now : U64} (hc : info'.isCancelled = info.isCancelled)
      (hp : info'.isPaused = false) (hr : info'.recipient = info.recipient) :
      Turn info info' (.resume caller) [.resumed caller now]
  | cancel {caller sender : Address} {refund total rest : I128} (hc : info'.isCancelled = true)
      (hr : info'.recipient = info.recipient) :
      Turn info info' (.cancel caller) [.cancelled sender refund total rest]
  | forceCancel {sender : Address} {refund total rest : I128} (hpaused : info.isPaused = true)
      (hc : info'.isCancelled = true) (hr : info'.recipient = info.recipient) :
      Turn info info' .forceCancel [.forceCancelled sender refund total rest]
  | clawback {caller : Address} {x : I128} (h : Unaltered info info') :
      Turn info info' (.clawback caller) [.clawback caller x]
  | transferRecipient {r old : Address} (hc : info'.isCancelled = info.isCancelled)
      (hp : info'.isPaused = info.isPaused) (hr : info'.recipient = r) :
      Turn info info' (.transferRecipient r) [.recipientTransferred old r]

/-- The three as the call wrote them. -/
theorem unaltered_of_wrote (h : Wrote env c s info s' info') : Unaltered (c.rewrite env info info') info' where
  cancelled := (congrArg StreamInfo.isCancelled h.rewrite).trans rfl
  paused := (congrArg StreamInfo.isPaused h.rewrite).trans rfl
  recipient := (congrArg StreamInfo.recipient h.rewrite).trans rfl

theorem Unaltered.trans {info₁ : StreamInfo} (h : Unaltered info info₁) (h' : Unaltered info₁ info') :
    Unaltered info info' :=
  ⟨h'.cancelled.trans h.cancelled, h'.paused.trans h.paused, h'.recipient.trans h.recipient⟩

theorem cliffNotice_isQuiet : ∀ e ∈ cliffNotice env s info, e.IsQuiet = true := by
  intro e he
  unfold cliffNotice at he
  split at he
  · split at he
    · obtain rfl := List.mem_singleton.mp he
      rfl
    · cases he
  · cases he

theorem completionNotice_isQuiet {balance remaining total : I128} :
    ∀ e ∈ completionNotice s info balance remaining total, e.IsQuiet = true := by
  intro e he
  unfold completionNotice at he
  split at he
  · obtain rfl := List.mem_singleton.mp he
    rfl
  · cases he

theorem quiet_of_announced (hc : c.IsLoud = false) (h : c.Announces env s info es) :
    ∀ e ∈ es, e.IsQuiet = true := by
  cases c with
  | initializeStream | withdraw | cancel | forceCancel | clawback | topUp | extendDuration | pause
  | resume | transferRecipient => cases hc
  | topUpAndExtend =>
      obtain ⟨_, _, _, rfl⟩ := h
      simp [Event.IsQuiet]
  | setOperator caller op =>
      obtain rfl : es = _ := h
      intro e he
      split at he
      · cases he
      · split at he <;> simp at he <;> rcases he with rfl | rfl <;> rfl
  | fundKeeperRewardPool | withdrawKeeperRewardPool | keeperPing =>
      obtain ⟨_, rfl⟩ := h
      simp [Event.IsQuiet]
  | _ =>
      obtain rfl : es = _ := h
      simp [Event.IsQuiet]

theorem unaltered_of_quiet (hc : c.IsLoud = false) : Unaltered info (c.rewrite env info info') := by
  cases c with
  | initializeStream | withdraw | cancel | forceCancel | clawback | topUp | extendDuration | pause
  | resume | transferRecipient => cases hc
  | _ => exact ⟨rfl, rfl, rfl⟩

theorem outlives_of_loud (h : c.IsLoud = true) : c.OutlivesCancellation = false := by
  cases c <;> first | rfl | cases h

/-- Every successful call takes its turn, and the loud ones are made on a live stream. -/
theorem turn_of_exec (hi : s.store.config = some info) (hw : 0 ≤ info.withdrawn.val)
    (h : exec env s c = .ok s') : ∃ info' es, s'.store.config = some info' ∧ s'.log = s.log ++ es ∧
      Turn info info' c es ∧ (c.IsLoud = true → info.isCancelled = false) := by
  obtain ⟨es, hlog, hann⟩ := announced_of_exec hi hw h
  obtain ⟨info', hwrote⟩ := wrote_of_exec hi h
  refine ⟨info', es, hwrote.config, hlog, ?_, fun hloud => not_cancelled_of_exec hi (outlives_of_loud hloud) h⟩
  have hmoved := unaltered_of_wrote hwrote
  cases c with
  | withdraw amount =>
      obtain ⟨x, total, remaining, -, rfl⟩ := hann
      refine .withdraw (fun e he => ?_) ⟨hmoved.cancelled, hmoved.paused, hmoved.recipient⟩
      rcases List.mem_append.mp he with he | he
      · exact cliffNotice_isQuiet e he
      · exact completionNotice_isQuiet e he
  | topUp caller amount =>
      obtain ⟨b, rfl⟩ := hann
      exact .topUp hmoved
  | extendDuration caller extra =>
      obtain ⟨x, b, rfl⟩ := hann
      exact .extendDuration ⟨hmoved.cancelled, hmoved.paused, hmoved.recipient⟩
  | pause caller =>
      obtain ⟨w, rfl⟩ := hann
      exact .pause (hmoved.cancelled.trans (StreamInfo.isCancelled_markPaused info))
        (hmoved.paused.trans (StreamInfo.isPaused_markPaused info)) hmoved.recipient
  | resume caller =>
      obtain rfl : es = _ := hann
      exact .resume (hmoved.cancelled.trans (StreamInfo.isCancelled_markResumed info))
        (hmoved.paused.trans (StreamInfo.isPaused_markResumed info)) hmoved.recipient
  | cancel caller =>
      obtain ⟨refund, total, rfl⟩ := hann
      exact .cancel (hmoved.cancelled.trans (StreamInfo.isCancelled_markCancelled info)) hmoved.recipient
  | forceCancel =>
      obtain ⟨refund, total, rfl⟩ := hann
      exact .forceCancel (settle_of_forceCancel hi h).1
        (hmoved.cancelled.trans (StreamInfo.isCancelled_markCancelled info)) hmoved.recipient
  | clawback caller =>
      obtain ⟨x, rfl⟩ := hann
      exact .clawback hmoved
  | transferRecipient r =>
      obtain rfl : es = _ := hann
      exact .transferRecipient hmoved.cancelled hmoved.paused hmoved.recipient
  | initializeStream args => exact hann.elim
  | _ => exact .quiet rfl (quiet_of_announced rfl hann) ((unaltered_of_quiet rfl).trans hmoved)

theorem initialInfo_not_cancelled (args : InitArgs) : (initialInfo args).isCancelled = false := by
  show (((if args.clawbackEnabled then flagClawbackEnabled else 0)
    ||| (if args.isRegulatedAsset then flagRegulatedAsset else 0)) &&& flagCancelled != 0) = false
  cases args.clawbackEnabled <;> cases args.isRegulatedAsset <;> decide

end Drip.Stream
