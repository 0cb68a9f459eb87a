import Mathlib.Data.Set.Card
import Drip.Factory.Registry

/-!
# Factory — Accounting

The count of active streams.  A creation adds one to it.  `record_cancel` takes one from it for a
stream of the factory that is cancelled and not recorded yet; `cancel_batch_streams` takes one for
whatever contract let itself be cancelled and is not recorded yet.

* `Accounted st`: the count is the number of known streams without a recorded cancellation, and only
  known streams have one.
* `accounted_of_step`: a step keeps that exactly when it does not cancel, in a batch, a contract that
  is not a known stream.
* `accounting_of_run`: over runs, with what each step adds and takes.
-/

namespace Drip.Factory
open Chain

section

variable {here : Address} {host : Host} {env : Env} {w w' w₀ : World} {K : Address → Prop}
variable {a : Action} {as : List Action}

/-- The number of known streams whose cancellation is not recorded is the number of active streams. -/
structure Accounted (st : Storage) : Prop where
  active : (aggregate st).activeStreams.val = {a | Known st a ∧ ¬ Recorded st a}.ncard
  recorded : ∀ a, Recorded st a → Known st a

/-- What is added for new streams and taken for newly recorded ones, each once. -/
structure Tallies (st st' : Storage) : Prop where
  known : ∀ a, Known st a → Known st' a
  recorded : ∀ a, Recorded st a → Recorded st' a
  active : (aggregate st').activeStreams.val = (aggregate st).activeStreams.val +
    {a | Known st' a ∧ ¬ Known st a}.ncard - {a | Recorded st' a ∧ ¬ Recorded st a}.ncard

/-- A batch of cancellations names known streams only. -/
def CancelsKnown (w : World) (a : Action) : Prop :=
  ∀ host env sender streamAddresses,
    a = .call host env (.cancelBatchStreams sender streamAddresses) →
    ∀ stream ∈ streamAddresses, Known w.factory stream

/-! ### The two sets -/

def knownSet (st : Storage) : Set Address := {a | Known st a}

def recordedSet (st : Storage) : Set Address := {a | Recorded st a}

theorem Registered.finite_known (hr : Registered w) : (knownSet w.factory).Finite := by
  refine (w.creations.map Creation.stream).finite_toSet.subset fun b hb => ?_
  change (w.factory.isKnownStream b).getD false = true at hb
  rw [hr.known] at hb
  split at hb
  · rename_i hin
    exact hin
  · cases hb

/-- The count and the recorded streams add up to the known streams. -/
theorem Registered.accounted_iff (hr : Registered w) : Accounted w.factory ↔
    (aggregate w.factory).activeStreams.val + (recordedSet w.factory).ncard =
      (knownSet w.factory).ncard ∧ recordedSet w.factory ⊆ knownSet w.factory := by
  have hdiff (h : recordedSet w.factory ⊆ knownSet w.factory) :
      ({a | Known w.factory a ∧ ¬ Recorded w.factory a}.ncard : Int) +
        (recordedSet w.factory).ncard = (knownSet w.factory).ncard := by
    exact_mod_cast Set.ncard_sdiff_add_ncard_of_subset h hr.finite_known
  constructor
  · rintro ⟨hactive, hrec⟩
    refine ⟨?_, hrec⟩
    rw [hactive]
    exact hdiff hrec
  · rintro ⟨hactive, hrec⟩
    refine ⟨?_, hrec⟩
    have := hdiff hrec
    omega

/-! ### Moves -/

theorem known_update {f : Address → Option Bool} {stream b : Address} :
    (Function.update f stream (some true) b).getD false = true ↔
      b = stream ∨ (f b).getD false = true := by
  by_cases hb : b = stream
  · rw [hb, Function.update_self]
    exact ⟨fun _ => .inl rfl, fun _ => rfl⟩
  · rw [Function.update_of_ne hb]
    exact ⟨.inr, fun h => h.resolve_left hb⟩

theorem Registers.known_eq {p : StreamInitParams} {id : U64} {stream : Address}
    (h : Registers p id stream w w') : knownSet w'.factory = insert stream (knownSet w.factory) := by
  ext b
  show (w'.factory.isKnownStream b).getD false = true ↔ _
  rw [h.known]
  exact known_update

theorem recorded_recordCancellation (stream : Address) (st : Storage) :
    recordedSet (recordCancellation stream st) = insert stream (recordedSet st) := by
  ext b
  exact known_update

theorem Move.known_subset (h : Move K w w') : knownSet w.factory ⊆ knownSet w'.factory := by
  cases h with
  | steady h =>
      intro b hb
      show (w'.factory.isKnownStream b).getD false = true
      rw [h.known]
      exact hb
  | registers h => rw [h.known_eq]; exact Set.subset_insert _ _
  | records hK hnew => exact fun b hb => hb

theorem Move.recorded_subset (h : Move K w w') : recordedSet w.factory ⊆ recordedSet w'.factory := by
  cases h with
  | steady h =>
      intro b hb
      show (w'.factory.cancelledStream b).getD false = true
      rw [h.cancelled]
      exact hb
  | registers h =>
      intro b hb
      show (w'.factory.cancelledStream b).getD false = true
      rw [h.cancelled]
      exact hb
  | records hK hnew =>
      intro b hb
      exact (recorded_recordCancellation ..).symm ▸ Set.mem_insert_of_mem _ hb

theorem Moves.tallied (h : Moves K w w') :
    knownSet w.factory ⊆ knownSet w'.factory ∧ recordedSet w.factory ⊆ recordedSet w'.factory := by
  induction h with
  | refl => exact ⟨subset_rfl, subset_rfl⟩
  | tail _ hmove ih =>
      exact ⟨ih.1.trans hmove.known_subset, ih.2.trans hmove.recorded_subset⟩

/-- A new stream is neither known nor recorded; a recorded one is known and was not recorded. -/
theorem Move.accounted (h : Move K w w') (hr : Registered w) (hK : ∀ b, K b → Known w.factory b)
    (ha : Accounted w.factory) : Accounted w'.factory := by
  have hr' := h.registered hr
  obtain ⟨hactive, hsub⟩ := hr.accounted_iff.mp ha
  rw [hr'.accounted_iff]
  cases h with
  | steady h =>
      have hagg : aggregate w'.factory = aggregate w.factory := by
        unfold aggregate
        rw [h.totals]
      have hknown : knownSet w'.factory = knownSet w.factory := by
        unfold knownSet Known
        rw [h.known]
      have hrec : recordedSet w'.factory = recordedSet w.factory := by
        unfold recordedSet Recorded
        rw [h.cancelled]
      rw [hagg, hknown, hrec]
      exact ⟨hactive, hsub⟩
  | @registers p id stream _ _ h =>
      have hnew : stream ∉ knownSet w.factory := by
        intro hin
        obtain ⟨i, hi⟩ := hr.known_iff.mp hin
        obtain ⟨c, hc, rfl⟩ := hr.streamAddr_iff.mp hi
        have hd := hr.deployed c.stream (List.mem_map_of_mem (List.mem_of_getElem? hc))
        rw [h.fresh] at hd
        cases hd
      have hrec : recordedSet w'.factory = recordedSet w.factory := by
        unfold recordedSet Recorded
        rw [h.cancelled]
      rw [h.known_eq, hrec, Set.ncard_insert_of_notMem hnew hr.finite_known, h.active]
      refine ⟨?_, hsub.trans (Set.subset_insert _ _)⟩
      push_cast
      omega
  | @records stream _ hstream hnew =>
      have hfin : (recordedSet w.factory).Finite := hr.finite_known.subset hsub
      have hin : stream ∈ knownSet w.factory := hK stream hstream
      have hinsert : (insert stream (recordedSet w.factory)).ncard =
          (recordedSet w.factory).ncard + 1 := Set.ncard_insert_of_notMem hnew hfin
      have hsub' : insert stream (recordedSet w.factory) ⊆ knownSet w.factory :=
        Set.insert_subset hin hsub
      -- the recorded streams and this one are known, so the count is not zero
      have hle := Set.ncard_le_ncard hsub' hr.finite_known
      rw [recorded_recordCancellation]
      refine ⟨?_, hsub'⟩
      show max 0 (min ((aggregate w.factory).activeStreams.val - 1) _) +
        ((insert stream (recordedSet w.factory)).ncard : Int) = (knownSet w.factory).ncard
      have hmax := (aggregate w.factory).activeStreams.le
      rw [hinsert] at hle ⊢
      push_cast
      omega

theorem Moves.accounted (h : Moves K w w') (hr : Registered w) (hK : ∀ b, K b → Known w.factory b)
    (ha : Accounted w.factory) : Accounted w'.factory := by
  induction h with
  | refl => exact ha
  | tail hmoves hmove ih =>
      refine hmove.accounted (Moves.registered hmoves hr) (fun b hb => ?_) ih
      exact (Moves.tallied hmoves).1 (hK b hb)

/-! ### A batch of cancellations -/

theorem cancelTurn_spec {sender stream : Address}
    (h : cancelTurn host env sender w stream = .ok w') :
    w'.factory.isKnownStream = w.factory.isKnownStream ∧ Recorded w'.factory stream := by
  simp only [cancelTurn, bind_eq_ok] at h
  obtain ⟨w₁, hcall, h⟩ := h
  have hknown := (steady_callCancel hcall).known
  split at h
  · rename_i hrec
    cases h
    exact ⟨hknown, hrec⟩
  · cases h
    exact ⟨hknown, known_update.mpr (.inl rfl)⟩

theorem cancelBatchStreams_spec {sender : Address} {streamAddresses : List Address}
    (h : cancelBatchStreams host env sender streamAddresses w = .ok w') :
    w'.factory.isKnownStream = w.factory.isKnownStream ∧
      ∀ stream ∈ streamAddresses, Recorded w'.factory stream := by
  simp only [cancelBatchStreams, bind_eq_ok] at h
  obtain ⟨-, -, -, -, -, -, -, -, h⟩ := h
  constructor
  · refine foldlM_invariant (P := fun w₁ => w₁.factory.isKnownStream = w.factory.isKnownStream)
      (fun stream _ w₁ w₂ hturn hw => ?_) h rfl
    exact (cancelTurn_spec hturn).1.trans hw
  · refine foldlM_forall (Q := fun stream w₁ => Recorded w₁.factory stream)
      (fun _ _ _ hturn => (cancelTurn_spec hturn).2) (fun stream y w₁ w₂ hturn hrec => ?_) h
    exact (moves_of_cancelTurn (K := fun _ => True) trivial hturn).tallied.2 hrec

/-! ### Steps and runs -/

theorem accounted_of_step (h : Step here w a w') (hr : Registered w) (ha : Accounted w.factory) :
    Accounted w'.factory ↔ CancelsKnown w a := by
  constructor
  · rintro ha' host env sender streamAddresses rfl stream hstream
    cases h with
    | call henv h =>
        obtain ⟨hknown, hrec⟩ := cancelBatchStreams_spec h
        have hin := ha'.recorded stream (hrec stream hstream)
        unfold Known at hin ⊢
        rw [hknown] at hin
        exact hin
  · intro hok
    refine (moves_of_step hr h).accounted hr (fun b hb => ?_) ha
    cases a with
    | call host env c =>
        cases c with
        | cancelBatchStreams sender streamAddresses => exact hok _ _ _ _ rfl b hb
        | recordCancel stream =>
            obtain ⟨rfl, hknown⟩ := hb
            exact hknown
        | _ => exact hb.elim
    | _ => exact hb.elim

theorem tallies_of_moves (h : Moves K w w') (hr : Registered w) (ha : Accounted w.factory)
    (ha' : Accounted w'.factory) : Tallies w.factory w'.factory := by
  have hr' := h.registered hr
  obtain ⟨hknown, hrec⟩ := Moves.tallied h
  obtain ⟨hactive, -⟩ := hr.accounted_iff.mp ha
  obtain ⟨hactive', hsub'⟩ := hr'.accounted_iff.mp ha'
  have hadded : ({a | Known w'.factory a ∧ ¬ Known w.factory a}.ncard : Int) +
      (knownSet w.factory).ncard = (knownSet w'.factory).ncard := by
    exact_mod_cast Set.ncard_sdiff_add_ncard_of_subset hknown hr'.finite_known
  have htaken : ({a | Recorded w'.factory a ∧ ¬ Recorded w.factory a}.ncard : Int) +
      (recordedSet w.factory).ncard = (recordedSet w'.factory).ncard := by
    exact_mod_cast Set.ncard_sdiff_add_ncard_of_subset hrec (hr'.finite_known.subset hsub')
  refine ⟨hknown, hrec, ?_⟩
  omega

theorem accounted_of_fresh (h : Fresh w) : Accounted w.factory := by
  obtain ⟨hash, governor, tokens, h⟩ := h
  simp only [initializeFactory, bind_eq_ok, pure_eq_ok] at h
  obtain ⟨-, -, -, -, -, -, rfl⟩ := h
  refine ⟨?_, fun a ha => by cases ha⟩
  have hnone {S : Set Address} (h : ∀ a, a ∉ S) : (0 : Int) = S.ncard := by
    rw [Set.eq_empty_of_forall_notMem h, Set.ncard_empty]
    rfl
  exact hnone fun a ha => by cases ha.1

/-- **The active streams are counted exactly in the runs that cancel known streams only.**  In such
a run of a fresh factory the count is the number of known streams without a recorded cancellation,
only known streams have one, and every step adds the new streams and takes the newly recorded ones,
each once and nothing else; no other run has the count right at every state. -/
theorem accounting_of_run (hfresh : Fresh w₀) :
    (Run (fun w a w' => Step here w a w' ∧ CancelsKnown w a) w₀ as w →
      Accounted w.factory ∧ ∀ a w', Step here w a w' → CancelsKnown w a →
        Tallies w.factory w'.factory) ∧
    (Run (fun w a w' => Step here w a w' ∧ Accounted w'.factory) w₀ as w ↔
      Run (fun w a w' => Step here w a w' ∧ CancelsKnown w a) w₀ as w) := by
  have hr₀ := registered_of_fresh hfresh
  have ha₀ := accounted_of_fresh hfresh
  have hkeep : ∀ w a w', Step here w a w' → Registered w → Registered w' :=
    fun _ _ _ => registered_of_step
  have hok : ∀ w a w', Step here w a w' → Registered w → Accounted w.factory →
      (Accounted w'.factory ↔ CancelsKnown w a) := fun _ _ _ => accounted_of_step
  refine ⟨fun hrun => ?_, (Run.keeps_spec hkeep hok hr₀ ha₀).1⟩
  have ha : Accounted w.factory :=
    (Run.keeps_spec (P := fun w => Accounted w.factory) hkeep hok hr₀ ha₀).2 hrun
  have hr : Registered w := (registered_of_run (hrun.mono fun _ h => h.1) hr₀).1
  refine ⟨ha, fun a w' hstep hcancels => ?_⟩
  exact tallies_of_moves (moves_of_step hr hstep) hr ha ((accounted_of_step hstep hr ha).mpr hcancels)

end

/-! ### The sample factory -/

theorem accounting_of_run_settled :
    Accounted Sample.settled.factory ∧ Recorded Sample.settled.factory Stream.Sample.address ∧
      (aggregate Sample.settled.factory).activeStreams.val = 0 := by
  have hrun : Run (fun w a w' => Step Sample.env.contract w a w' ∧ CancelsKnown w a) Sample.opened
      [.call Sample.deployer Sample.env (.createStream Sample.request none),
        .call Sample.deployer Sample.env
          (.cancelBatchStreams Sample.request.sender [Stream.Sample.address])] Sample.settled := by
    have hcreated : Run (fun w a w' => Step Sample.env.contract w a w' ∧ CancelsKnown w a)
        Sample.opened [.call Sample.deployer Sample.env (.createStream Sample.request none)]
        Sample.registered := by
      refine (Run.nil _).snoc ⟨Sample.step_next (by decide +kernel), ?_⟩
      rintro _ _ _ _ ⟨⟩
    refine hcreated.snoc ⟨Sample.step_next (by decide +kernel), ?_⟩
    rintro _ _ _ _ ⟨⟩ stream hstream
    obtain rfl := List.mem_singleton.mp hstream
    show Known Sample.registered.factory Stream.Sample.address
    unfold Known
    decide +kernel
  refine ⟨((accounting_of_run Sample.fresh_opened).1 hrun).1, ?_, by decide +kernel⟩
  unfold Recorded
  decide +kernel

/-- The factory after a batch that names a stranger's contract. -/
def Sample.misled : World :=
  Sample.next Sample.registered (.cancelBatchStreams Sample.request.sender [.contract 99])

/-- A stranger's contract lets itself be cancelled in a batch: the one stream of the factory is
running, and none is counted as active. -/
theorem foreign_cancel_uncounted :
    ∃ as, Fresh Sample.opened ∧ Run (Step Sample.env.contract) Sample.opened as Sample.misled ∧
      Known Sample.misled.factory Stream.Sample.address ∧
      ¬ Recorded Sample.misled.factory Stream.Sample.address ∧
      (aggregate Sample.misled.factory).activeStreams.val = 0 ∧
      (aggregate Sample.misled.factory).activeStreams.val ≠
        {a | Known Sample.misled.factory a ∧ ¬ Recorded Sample.misled.factory a}.ncard := by
  have hrun : Run (Step Sample.env.contract) Sample.opened
      [.call Sample.deployer Sample.env (.createStream Sample.request none),
        .call Sample.deployer Sample.env
          (.cancelBatchStreams Sample.request.sender [.contract 99])] Sample.misled :=
    ((Run.nil _).snoc (Sample.step_next (by decide +kernel))).snoc
      (Sample.step_next (by decide +kernel))
  have hr : Registered Sample.misled :=
    (registered_of_run hrun (registered_of_fresh Sample.fresh_opened)).1
  have hknown : Known Sample.misled.factory Stream.Sample.address := by
    unfold Known
    decide +kernel
  have hrec : ¬ Recorded Sample.misled.factory Stream.Sample.address := by
    unfold Recorded
    decide +kernel
  have hactive : (aggregate Sample.misled.factory).activeStreams.val = 0 := by decide +kernel
  have hfin : {a | Known Sample.misled.factory a ∧ ¬ Recorded Sample.misled.factory a}.Finite :=
    hr.finite_known.subset fun a ha => ha.1
  refine ⟨_, Sample.fresh_opened, hrun, hknown, hrec, hactive, fun h => ?_⟩
  rw [hactive] at h
  have hmem : Stream.Sample.address ∈
    {a | Known Sample.misled.factory a ∧ ¬ Recorded Sample.misled.factory a} := ⟨hknown, hrec⟩
  exact Set.ncard_ne_zero_of_mem hmem hfin (Int.ofNat_eq_zero.mp h.symm)

end Drip.Factory
