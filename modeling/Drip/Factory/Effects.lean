import Mathlib.Logic.Relation
import Drip.Factory.Records

/-!
# Factory — Effects

Every call to the factory is a sequence of moves (`Move`): creations, recorded cancellations, and
changes that the registry does not see.  `moves_of_exec` and `moves_of_step` say so of every call and
every step; what a move keeps, the factory keeps.
-/

namespace Drip.Factory
open Chain

/-- `IsKnownStream`, read with `unwrap_or(false)`. -/
def Known (st : Storage) (a : Address) : Prop := (st.isKnownStream a).getD false = true

/-- `CancelledStream`, read with `unwrap_or(false)`. -/
def Recorded (st : Storage) (a : Address) : Prop := (st.cancelledStream a).getD false = true

/-- Nothing the registry is about has changed. -/
structure Steady (w w' : World) : Prop where
  count : w'.factory.streamCount = w.factory.streamCount
  streamAddr : w'.factory.streamAddr = w.factory.streamAddr
  known : w'.factory.isKnownStream = w.factory.isKnownStream
  cancelled : w'.factory.cancelledStream = w.factory.cancelledStream
  totals : w'.factory.aggregate = w.factory.aggregate
  lock : w'.factory.createLock = w.factory.createLock
  senders : w'.factory.bySender = w.factory.bySender
  recipients : w'.factory.byRecipient = w.factory.byRecipient
  creations : w'.creations = w.creations
  deployed : ∀ a, (w'.streams a).isSome = (w.streams a).isSome

/-- One move; only addresses that satisfy `K` are recorded as cancelled. -/
inductive Move (K : Address → Prop) : World → World → Prop where
  | steady {w w' : World} (h : Steady w w') : Move K w w'
  | registers {p : StreamInitParams} {id : U64} {stream : Address} {w w' : World}
      (h : Registers p id stream w w') : Move K w w'
  | records {stream : Address} {w : World} (hK : K stream) (hnew : ¬ Recorded w.factory stream) :
      Move K w { w with factory := recordCancellation stream w.factory }

abbrev Moves (K : Address → Prop) : World → World → Prop := Relation.ReflTransGen (Move K)

section

variable {host : Host} {env : Env} {config : GovernorConfig} {w w' : World} {K : Address → Prop}

theorem Steady.moves (h : Steady w w') : Moves K w w' := .single (.steady h)

theorem steady_requireNotPaused (h : requireNotPaused env w = .ok w') : Steady w w' := by
  simp only [requireNotPaused, bind_eq_ok, pure_eq_ok] at h
  obtain ⟨-, -, rfl⟩ := h
  exact ⟨rfl, rfl, rfl, rfl, rfl, rfl, rfl, rfl, rfl, fun _ => rfl⟩

theorem moves_of_create {p : StreamInitParams} {now id : U64} {description : Option Bytes}
    (h : createStreamWithConfig host env config now p description w = .ok (id, w')) :
    Moves K w w' := by
  obtain ⟨stream, h⟩ := registers_of_create h
  exact .single (.registers h)

theorem moves_of_makes {made : List (StreamInitParams × Address)}
    (h : Run (Makes host env config) w made w') : Moves K w w' := by
  induction h with
  | nil => exact .refl
  | snoc _ hmakes ih =>
      obtain ⟨-, now, description, id, -, hcreate, -⟩ := hmakes
      exact ih.trans (moves_of_create hcreate)

/-- A call to a stream leaves it deployed. -/
theorem steady_withStream {stream : Address} {d : Deployed} (hd : w.streams stream = some d)
    (s : Stream.State) : Steady w (w.withStream stream s) := by
  refine ⟨rfl, rfl, rfl, rfl, rfl, rfl, rfl, rfl, rfl, fun a => ?_⟩
  show (Function.update w.streams stream _ a).isSome = _
  by_cases ha : a = stream
  · rw [ha, Function.update_self, hd]
    rfl
  · rw [Function.update_of_ne ha]

theorem steady_callCancel {sender stream : Address}
    (h : callCancel host env sender stream w = .ok w') : Steady w w' := by
  unfold callCancel at h
  split at h
  · cases h
  · split at h
    · rename_i d hd
      split at h
      · cases h
      · cases h
        exact steady_withStream hd _
    · simp only [bind_eq_ok, pure_eq_ok] at h
      obtain ⟨⟨tokens, become⟩, -, rfl⟩ := h
      exact ⟨rfl, rfl, rfl, rfl, rfl, rfl, rfl, rfl, rfl, fun a => Option.isSome_map⟩

theorem moves_of_cancelTurn {sender stream : Address} (hK : K stream)
    (h : cancelTurn host env sender w stream = .ok w') : Moves K w w' := by
  simp only [cancelTurn, bind_eq_ok] at h
  obtain ⟨w₁, hcall, h⟩ := h
  have hsteady := (steady_callCancel hcall).moves (K := K)
  split at h
  · cases h
    exact hsteady
  · rename_i hnew
    cases h
    exact hsteady.tail (.records hK hnew)

theorem moves_of_cancelBatchStreams {sender : Address} {streamAddresses : List Address}
    (hK : ∀ a ∈ streamAddresses, K a)
    (h : cancelBatchStreams host env sender streamAddresses w = .ok w') : Moves K w w' := by
  simp only [cancelBatchStreams, bind_eq_ok] at h
  obtain ⟨-, -, -, -, -, -, -, -, h⟩ := h
  refine foldlM_invariant (P := Moves K w) (fun a ha w₁ w₂ hturn hw => ?_) h .refl
  exact hw.trans (moves_of_cancelTurn (hK a ha) hturn)

theorem moves_of_recordCancel {stream : Address} (hK : Known w.factory stream → K stream)
    (h : recordCancel stream w = .ok w') : Moves K w w' := by
  unfold recordCancel at h
  split at h
  · cases h
    exact .refl
  · rename_i hknown
    split at h
    · cases h
      exact .refl
    · rename_i hnew
      simp only [bind_eq_ok] at h
      obtain ⟨info, -, h⟩ := h
      split at h
      · cases h
        exact .refl
      · cases h
        exact .single (.records (hK (Bool.eq_true_of_not_eq_false hknown)) hnew)

theorem bump_frame (st : Storage) :
    ∃ last, bumpPersistentBucket st = { st with lastBumpedId := last } := by
  unfold bumpPersistentBucket
  dsimp only
  split
  · exact ⟨st.lastBumpedId, rfl⟩
  · exact ⟨_, rfl⟩

theorem setPaused_frame {paused : Bool} (h : setPaused env paused w = .ok w') :
    ∃ stored, w' = { w with factory := { w.factory with paused := stored } } := by
  unfold setPaused at h
  split at h
  · cases h
    exact ⟨_, rfl⟩
  · cases h
    exact ⟨w.factory.paused, rfl⟩
  · cases h

/-- An announcement of something other than a creation. -/
theorem creations_snoc {e : Event} (he : creationOf e = none) (es : List Event) :
    (es ++ [e]).filterMap creationOf = es.filterMap creationOf := by
  rw [List.filterMap_append, List.filterMap_cons_none he, List.filterMap_nil, List.append_nil]

/-- The keys of the maintenance calls. -/
theorem Steady.maintenance {stored : Option Pause.Stored} {last : Option U64} {hash : Option Hash}
    {es : List Event} (hes : es.filterMap creationOf = w.creations) :
    Steady w { w with
      factory := { w.factory with paused := stored, lastBumpedId := last, streamWasmHash := hash }
      events := es } :=
  ⟨rfl, rfl, rfl, rfl, rfl, rfl, rfl, rfl, hes, fun _ => rfl⟩

theorem steady_pause (h : pause env w = .ok w') : Steady w w' := by
  simp only [pause, bind_eq_ok, pure_eq_ok] at h
  obtain ⟨governor, -, -, -, w₁, hset, rfl⟩ := h
  obtain ⟨stored, rfl⟩ := setPaused_frame hset
  obtain ⟨last, hlast⟩ := bump_frame (isPaused env w).2.factory
  rw [hlast]
  exact .maintenance (creations_snoc rfl _)

theorem steady_unpause (h : unpause env w = .ok w') : Steady w w' := by
  simp only [unpause, bind_eq_ok, pure_eq_ok] at h
  obtain ⟨governor, -, -, -, w₁, hset, rfl⟩ := h
  obtain ⟨stored, rfl⟩ := setPaused_frame hset
  obtain ⟨last, hlast⟩ := bump_frame (isPaused env w).2.factory
  rw [hlast]
  exact .maintenance (creations_snoc rfl _)

theorem steady_upgradeStreamWasm {hash : Hash} (h : upgradeStreamWasm env hash w = .ok w') :
    Steady w w' := by
  simp only [upgradeStreamWasm, requireNotPaused, bind_eq_ok, pure_eq_ok] at h
  obtain ⟨governor, -, -, -, _, ⟨-, -, rfl⟩, old, -, h⟩ := h
  obtain ⟨last, hlast⟩ := bump_frame (isPaused env w).2.factory
  split at h
  · cases h
    exact hlast ▸ Steady.maintenance rfl
  · cases h
    exact hlast ▸ Steady.maintenance (creations_snoc rfl _)

/-- Without legacy vectors there is nothing to migrate. -/
theorem migrateSenderIndex_eq {sender : Address} {maxPages : Nat} (hr : Registered w)
    (h : onStorage w (migrateSenderIndex w.factory sender maxPages) = .ok w') : w' = w := by
  obtain ⟨xs, hxs, -⟩ := hr.senders sender
  unfold migrateSenderIndex at h
  rw [hxs.migrate] at h
  cases h
  rw [Function.update_eq_self]

theorem migrateRecipientIndex_eq {recipient : Address} {maxPages : Nat} (hr : Registered w)
    (h : onStorage w (migrateRecipientIndex w.factory recipient maxPages) = .ok w') : w' = w := by
  obtain ⟨xs, hxs, -⟩ := hr.recipients recipient
  unfold migrateRecipientIndex at h
  rw [hxs.migrate] at h
  cases h
  rw [Function.update_eq_self]

/-! ### Every call -/

/-- The addresses a call may record as cancelled. -/
def Call.Records (c : Call) (w : World) (a : Address) : Prop :=
  match c with
  | .cancelBatchStreams _ streamAddresses => a ∈ streamAddresses
  | .recordCancel stream => a = stream ∧ Known w.factory stream
  | _ => False

def Action.Records (a : Action) (w : World) (stream : Address) : Prop :=
  match a with
  | .call _ _ c => c.Records w stream
  | _ => False

theorem moves_of_exec {c : Call} (hr : Registered w) (h : exec host env w c = .ok w') :
    Moves (c.Records w) w w' := by
  cases c with
  | initializeFactory hash governor =>
      simp [exec, initializeFactory, hr.initialized] at h
  | createStream | batchCreateStreams | createBatchStreams =>
      obtain ⟨w₁, config, made, hpause, -, -, hrun⟩ := makes_of_exec h rfl
      exact (steady_requireNotPaused hpause).moves.trans (moves_of_makes hrun)
  | cancelBatchStreams sender streamAddresses =>
      exact moves_of_cancelBatchStreams (fun _ ha => ha) h
  | recordCancel stream => exact moves_of_recordCancel (fun hknown => ⟨rfl, hknown⟩) h
  | pause => exact (steady_pause h).moves
  | unpause => exact (steady_unpause h).moves
  | isPaused =>
      cases h
      exact (Steady.maintenance rfl).moves
  | upgradeStreamWasm hash => exact (steady_upgradeStreamWasm h).moves
  | migrateSenderIndex sender maxPages =>
      rw [migrateSenderIndex_eq hr h]
  | migrateRecipientIndex recipient maxPages =>
      rw [migrateRecipientIndex_eq hr h]

theorem moves_of_step {here : Address} {a : Action} (hr : Registered w) (h : Step here w a w') :
    Moves (a.Records w) w w' := by
  cases h with
  | call henv h => exact moves_of_exec hr h
  | failed henv h => exact .refl
  | direct hd h => exact (steady_withStream hd _).moves
  | outside => exact Steady.moves ⟨rfl, rfl, rfl, rfl, rfl, rfl, rfl, rfl, rfl, fun _ => rfl⟩

end

end Drip.Factory
