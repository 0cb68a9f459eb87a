import Drip.Factory.Registry

/-!
# Factory — Batches

A batch of creations is the single creations one after the other.  The batch entry points read the
pause flag and the governor's configuration once, before their loop; a creation writes neither, so
each turn of the loop is `create_stream` on the request (`createStream_of_open`).

* `createSingly`: `create_stream` without description on each request, from the state the one before
  left.
* `batches_singly`: both batch entry points succeed exactly when that does, with its result.
-/

namespace Drip.Factory
open Chain

variable {host : Host} {env : Env} {config : GovernorConfig} {p : StreamInitParams} {now id : U64}
variable {description : Option Bytes} {w w' w₁ : World} {ps : List StreamInitParams}
variable {ids ids' : List U64} {addrs addrs' : List Address}

/-- `create_stream` without description, its id at the end of those before. -/
def createTurn (host : Host) (env : Env) (acc : List U64 × World) (p : StreamInitParams) :
    Result (List U64 × World) := do
  let (ids, w) := acc
  let (id, w) ← createStream host env p none w
  return (ids ++ [id], w)

/-- The requests, one after the other. -/
def createSingly (host : Host) (env : Env) (ps : List StreamInitParams) (w : World) :
    Result (List U64 × World) :=
  ps.foldlM (createTurn host env) ([], w)

/-- The factory is not paused, a read of the flag leaves it, and the governor answers. -/
structure Open (host : Host) (env : Env) (config : GovernorConfig) (w : World) : Prop where
  running : Pause.isPaused env.timestamp w.factory.paused = (false, w.factory.paused)
  governed : readConfig host w = .ok config

/-! ### One creation -/

theorem open_of_checks (hpause : requireNotPaused env w = .ok w₁)
    (hconfig : readConfig host w₁ = .ok config) : Open host env config w₁ := by
  simp only [requireNotPaused, bind_eq_ok, reject_eq_ok, pure_eq_ok, Bool.not_eq_true] at hpause
  obtain ⟨-, hrunning, rfl⟩ := hpause
  exact ⟨Pause.isPaused_idem hrunning, hconfig⟩

theorem Open.requireNotPaused (h : Open host env config w) : requireNotPaused env w = .ok w := by
  unfold Factory.requireNotPaused
  rw [h.running]
  rfl

/-- In an open factory `create_stream` is the validation and the creation. -/
theorem createStream_of_open (h : Open host env config w) :
    createStream host env p none w = (do
      requireAuth env p.sender
      let now ← validateStreamRequest env p
      createStreamWithConfig host env config now p none w) := by
  unfold createStream
  rw [h.requireNotPaused]
  have hshort : reject (∃ d ∈ (none : Option Bytes), Stream.maxDescriptionLen < d.length)
      (err .descriptionTooLong) = .ok () := if_neg fun ⟨d, hd, _⟩ => nomatch hd
  simp only [ok_bind, hshort, h.governed]

/-- A creation writes neither the pause flag nor the governor's address nor the counts by token. -/
theorem create_frame (h : createStreamWithConfig host env config now p description w = .ok (id, w')) :
    w'.factory.paused = w.factory.paused ∧
      w'.factory.governorAddress = w.factory.governorAddress ∧
      w'.factory.tokenStreamCount = w.factory.tokenStreamCount := by
  obtain ⟨stream, hash, fee, d, tokens, st, -, -, hreg, rfl⟩ := create_writes h
  simp only [register, appendSenderIndex, appendRecipientIndex, bind_eq_ok, pure_eq_ok] at hreg
  obtain ⟨-, -, -, -, -, -, _, ⟨ix, -, rfl⟩, ix', -, rfl⟩ := hreg
  exact ⟨rfl, rfl, rfl⟩

theorem Open.create (h : Open host env config w)
    (hcreate : createStreamWithConfig host env config now p description w = .ok (id, w')) :
    Open host env config w' := by
  obtain ⟨hpaused, hgovernor, -⟩ := create_frame hcreate
  refine ⟨by rw [hpaused]; exact h.running, ?_⟩
  have hgoverned := h.governed
  unfold readConfig at hgoverned ⊢
  rw [hgovernor]
  exact hgoverned

theorem Open.turn (h : Open host env config w) {acc : List U64 × World}
    (hturn : createTurn host env (ids, w) p = .ok acc) : Open host env config acc.2 := by
  simp only [createTurn, createStream_of_open h, bind_eq_ok, pure_eq_ok] at hturn
  obtain ⟨⟨id, w₂⟩, ⟨-, -, now, -, hcreate⟩, rfl⟩ := hturn
  exact h.create hcreate

/-- The first creation opens the factory as the batch does. -/
theorem createTurn_open (hpause : requireNotPaused env w = .ok w₁)
    (hconfig : readConfig host w₁ = .ok config) :
    createTurn host env (ids, w) p = createTurn host env (ids, w₁) p := by
  have hopen := open_of_checks hpause hconfig
  unfold createTurn
  dsimp only
  have hsame : createStream host env p none w = createStream host env p none w₁ := by
    unfold createStream
    rw [hpause, hopen.requireNotPaused]
  rw [hsame]

theorem createSingly_open (hne : ps ≠ []) (hpause : requireNotPaused env w = .ok w₁)
    (hconfig : readConfig host w₁ = .ok config) :
    createSingly host env ps w = createSingly host env ps w₁ := by
  cases ps with
  | nil => exact absurd rfl hne
  | cons p ps =>
      unfold createSingly
      rw [List.foldlM_cons, List.foldlM_cons, createTurn_open hpause hconfig]

/-- What the first of the single creations has checked. -/
theorem checks_of_createSingly {r : List U64 × World}
    (h : createSingly host env (p :: ps) w = .ok r) :
    env.authorized p.sender = true ∧ ∃ w₁ config, requireNotPaused env w = .ok w₁ ∧
      readConfig host w₁ = .ok config := by
  unfold createSingly at h
  rw [List.foldlM_cons, bind_eq_ok] at h
  obtain ⟨acc, hturn, -⟩ := h
  simp only [createTurn, createStream, bind_eq_ok, requireAuth_eq_ok] at hturn
  obtain ⟨-, ⟨-, hauth, w₁, hpause, -, -, -, -, config, hconfig, -⟩, -⟩ := hturn
  exact ⟨hauth, w₁, config, hpause, hconfig⟩

/-! ### `create_batch_streams` -/

theorem requests_singly {sender : Address} {clawback : Bool} (hopen : Open host env config w)
    (hauth : env.authorized sender = true) (requests : List BatchStreamRequest) (ids : List U64) :
    requests.foldlM (createFromRequest host env config sender clawback) (ids, w) =
      (requests.map fun r => r.params sender clawback).foldlM (createTurn host env) (ids, w) := by
  have hturn : ∀ (r : BatchStreamRequest) (acc : List U64 × World), Open host env config acc.2 →
      createFromRequest host env config sender clawback acc r =
        createTurn host env acc (r.params sender clawback) := by
    rintro r ⟨ids, w⟩ hopen
    have hsigned : (requireAuth env sender : Result Unit) = .ok () := requireAuth_eq_ok.mpr hauth
    unfold createFromRequest createTurn
    dsimp only
    rw [createStream_of_open hopen]
    show _ = ((requireAuth env sender : Result Unit) >>= _) >>= _
    rw [hsigned]
    cases validateStreamRequest env (r.params sender clawback) with
    | error e => rfl
    | ok now => rfl
  rw [List.foldlM_map]
  refine foldlM_congr (I := fun acc => Open host env config acc.2) (fun r _ acc acc' h hacc => ?_)
    (fun r _ acc hacc => hturn r acc hacc) hopen
  rw [hturn r acc hacc] at h
  exact hacc.turn h

theorem createBatchStreams_singly {sender : Address} {clawback : Bool}
    {requests : List BatchStreamRequest} {r : List U64 × World} (hne : requests ≠ [])
    (hle : requests.length ≤ maxBatchSize) :
    createBatchStreams host env sender requests clawback w = .ok r ↔
      createSingly host env (requests.map fun r => r.params sender clawback) w = .ok r := by
  have hmap : requests.map (fun r => r.params sender clawback) ≠ [] :=
    fun h => hne (List.map_eq_nil_iff.mp h)
  simp only [createBatchStreams, bind_eq_ok, reject_eq_ok, requireAuth_eq_ok]
  constructor
  · rintro ⟨-, -, -, -, -, hauth, w₁, hpause, config, hconfig, h⟩
    have hopen := open_of_checks hpause hconfig
    rw [requests_singly hopen hauth] at h
    rw [createSingly_open hmap hpause hconfig]
    exact h
  · intro h
    obtain ⟨b, bs, rfl⟩ := List.exists_cons_of_ne_nil hne
    have h' := h
    rw [List.map_cons] at h'
    obtain ⟨hauth, w₁, config, hpause, hconfig⟩ := checks_of_createSingly h'
    have hauth : env.authorized sender = true := hauth
    have hopen := open_of_checks hpause hconfig
    refine ⟨(), hne, (), not_lt.mpr hle, (), hauth, w₁, hpause, config, hconfig, ?_⟩
    rw [createSingly_open hmap hpause hconfig] at h
    rw [requests_singly hopen hauth]
    exact h

/-! ### `batch_create_streams` -/

/-- The ids and the addresses collected so far name the same streams. -/
structure Named (host : Host) (env : Env) (config : GovernorConfig) (addrs : List Address × World)
    (ids : List U64 × World) : Prop where
  same : addrs.2 = ids.2
  opened : Open host env config addrs.2
  named : ids.1.map addrs.2.factory.streamAddr = addrs.1.map some
  below : ∀ id ∈ ids.1, id.val < (streamCount addrs.2.factory).val

/-- The new stream takes the next id, and those before keep their addresses. -/
theorem Named.create {addr : Address}
    (h : Named host env config (addrs, w) (ids, w))
    (hcreate : createStreamWithConfig host env config now p none w = .ok (id, w'))
    (haddr : w'.factory.streamAddr id = some addr) :
    Named host env config (addrs ++ [addr], w') (ids ++ [id], w') := by
  obtain ⟨stream, hregisters⟩ := registers_of_create hcreate
  have hcount := hregisters.count
  have hid := hregisters.id_eq
  refine ⟨rfl, h.opened.create hcreate, ?_, fun i hi => ?_⟩
  · have hold : ids.map w'.factory.streamAddr = ids.map w.factory.streamAddr := by
      refine List.map_congr_left fun i hi => ?_
      have hlt := h.below i hi
      rw [hregisters.streamAddr, Function.update_of_ne]
      rintro rfl
      rw [hid] at hlt
      exact absurd hlt (lt_irrefl _)
    rw [List.map_append, List.map_append, hold, h.named, List.map_singleton, List.map_singleton,
      haddr]
  · rcases List.mem_append.mp hi with hi | hi
    · have := h.below i hi
      dsimp only at this ⊢
      omega
    · rw [List.mem_singleton.mp hi, hid]
      dsimp only
      omega

theorem createTurn_of_createFromConfig {acc acc' : List Address × World} {ids : List U64 × World}
    (h : Named host env config acc ids) (hturn : createFromConfig host env config acc p = .ok acc') :
    ∃ ids', createTurn host env ids p = .ok ids' ∧ Named host env config acc' ids' := by
  obtain ⟨addrs, w⟩ := acc
  obtain ⟨ids, v⟩ := ids
  obtain rfl : w = v := h.same
  simp only [createFromConfig, bind_eq_ok, pure_eq_ok, okOr_eq_ok] at hturn
  obtain ⟨u, hauth, now, hnow, ⟨id, w'⟩, hcreate, addr, haddr, rfl⟩ := hturn
  refine ⟨(ids ++ [id], w'), ?_, h.create hcreate haddr⟩
  simp only [createTurn, createStream_of_open h.opened, bind_eq_ok, pure_eq_ok]
  exact ⟨(id, w'), ⟨u, hauth, now, hnow, hcreate⟩, rfl⟩

theorem createFromConfig_of_createTurn {acc : List Address × World} {ids ids' : List U64 × World}
    (h : Named host env config acc ids) (hturn : createTurn host env ids p = .ok ids') :
    ∃ acc', createFromConfig host env config acc p = .ok acc' ∧ Named host env config acc' ids' := by
  obtain ⟨addrs, w⟩ := acc
  obtain ⟨ids, v⟩ := ids
  obtain rfl : w = v := h.same
  simp only [createTurn, createStream_of_open h.opened, bind_eq_ok, pure_eq_ok] at hturn
  obtain ⟨⟨id, w'⟩, ⟨u, hauth, now, hnow, hcreate⟩, rfl⟩ := hturn
  obtain ⟨stream, hregisters⟩ := registers_of_create hcreate
  have haddr : w'.factory.streamAddr id = some stream := by
    rw [hregisters.streamAddr, Function.update_self]
  refine ⟨(addrs ++ [stream], w'), ?_, h.create hcreate haddr⟩
  simp only [createFromConfig, bind_eq_ok, pure_eq_ok, okOr_eq_ok]
  exact ⟨u, hauth, now, hnow, (id, w'), hcreate, stream, haddr, rfl⟩

theorem batchCreateStreams_singly (hne : ps ≠ []) (hle : ps.length ≤ maxBatchSize) :
    batchCreateStreams host env ps w = .ok (addrs, w') ↔
      ∃ ids, createSingly host env ps w = .ok (ids, w') ∧
        ids.map w'.factory.streamAddr = addrs.map some := by
  simp only [batchCreateStreams, bind_eq_ok, reject_eq_ok]
  constructor
  · rintro ⟨-, -, -, -, w₁, hpause, config, hconfig, h⟩
    have hnil : Named host env config (([] : List Address), w₁) (([] : List U64), w₁) :=
      ⟨rfl, open_of_checks hpause hconfig, rfl, fun _ => nofun⟩
    obtain ⟨⟨ids, v⟩, hids, hnamed⟩ :=
      foldlM_simulates (fun _ _ _ _ => createTurn_of_createFromConfig) hnil h
    obtain rfl : w' = v := hnamed.same
    refine ⟨ids, ?_, hnamed.named⟩
    rw [createSingly_open hne hpause hconfig]
    exact hids
  · rintro ⟨ids, h, hmap⟩
    obtain ⟨p, ps, rfl⟩ := List.exists_cons_of_ne_nil hne
    obtain ⟨-, w₁, config, hpause, hconfig⟩ := checks_of_createSingly h
    have hnil : Named host env config (([] : List Address), w₁) (([] : List U64), w₁) :=
      ⟨rfl, open_of_checks hpause hconfig, rfl, fun _ => nofun⟩
    rw [createSingly_open hne hpause hconfig] at h
    unfold createSingly at h
    obtain ⟨⟨addrs', v⟩, haddrs, hnamed⟩ :=
      foldlM_simulates (f := createTurn host env) (g := createFromConfig host env config)
        (R := fun ids acc => Named host env config acc ids)
        (fun _ _ _ _ => createFromConfig_of_createTurn) hnil h
    obtain rfl : v = w' := hnamed.same
    have hsame : addrs' = addrs := by
      refine List.map_injective_iff.mpr (Option.some_injective _) ?_
      exact hnamed.named.symm.trans hmap
    rw [hsame] at haddrs
    exact ⟨(), hne, (), not_lt.mpr hle, w₁, hpause, config, hconfig, haddrs⟩

/-! ### Both -/

/-- What the host leaves of a call: the world it returned, or the one before it. -/
def settle {α : Type} (w : World) (r : Result (α × World)) : World :=
  match r with
  | .ok (_, w') => w'
  | .error _ => w

/-- **A batch is its creations one after the other.**  Each of the two succeeds exactly when the single
creations do, with their ids (or the addresses of these) and the same world; otherwise it leaves
everything as it was. -/
theorem batches_singly :
    (∀ host env sender (requests : List BatchStreamRequest) clawback w, 1 ≤ requests.length →
      requests.length ≤ maxBatchSize →
      let ps := requests.map fun r => r.params sender clawback
      (∀ ids w', createBatchStreams host env sender requests clawback w = .ok (ids, w') ↔
        createSingly host env ps w = .ok (ids, w')) ∧
      ((createSingly host env ps w).isOk = false →
        settle w (createBatchStreams host env sender requests clawback w) = w)) ∧
    (∀ host env ps w, 1 ≤ ps.length → ps.length ≤ maxBatchSize →
      (∀ addrs w', batchCreateStreams host env ps w = .ok (addrs, w') ↔
        ∃ ids, createSingly host env ps w = .ok (ids, w') ∧
          ids.map w'.factory.streamAddr = addrs.map some) ∧
      ((createSingly host env ps w).isOk = false →
        settle w (batchCreateStreams host env ps w) = w)) := by
  constructor
  · intro host env sender requests clawback w hpos hle ps
    have hne : requests ≠ [] := List.ne_nil_of_length_pos hpos
    refine ⟨fun ids w' => createBatchStreams_singly hne hle, fun hfail => ?_⟩
    cases hr : createBatchStreams host env sender requests clawback w with
    | error e => rfl
    | ok r =>
        rw [(createBatchStreams_singly hne hle).mp hr] at hfail
        cases hfail
  · intro host env ps w hpos hle
    have hne : ps ≠ [] := List.ne_nil_of_length_pos hpos
    refine ⟨fun addrs w' => batchCreateStreams_singly hne hle, fun hfail => ?_⟩
    cases hr : batchCreateStreams host env ps w with
    | error e => rfl
    | ok r =>
        obtain ⟨ids, hids, -⟩ := (batchCreateStreams_singly hne hle).mp hr
        rw [hids] at hfail
        cases hfail

namespace Sample

/-- A batch of two for the sample sender, who can pay for both. -/
def pair : List BatchStreamRequest :=
  [⟨request.recipient, request.token, .lit 4000, .lit 4, .lit 100, .lit 1100⟩,
    ⟨.account 9, request.token, .lit 5000, .lit 5, .lit 200, .lit 1200⟩]

def pairParams : List StreamInitParams := pair.map fun r => r.params request.sender false

end Sample

theorem batches_singly_pair :
    ∃ ids addrs w',
      createSingly Sample.deployer Sample.env Sample.pairParams Sample.opened = .ok (ids, w') ∧
      createBatchStreams Sample.deployer Sample.env Sample.request.sender Sample.pair false
        Sample.opened = .ok (ids, w') ∧
      batchCreateStreams Sample.deployer Sample.env Sample.pairParams Sample.opened =
        .ok (addrs, w') ∧ ids.map w'.factory.streamAddr = addrs.map some := by
  have hok : (batchCreateStreams Sample.deployer Sample.env Sample.pairParams
      Sample.opened).isOk = true := by decide +kernel
  obtain ⟨⟨addrs, w'⟩, hbatch⟩ := exists_of_isOk hok
  obtain ⟨hrequests, hparams⟩ := batches_singly
  obtain ⟨ids, hsingly, hmap⟩ := ((hparams Sample.deployer Sample.env Sample.pairParams
    Sample.opened (by decide) (by decide)).1 addrs w').mp hbatch
  refine ⟨ids, addrs, w', hsingly, ?_, hbatch, hmap⟩
  exact ((hrequests Sample.deployer Sample.env Sample.request.sender Sample.pair false
    Sample.opened (by decide) (by decide)).1 ids w').mpr hsingly

end Drip.Factory
