import Mathlib.Data.List.Nodup
import Drip.Factory.Calls
import Drip.Factory.Funding
import Drip.Factory.Paging

/-!
# Factory — Records

The registry of the factory.  One creation writes the address map, the set of known streams, the
counter, the aggregate and two paged indices; all of them say the same as the list of creations that
the factory has announced (`World.creations`).

* `Lists xs ix`: the pages of the index `ix` hold the ids `xs`, up to any number of them.
* `Registered w`: the registry is that of the creations announced so far.
* `Registers`: what a successful creation wrote; `Registers.registered` says that the registry then
  has one creation more.
* `makes_of_exec`: the creations (`Makes`) that a creation call consists of.
-/

namespace Drip.Factory
open Chain Paged

/-! ### An index as a list of ids -/

section

variable {xs : List U64} {x : U64} {ix ix' : Index}

/-- An index without legacy vector that holds `xs`.  From `u32::MAX` entries on the count stands
still and the last page grows; up to there its readers return `xs`. -/
structure Lists (xs : List U64) (ix : Index) : Prop where
  legacy : ix.legacy = none
  legacyCount : ix.legacyCount = none
  count : ix.count.getD 0 = min xs.length u32Max
  after : ∀ p, ix.count.getD 0 / pageSize < p → ix.pages p = none
  pages : gathered (ix.count.getD 0 / pageSize + 1) ix.pages = xs
  holds : xs.length + 99 ≤ u32Max → Holds [] xs ix

theorem Lists.nil : Lists [] {} := by
  refine ⟨rfl, rfl, rfl, fun _ _ => rfl, rfl, fun _ => ?_⟩
  exact holds_of_legacy none

theorem Lists.gathers (h : Lists xs ix) : Gathers xs ix.pages :=
  ⟨_, fun p hp => h.after p hp, h.pages⟩

/-- There is nothing to migrate. -/
theorem Lists.migrate (h : Lists xs ix) (maxPages : Nat) :
    migrateLegacyIndex ix maxPages = .ok (ix.count.getD 0, ix) := by
  unfold migrateLegacyIndex
  rw [h.legacy]

theorem Lists.append_eq (h : Lists xs ix) (x : U64) :
    appendIndexEntry ix x = .ok { ix with
      pages := Function.update ix.pages (ix.count.getD 0 / pageSize)
        (some ((ix.pages (ix.count.getD 0 / pageSize)).getD [] ++ [x]))
      count := some (saturatingAdd (ix.count.getD 0) 1) } := by
  unfold appendIndexEntry
  rw [h.migrate, ok_bind]
  dsimp only
  rw [h.legacyCount]
  rfl

theorem Lists.append (h : Lists xs ix) (happend : appendIndexEntry ix x = .ok ix') :
    Lists (xs ++ [x]) ix' := by
  have hholds : (xs ++ [x]).length + 99 ≤ u32Max → Holds [] (xs ++ [x]) ix' := by
    intro hlen
    rw [List.length_append, List.length_singleton] at hlen
    obtain ⟨ix₁, hix₁, hx⟩ := append_holds (h.holds (by omega)) (by rw [List.length_nil]; omega) x
    rw [hix₁] at happend
    cases happend
    exact hx
  rw [h.append_eq] at happend
  cases happend
  have hpush := gathered_push (x := x) (ix.count.getD 0 / pageSize) ix.pages
  rw [h.pages] at hpush
  have hafter : ∀ p, ix.count.getD 0 / pageSize < p → Function.update ix.pages
      (ix.count.getD 0 / pageSize)
      (some ((ix.pages (ix.count.getD 0 / pageSize)).getD [] ++ [x])) p = none := by
    intro p hp
    rw [Function.update_of_ne (by omega)]
    exact h.after p hp
  have hcount := h.count
  have hnext : saturatingAdd (ix.count.getD 0) 1 = min (xs.length + 1) u32Max := by
    unfold saturatingAdd
    omega
  refine ⟨h.legacy, h.legacyCount, ?_, fun p hp => hafter p ?_, ?_, hholds⟩
  · rw [List.length_append, List.length_singleton]
    exact hnext
  · refine lt_of_le_of_lt ?_ hp
    exact Nat.div_le_div_right (by rw [Option.getD_some, hnext]; omega)
  · -- the next entry goes on the same page or opens the next
    rw [Option.getD_some]
    have hpage : saturatingAdd (ix.count.getD 0) 1 / pageSize = ix.count.getD 0 / pageSize ∨
        saturatingAdd (ix.count.getD 0) 1 / pageSize = ix.count.getD 0 / pageSize + 1 := by
      unfold pageSize
      omega
    rcases hpage with hpage | hpage
    · rw [hpage]
      exact hpush
    · rw [hpage, gathered_of_none (hafter _ (Nat.lt_succ_self _))]
      exact hpush

end

/-! ### The creations announced -/

/-- A stream as the factory announced it. -/
structure Creation where
  creator : Address
  recipient : Address
  stream : Address
deriving DecidableEq

def creationOf : Event → Option Creation
  | .streamCreated creator recipient stream _ _ => some ⟨creator, recipient, stream⟩
  | _ => none

/-- The creations announced so far, the stream with id `i` at place `i`, with the sender and the
recipient it was created for. -/
def World.creations (w : World) : List Creation := w.events.filterMap creationOf

/-- The places of the creations whose party is `a`. -/
def idsOf (party : Creation → Address) (a : Address) (cs : List Creation) : List Nat :=
  (List.range cs.length).filter fun i => cs[i]?.map party == some a

section

variable {party : Creation → Address} {a : Address} {cs : List Creation} {c : Creation}
variable {ix ix' : Index} {id : U64}

theorem mem_idsOf {i : Nat} : i ∈ idsOf party a cs ↔ ∃ c ∈ cs[i]?, party c = a := by
  unfold idsOf
  rw [List.mem_filter, List.mem_range, beq_iff_eq, Option.map_eq_some_iff]
  constructor
  · exact fun h => h.2
  · rintro ⟨c, hc, h⟩
    exact ⟨(List.getElem?_eq_some_iff.mp hc).1, c, hc, h⟩

theorem idsOf_increasing : (idsOf party a cs).Pairwise (· < ·) := List.pairwise_lt_range.filter _

theorem idsOf_snoc : idsOf party a (cs ++ [c]) =
    idsOf party a cs ++ if party c = a then [cs.length] else [] := by
  unfold idsOf
  rw [List.length_append, List.length_singleton, List.range_succ, List.filter_append]
  congr 1
  · refine List.filter_congr fun i hi => ?_
    rw [List.getElem?_append_left (List.mem_range.mp hi)]
  · rw [List.filter_singleton, List.getElem?_concat_length, Option.map_some]
    by_cases h : party c = a
    · simp [h]
    · rw [if_neg h, Option.some_beq_some, beq_eq_false_iff_ne.mpr h]
      rfl

/-- The index lists exactly those places. -/
def Indexes (party : Creation → Address) (cs : List Creation) (a : Address) (ix : Index) : Prop :=
  ∃ xs : List U64, Lists xs ix ∧ xs.map Ranged.val = (idsOf party a cs).map Nat.cast

theorem Indexes.push (h : Indexes party cs a ix) (happend : appendIndexEntry ix id = .ok ix')
    (hid : id.val = cs.length) (hc : party c = a) : Indexes party (cs ++ [c]) a ix' := by
  obtain ⟨xs, hxs, hids⟩ := h
  refine ⟨xs ++ [id], hxs.append happend, ?_⟩
  rw [idsOf_snoc, if_pos hc, List.map_append, List.map_append, hids, List.map_singleton,
    List.map_singleton, hid]

theorem Indexes.other (h : Indexes party cs a ix) (hc : party c ≠ a) :
    Indexes party (cs ++ [c]) a ix := by
  obtain ⟨xs, hxs, hids⟩ := h
  refine ⟨xs, hxs, ?_⟩
  rw [idsOf_snoc, if_neg hc, List.append_nil]
  exact hids

/-- All indices of one kind, after an append to one of them. -/
theorem indexes_update {indices : Address → Index} (h : ∀ a, Indexes party cs a (indices a))
    (happend : appendIndexEntry (indices (party c)) id = .ok ix') (hid : id.val = cs.length)
    (a : Address) : Indexes party (cs ++ [c]) a (Function.update indices (party c) ix' a) := by
  by_cases hc : party c = a
  · subst hc
    rw [Function.update_self]
    exact (h _).push happend hid rfl
  · rw [Function.update_of_ne (Ne.symm hc)]
    exact (h a).other hc

end

/-! ### The registry -/

/-- The storage is that of the creations announced so far. -/
structure Registered (w : World) : Prop where
  initialized : w.factory.streamCount.isSome = true
  count : (streamCount w.factory).val = w.creations.length
  addr : ∀ i : U64, w.factory.streamAddr i = w.creations[i.val.toNat]?.map Creation.stream
  known : ∀ a, w.factory.isKnownStream a =
    if a ∈ w.creations.map Creation.stream then some true else none
  supply : (aggregate w.factory).totalSupply.val = w.creations.length
  lock : w.factory.createLock.getD false = false
  distinct : (w.creations.map Creation.stream).Nodup
  deployed : ∀ a ∈ w.creations.map Creation.stream, (w.streams a).isSome = true
  senders : ∀ a, Indexes Creation.creator w.creations a (w.factory.bySender a)
  recipients : ∀ a, Indexes Creation.recipient w.creations a (w.factory.byRecipient a)

section

variable {host : Host} {env : Env} {config : GovernorConfig} {p : StreamInitParams} {now id : U64}
variable {description : Option Bytes} {w w' : World} {addr : Address}

/-- A creation deploys at a free address and registers the stream; in between it moves tokens. -/
theorem create_writes
    (h : createStreamWithConfig host env config now p description w = .ok (id, w')) :
    ∃ stream hash fee d tokens st, (w.streams stream).isSome = false ∧ id = streamCount w.factory ∧
      register p id stream { w.factory with
        createLock := some true
        saltUsed := Function.update w.factory.saltUsed (host.computeSalt id) (some true) } = .ok st ∧
      w' = { factory := { st with createLock := some false }
             tokens := tokens
             streams := Function.update w.streams stream (some d)
             events := w.events ++ [.protocolFeeCharged config.feeRecipient fee] ++
               [.streamCreated p.sender p.recipient stream (host.computeSalt id) hash] } := by
  simp only [createStreamWithConfig, bind_eq_ok, pure_eq_ok] at h
  obtain ⟨-, -, fee, -, total, -, -, -, w₁, hpull, w₂, hfee, hash, -, ⟨stream, w₃⟩, hdeploy, w₄,
    hfund, st, hreg, h⟩ := h
  cases h
  obtain ⟨⟨t₁, rfl⟩, -⟩ := transferChecked_spec hpull
  obtain ⟨t₂, rfl⟩ := payFee_frame hfee
  obtain ⟨hfree, s, -, rfl⟩ := deployStream_spec hdeploy
  obtain ⟨⟨t₃, rfl⟩, -⟩ := transferChecked_spec hfund
  exact ⟨stream, hash, fee, _, t₃, st, hfree, rfl, hreg, rfl⟩

/-- What a successful creation wrote. -/
structure Registers (p : StreamInitParams) (id : U64) (stream : Address) (w w' : World) : Prop where
  fresh : (w.streams stream).isSome = false
  id_eq : id = streamCount w.factory
  initialized : w'.factory.streamCount.isSome = true
  count : (streamCount w'.factory).val = (streamCount w.factory).val + 1
  supply : (aggregate w'.factory).totalSupply.val = (aggregate w.factory).totalSupply.val + 1
  active : (aggregate w'.factory).activeStreams.val = (aggregate w.factory).activeStreams.val + 1
  streamAddr : w'.factory.streamAddr = Function.update w.factory.streamAddr id (some stream)
  known : w'.factory.isKnownStream = Function.update w.factory.isKnownStream stream (some true)
  cancelled : w'.factory.cancelledStream = w.factory.cancelledStream
  lock : w'.factory.createLock = some false
  senders : ∃ ix, appendIndexEntry (w.factory.bySender p.sender) id = .ok ix ∧
    w'.factory.bySender = Function.update w.factory.bySender p.sender ix
  recipients : ∃ ix, appendIndexEntry (w.factory.byRecipient p.recipient) id = .ok ix ∧
    w'.factory.byRecipient = Function.update w.factory.byRecipient p.recipient ix
  streams : ∃ d, w'.streams = Function.update w.streams stream (some d)
  creations : w'.creations = w.creations ++ [⟨p.sender, p.recipient, stream⟩]

theorem registers_of_create
    (h : createStreamWithConfig host env config now p description w = .ok (id, w')) :
    ∃ stream, Registers p id stream w w' := by
  obtain ⟨stream, hash, fee, d, tokens, st, hfree, rfl, hreg, rfl⟩ := create_writes h
  simp only [register, appendSenderIndex, appendRecipientIndex, bind_eq_ok, okOr_eq_ok, pure_eq_ok,
    Ranged.checkedAdd_eq_some] at hreg
  obtain ⟨n, hn, supply, hsupply, active, hactive, _, ⟨ix, hix, rfl⟩, ix', hix', rfl⟩ := hreg
  refine ⟨stream, hfree, rfl, rfl, hn, hsupply, hactive, rfl, rfl, rfl, rfl, ⟨ix, hix, rfl⟩,
    ⟨ix', hix', rfl⟩, ⟨_, rfl⟩, ?_⟩
  simp only [World.creations, List.filterMap_append, List.append_assoc]
  rfl

theorem Registers.registered {stream : Address} (h : Registers p id stream w w')
    (hr : Registered w) : Registered w' := by
  have hid : id.val = w.creations.length := by
    rw [h.id_eq]
    exact hr.count
  have hnew : stream ∉ w.creations.map Creation.stream := by
    intro hin
    have hd := hr.deployed stream hin
    rw [h.fresh] at hd
    cases hd
  have hstreams : w'.creations.map Creation.stream =
      w.creations.map Creation.stream ++ [stream] := by
    rw [h.creations, List.map_append]
    rfl
  have hlen : (w'.creations.length : Int) = w.creations.length + 1 := by
    rw [h.creations, List.length_append, List.length_singleton]
    push_cast
    rfl
  obtain ⟨ix, hix, hsenders⟩ := h.senders
  obtain ⟨ix', hix', hrecipients⟩ := h.recipients
  obtain ⟨d, hd⟩ := h.streams
  refine ⟨h.initialized, ?_, fun i => ?_, fun a => ?_, ?_, by rw [h.lock]; rfl, ?_, ?_, fun a => ?_,
    fun a => ?_⟩
  · rw [h.count, hr.count, hlen]
  · rw [h.streamAddr, h.creations]
    by_cases hi : i = id
    · subst hi
      rw [Function.update_self, hid, Int.toNat_natCast, List.getElem?_concat_length]
      rfl
    · have hne : i.val.toNat ≠ w.creations.length := by
        intro he
        refine hi (Ranged.ext ?_)
        have := i.ge
        omega
      rw [Function.update_of_ne hi, hr.addr]
      by_cases hlt : i.val.toNat < w.creations.length
      · rw [List.getElem?_append_left hlt]
      · rw [List.getElem?_eq_none (by omega), List.getElem?_eq_none]
        rw [List.length_append, List.length_singleton]
        omega
  · rw [h.known, hstreams]
    by_cases ha : a = stream
    · subst ha
      rw [Function.update_self, if_pos (by simp)]
    · rw [Function.update_of_ne ha, hr.known]
      simp [ha]
  · rw [h.supply, hr.supply, hlen]
  · rw [hstreams, ← List.concat_eq_append]
    exact List.Nodup.concat hnew hr.distinct
  · intro a ha
    rw [hstreams, List.mem_append, List.mem_singleton] at ha
    rw [hd]
    by_cases hs : a = stream
    · rw [hs, Function.update_self]
      rfl
    · rw [Function.update_of_ne hs]
      exact hr.deployed a (ha.resolve_right hs)
  · rw [h.creations, hsenders]
    exact indexes_update (c := ⟨p.sender, p.recipient, stream⟩) hr.senders hix hid a
  · rw [h.creations, hrecipients]
    exact indexes_update (c := ⟨p.sender, p.recipient, stream⟩) hr.recipients hix' hid a

end

/-! ### The creations of a call -/

/-- The requests a call creates streams for. -/
def Call.requests : Call → List StreamInitParams
  | .createStream p _ => [p]
  | .batchCreateStreams configs => configs
  | .createBatchStreams sender requests clawback => requests.map fun r => r.params sender clawback
  | _ => []

/-- The entry points that create streams. -/
def Call.isCreation : Call → Bool
  | .createStream .. | .batchCreateStreams _ | .createBatchStreams .. => true
  | _ => false

/-- A creation for a request, at the address that the registry gives to its id. -/
def Makes (host : Host) (env : Env) (config : GovernorConfig) (w : World)
    (m : StreamInitParams × Address) (w' : World) : Prop :=
  env.authorized m.1.sender = true ∧ ∃ now description id, validateStreamRequest env m.1 = .ok now ∧
    createStreamWithConfig host env config now m.1 description w = .ok (id, w') ∧
    w'.factory.streamAddr id = some m.2

section

variable {host : Host} {env : Env} {config : GovernorConfig} {p : StreamInitParams} {now id : U64}
variable {description : Option Bytes} {w w' : World}

theorem after_eq_ok {α : Type} {r : Result (α × World)} : after r = .ok w' ↔ ∃ x, r = .ok (x, w') := by
  simp only [after, bind_eq_ok, pure_eq_ok, Prod.exists]
  constructor
  · rintro ⟨x, _, h, rfl⟩
    exact ⟨x, h⟩
  · rintro ⟨x, h⟩
    exact ⟨x, w', h, rfl⟩

theorem makes_of_create (hauth : env.authorized p.sender = true)
    (hnow : validateStreamRequest env p = .ok now)
    (hcreate : createStreamWithConfig host env config now p description w = .ok (id, w')) :
    ∃ m : StreamInitParams × Address, m.1 = p ∧ Makes host env config w m w' := by
  obtain ⟨stream, hregisters⟩ := registers_of_create hcreate
  refine ⟨(p, stream), rfl, hauth, now, description, id, hnow, hcreate, ?_⟩
  rw [hregisters.streamAddr, Function.update_self]

/-- A successful creation call makes one stream for each of its requests, one after the other. -/
theorem makes_of_exec {c : Call} (h : exec host env w c = .ok w') (hc : c.isCreation = true) :
    ∃ w₁ config made, requireNotPaused env w = .ok w₁ ∧ readConfig host w₁ = .ok config ∧
      made.map Prod.fst = c.requests ∧ Run (Makes host env config) w₁ made w' := by
  cases c with
  | createStream p description =>
      obtain ⟨id, h⟩ := after_eq_ok.mp h
      simp only [createStream, bind_eq_ok, requireAuth_eq_ok] at h
      obtain ⟨-, hauth, w₁, hpause, now, hnow, -, -, config, hconfig, hcreate⟩ := h
      obtain ⟨m, hm, hmakes⟩ := makes_of_create hauth hnow hcreate
      refine ⟨w₁, config, [m], hpause, hconfig, ?_, Run.snoc (.nil _) hmakes⟩
      rw [List.map_singleton, hm]
      rfl
  | batchCreateStreams configs =>
      obtain ⟨addrs, h⟩ := after_eq_ok.mp h
      simp only [batchCreateStreams, bind_eq_ok] at h
      obtain ⟨-, -, -, -, w₁, hpause, config, hconfig, h⟩ := h
      have hturn : ∀ p (acc acc' : List Address × World),
          createFromConfig host env config acc p = .ok acc' →
          ∃ m : StreamInitParams × Address, m.1 = p ∧ Makes host env config acc.2 m acc'.2 := by
        intro p acc acc' hturn
        simp only [createFromConfig, bind_eq_ok, pure_eq_ok, requireAuth_eq_ok] at hturn
        obtain ⟨-, hauth, now, hnow, ⟨id, w₂⟩, hcreate, addr, -, rfl⟩ := hturn
        exact makes_of_create hauth hnow hcreate
      obtain ⟨made, hmade, hrun⟩ := Run.exists_of_foldlM hturn h
      exact ⟨w₁, config, made, hpause, hconfig, hmade.trans (List.map_id' _), hrun⟩
  | createBatchStreams sender requests clawback =>
      obtain ⟨ids, h⟩ := after_eq_ok.mp h
      simp only [createBatchStreams, bind_eq_ok, requireAuth_eq_ok] at h
      obtain ⟨-, -, -, -, -, hauth, w₁, hpause, config, hconfig, h⟩ := h
      have hturn : ∀ r (acc acc' : List U64 × World),
          createFromRequest host env config sender clawback acc r = .ok acc' →
          ∃ m : StreamInitParams × Address, m.1 = r.params sender clawback ∧
            Makes host env config acc.2 m acc'.2 := by
        intro r acc acc' hturn
        simp only [createFromRequest, bind_eq_ok, pure_eq_ok] at hturn
        obtain ⟨now, hnow, ⟨id, w₂⟩, hcreate, rfl⟩ := hturn
        exact makes_of_create hauth hnow hcreate
      obtain ⟨made, hmade, hrun⟩ := Run.exists_of_foldlM hturn h
      exact ⟨w₁, config, made, hpause, hconfig, hmade, hrun⟩
  | _ => cases hc

end

end Drip.Factory
