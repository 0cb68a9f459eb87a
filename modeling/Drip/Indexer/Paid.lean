import Drip.Stream.Completion
import Drip.Indexer.Decimals
import Drip.Indexer.Projection
import Drip.Indexer.Totals

/-!
# Indexer — Paid

What a stream has paid to its recipient: as the contract has it, as its log has it, and as the two tables
have it that its events are folded into.

* `paidBy`: the withdrawals of a log.  `paid_of_called`: to them a stream adds what it adds to `withdrawn`,
  until it is cancelled.
* `Tallies s t db`: the row of the stream `s` and its rows of `stream_withdrawals` both come to `t`.
* `tallies_iff`: a withdrawal is added to both exactly where the row has not seen its ledger.
* `paid_of_run`: along every run.
-/

namespace Drip.Indexer
open Chain

variable {d : Decoder} {here : Address} {db db' : Database} {ev : RawEvent} {s : String} {t : Int}
variable {ledger : U32} {txHash : String} {p : Stream.Published} {ps : List Stream.Published}
variable {e : Stream.Event} {es es' : List Stream.Event} {history : List RawEvent}

/-! ### The log -/

def payment : Stream.Event → Int
  | .withdrawn _ amount _ _ => amount.val
  | _ => 0

def paidBy (es : List Stream.Event) : Int := (es.map payment).sum

theorem paidBy_append : paidBy (es ++ es') = paidBy es + paidBy es' := by
  simp [paidBy]

def IsWithdrawn : Stream.Event → Bool
  | .withdrawn .. => true
  | _ => false

theorem payment_eq_zero (h : IsWithdrawn e = false) : payment e = 0 := by
  cases e with
  | withdrawn => cases h
  | _ => rfl

theorem paidBy_eq_zero (h : ∀ e ∈ es, IsWithdrawn e = false) : paidBy es = 0 := by
  refine List.sum_eq_zero fun n hn => ?_
  obtain ⟨e, he, rfl⟩ := List.mem_map.mp hn
  exact payment_eq_zero (h e he)

theorem isWithdrawn_of_quiet (h : e.IsQuiet = true) : IsWithdrawn e = false := by
  cases e with
  | withdrawn => cases h
  | _ => rfl

/-- A withdrawal is told first, and no other call tells one. -/
def Recounts (c : Stream.Call) (es : List Stream.Event) : Prop :=
  match c with
  | .withdraw _ => ∃ recipient x total remaining rest, 0 < x.val ∧ (∀ e ∈ rest, e.IsQuiet = true) ∧
      es = .withdrawn recipient x total remaining :: rest
  | _ => ∀ e ∈ es, IsWithdrawn e = false

variable {env : Env} {c : Stream.Call} {m : Stream.Moment} {st : Stream.State}
variable {info info' : Stream.StreamInfo} {kept : Int}

/-- The calls that are no withdrawals tell none. -/
theorem isWithdrawn_of_turn (hc : ∀ amount, c ≠ .withdraw amount) (h : Stream.Turn info info' c es) :
    ∀ e ∈ es, IsWithdrawn e = false := by
  cases h with
  | quiet _ hes _ => exact fun e he => isWithdrawn_of_quiet (hes e he)
  | withdraw _ _ => exact absurd rfl (hc _)
  | topUp | extendDuration | pause | resume | cancel | forceCancel | clawback | transferRecipient =>
      intro e he
      obtain rfl := List.mem_singleton.mp he
      rfl

theorem open_of_called (hc : Stream.Called here m info env c st info' kept)
    (hopen : info'.isCancelled = false) : info.isCancelled = false := by
  have hcancelled : info'.isCancelled = _ := congrArg Stream.Escrow.cancelled hc.effect.escrow
  cases c with
  | cancel | forceCancel => cases hopen.symm.trans hcancelled
  | _ => exact hcancelled.symm.trans hopen

/-- Nor do they add to what was withdrawn, unless they cancel the stream. -/
theorem withdrawn_of_called (hc : Stream.Called here m info env c st info' kept)
    (hne : ∀ amount, c ≠ .withdraw amount) (hopen : info'.isCancelled = false) :
    info'.withdrawn.val = info.withdrawn.val := by
  have hwithdrawn : info'.withdrawn.val = _ := congrArg Stream.Escrow.withdrawn hc.effect.escrow
  have hcancelled : info'.isCancelled = _ := congrArg Stream.Escrow.cancelled hc.effect.escrow
  rw [hwithdrawn]
  cases c with
  | withdraw amount => exact absurd rfl (hne amount)
  | cancel | forceCancel => cases hopen.symm.trans hcancelled
  | _ => rfl

/-- Until it is cancelled, a stream counts what its log tells. -/
theorem paid_of_called (hc : Stream.Called here m info env c st info' kept)
    (h : Stream.exec env m.state c = .ok st) :
    ∃ es, st.log = m.state.log ++ es ∧ Recounts c es ∧
      (info'.isCancelled = false → info'.withdrawn.val = info.withdrawn.val + paidBy es) := by
  have hi := hc.before.config
  have hw := hc.before.withdrawn_nonneg
  by_cases hdraws : ∃ amount, c = .withdraw amount
  · obtain ⟨amount, rfl⟩ := hdraws
    obtain ⟨x, total, remaining, hwithdrew⟩ := Stream.withdrew_of_exec hi hw h
    have hquiet : ∀ e ∈ Stream.cliffNotice env m.state info ++ Stream.completionNotice m.state info
        (m.state.balance info.token env.contract) remaining total, e.IsQuiet = true := by
      intro e he
      rcases List.mem_append.mp he with he | he
      · exact Stream.cliffNotice_isQuiet e he
      · exact Stream.completionNotice_isQuiet e he
    refine ⟨_, hwithdrew.log, ⟨_, x, total, remaining, _, hwithdrew.pos, hquiet, rfl⟩, fun _ => ?_⟩
    have hwithdrawn : info'.withdrawn.val = info.withdrawn.val + _ :=
      congrArg Stream.Escrow.withdrawn hc.effect.escrow
    have hrest := paidBy_eq_zero fun e he => isWithdrawn_of_quiet (hquiet e he)
    rw [hwithdrawn, ← hwithdrew.paid_eq hc.sound]
    show _ = info.withdrawn.val + (x.val + paidBy _)
    rw [hrest, add_zero]
  · have hne : ∀ amount, c ≠ .withdraw amount := fun amount heq => hdraws ⟨amount, heq⟩
    obtain ⟨info₁, es, hi₁, hlog, hturn, -⟩ := Stream.turn_of_exec hi hw h
    have hfree := isWithdrawn_of_turn hne hturn
    refine ⟨es, hlog, ?_, fun hopen => ?_⟩
    · cases c with
      | withdraw amount => exact absurd rfl (hne amount)
      | _ => exact hfree
    · rw [paidBy_eq_zero hfree, add_zero, withdrawn_of_called hc hne hopen]

/-! ### The amounts of events -/

/-- The decoder keeps the amount of a withdrawal, as `types.ts` says. -/
def Decoder.KeepsAmounts (d : Decoder) : Prop :=
  ∀ n recipient x total remaining,
    (d.fields ⟨n, .withdrawn recipient x total remaining⟩).lookup "amount" = some (amountText x.val)

theorem keepsAmounts_ofText (text : Address → String) (h : Function.Injective text) :
    (Decoder.ofText text h).KeepsAmounts := fun _ _ _ _ _ => rfl

theorem amount_delivered (hd : d.KeepsAmounts) {n : U64} {recipient : Address} {x total remaining : I128}
    (hx : 0 ≤ x.val) :
    (d.delivered here ledger txHash ⟨n, .withdrawn recipient x total remaining⟩).drawn = x.val := by
  obtain ⟨k, hk⟩ := Int.eq_ofNat_of_zero_le hx
  have htext : RawEvent.text (d.delivered here ledger txHash ⟨n, .withdrawn recipient x total remaining⟩)
      "amount" (.num 0) = toString k := by
    unfold RawEvent.text RawEvent.get
    show (Value.or (((d.fields ⟨n, .withdrawn recipient x total remaining⟩).lookup "amount").getD .null)
      _).text = _
    rw [hd, hk]
    rfl
  refine (amountOf_eq rfl ?_).trans hk.symm
  unfold RawEvent.amount
  rw [htext, bigInt_toString]

theorem drawn_delivered (hfree : IsWithdrawn p.event = false) :
    (d.delivered here ledger txHash p).drawn = 0 := by
  obtain ⟨n, e⟩ := p
  refine amountOf_eq_zero ?_
  cases e with
  | withdrawn => cases hfree
  | _ => exact of_decide_eq_true rfl

/-! ### One event -/

/-- The row of the stream, and its rows of `stream_withdrawals`, both come to `t`. -/
structure Tallies (s : String) (t : Int) (db : Database) : Prop where
  listed : listed s db.streamWithdrawals = t
  row : ∀ row, db.streamStates s = some row → row.withdrawn.val = t

/-- An event without a withdrawal, or of another stream. -/
theorem tallies_of_still (hk : Kept ⟨db, history⟩) (h : foldEvent db ev = .ok db')
    (hstill : ev.streamId = s → ev.drawn = 0) (ht : Tallies s t db) : Tallies s t db' := by
  have he := effect_of_fold h
  by_cases hid : ev.streamId = s
  · subst hid
    have hd := hstill rfl
    refine ⟨(listed_of_zero he hd).trans ht.listed, fun row hrow => ?_⟩
    by_cases hstream : ev.OfStream
    · obtain ⟨new, htable, hmerged⟩ := he.row hstream
      rw [htable, Function.update_self] at hrow
      obtain rfl := Option.some.inj hrow
      cases hold : db.streamStates ev.streamId with
      | none =>
          -- a new row comes to nothing, and so does the list
          rw [hold] at hmerged
          cases hmerged with
          | created _ hwithdrawn _ =>
              rw [hwithdrawn, hd, ← ht.listed]
              exact (listed_of_none hk hold).symm
      | some old =>
          rw [hold] at hmerged
          cases hmerged with
          | merged _ hwithdrawn _ => rw [hwithdrawn, hd, ite_self, add_zero, ht.row old hold]
    · rw [he.rows hstream] at hrow
      exact ht.row row hrow
  · refine ⟨(listed_of_other he hid).trans ht.listed, fun row hrow => ?_⟩
    rw [row_of_other he fun hs => hid hs.2] at hrow
    exact ht.row row hrow

/-- A withdrawal is added to both exactly where the row has not seen its ledger. -/
theorem tallies_iff (hk : Kept ⟨db, history⟩) (h : foldEvent db ev = .ok db') (hpos : 0 < ev.drawn)
    (ht : Tallies ev.streamId t db) : Tallies ev.streamId (t + ev.drawn) db' ↔
      ∀ row ∈ db.streamStates ev.streamId, row.updatedLedger.val < ev.ledger.val := by
  have he := effect_of_fold h
  have hstream : ev.OfStream := by
    by_contra hforeign
    exact hpos.ne' (amounts_of_foreign hforeign).1
  obtain ⟨new, htable, hmerged⟩ := he.row hstream
  have hnew : db'.streamStates ev.streamId = some new := by rw [htable, Function.update_self]
  cases hold : db.streamStates ev.streamId with
  | none => exact absurd (drawn_of_none hk he hold) hpos.ne'
  | some old =>
      rw [hold] at hmerged
      cases hmerged with
      | merged _ hwithdrawn _ =>
          rw [ht.row old hold] at hwithdrawn
          constructor
          · intro htallies row hrow
            obtain rfl := Option.some.inj hrow
            by_contra hseen
            have hrow := htallies.row new hnew
            rw [hwithdrawn, if_neg hseen] at hrow
            omega
          · intro hunseen
            have hlt := hunseen old rfl
            refine ⟨(listed_of_newer hk he hold hlt).trans ?_, fun row hrow => ?_⟩
            · rw [ht.listed]
            · obtain rfl := Option.some.inj (hnew.symm.trans hrow)
              rw [hwithdrawn, if_pos hlt]

/-! ### The events of a call -/

theorem kept_of_foldlM {evs : List RawEvent} (hk : Kept ⟨db, history⟩)
    (h : evs.foldlM foldEvent db = .ok db') : Kept ⟨db', history ++ evs⟩ := by
  induction evs generalizing db history with
  | nil =>
      cases h
      rw [List.append_nil]
      exact hk
  | cons ev evs ih =>
      rw [List.foldlM_cons, bind_eq_ok] at h
      obtain ⟨db₁, hfold, h⟩ := h
      rw [List.append_cons]
      exact ih (kept_of_fold hk (.fold hfold)) h

/-- No withdrawal among them. -/
theorem tallies_of_free (hk : Kept ⟨db, history⟩) (hfree : ∀ p ∈ ps, IsWithdrawn p.event = false)
    (h : (ps.map (d.delivered here ledger txHash)).foldlM foldEvent db = .ok db') (ht : Tallies s t db) :
    Tallies s t db' := by
  induction ps generalizing db history with
  | nil =>
      cases h
      exact ht
  | cons p ps ih =>
      rw [List.map_cons, List.foldlM_cons, bind_eq_ok] at h
      obtain ⟨db₁, hfold, h⟩ := h
      have hd : (d.delivered here ledger txHash p).drawn = 0 := drawn_delivered (hfree p List.mem_cons_self)
      exact ih (kept_of_fold hk (.fold hfold)) (fun q hq => hfree q (List.mem_cons_of_mem p hq)) h
        (tallies_of_still hk hfold (fun _ => hd) ht)

/-- What is said after a withdrawal is not folded. -/
theorem tallies_of_quiet (hquiet : ∀ p ∈ ps, p.event.IsQuiet = true)
    (h : (ps.map (d.delivered here ledger txHash)).foldlM foldEvent db = .ok db') :
    Tallies s t db' ↔ Tallies s t db := by
  induction ps generalizing db with
  | nil =>
      cases h
      rfl
  | cons p ps ih =>
      rw [List.map_cons, List.foldlM_cons, bind_eq_ok] at h
      obtain ⟨db₁, hfold, h⟩ := h
      have he := effect_of_fold hfold
      have hforeign : ¬ (d.delivered here ledger txHash p).OfStream :=
        ofStream_of_quiet (hquiet p List.mem_cons_self)
      have hlisted : listed s db₁.streamWithdrawals = listed s db.streamWithdrawals :=
        listed_of_zero he (amounts_of_foreign hforeign).1
      refine (ih (fun q hq => hquiet q (List.mem_cons_of_mem p hq)) h).trans ⟨?_, ?_⟩
      · exact fun ht => ⟨hlisted.symm.trans ht.listed, fun row hrow => ht.row row (he.rows hforeign ▸ hrow)⟩
      · exact fun ht => ⟨hlisted.trans ht.listed, fun row hrow => ht.row row (he.rows hforeign ▸ hrow)⟩

def isWithdrawal : Stream.Call → Bool
  | .withdraw _ => true
  | _ => false

/-- The calls that are counted: all but the withdrawals of a ledger that the row has seen. -/
def CallMetered (c : Stream.Call) (ledger : U32) (stored : Option StreamState) : Prop :=
  isWithdrawal c = true → ∀ row ∈ stored, row.updatedLedger.val < ledger.val

instance {stored : Option StreamState} : Decidable (CallMetered c ledger stored) :=
  inferInstanceAs (Decidable (_ → ∀ row ∈ stored, _))

theorem tallies_iff_metered (hd : d.KeepsAmounts) (hk : Kept ⟨db, history⟩)
    (hes : ps.map Stream.Published.event = es) (hrecounts : Recounts c es)
    (h : (ps.map (d.delivered here ledger txHash)).foldlM foldEvent db = .ok db')
    (ht : Tallies (d.text here) t db) : Tallies (d.text here) (t + paidBy es) db' ↔
      CallMetered c ledger (db.streamStates (d.text here)) := by
  cases hc : isWithdrawal c with
  | false =>
      have hfree : ∀ e ∈ es, IsWithdrawn e = false := by
        cases c with
        | withdraw => cases hc
        | _ => exact hrecounts
      refine iff_of_true ?_ fun hdraws => ?_
      · rw [paidBy_eq_zero hfree, add_zero]
        exact tallies_of_free hk (fun p hp => hfree _ (hes ▸ List.mem_map_of_mem hp)) h ht
      · rw [hc] at hdraws
        cases hdraws
  | true =>
      obtain ⟨amount, rfl⟩ : ∃ amount, c = .withdraw amount := by
        cases c with
        | withdraw amount => exact ⟨amount, rfl⟩
        | _ => cases hc
      obtain ⟨recipient, x, total, remaining, rest, hpos, hquiet, rfl⟩ := hrecounts
      obtain ⟨⟨n, e⟩, ps, rfl, rfl, rfl⟩ := List.map_eq_cons_iff.mp hes
      rw [List.map_cons, List.foldlM_cons, bind_eq_ok] at h
      obtain ⟨db₁, hfold, h⟩ := h
      have hrest : paidBy (ps.map Stream.Published.event) = 0 :=
        paidBy_eq_zero fun e he => isWithdrawn_of_quiet (hquiet e he)
      have hpaid : paidBy (.withdrawn recipient x total remaining :: ps.map Stream.Published.event) =
          x.val := by
        show x.val + paidBy _ = x.val
        rw [hrest, add_zero]
      have hdrawn : (d.delivered here ledger txHash ⟨n, .withdrawn recipient x total remaining⟩).drawn =
          x.val := amount_delivered hd hpos.le
      have hid : (d.delivered here ledger txHash ⟨n, .withdrawn recipient x total remaining⟩).streamId =
          d.text here := streamId_delivered
      have hiff := tallies_iff hk hfold (by rw [hdrawn]; exact hpos) (by rw [hid]; exact ht)
      rw [hid, hdrawn] at hiff
      rw [hpaid, tallies_of_quiet (fun p hp => hquiet _ (List.mem_map_of_mem hp)) h, hiff]
      exact ⟨fun hunseen _ => hunseen, fun hmetered => hmetered rfl⟩

/-! ### Runs -/

/-- The stream, its log and the tables agree on what it has paid; a cancelled stream has paid a last share
besides. -/
def Paid (d : Decoder) (here : Address) (v : View) : Prop :=
  ∃ info, v.moment.state.store.config = some info ∧
    (info.isCancelled = false → info.withdrawn.val = paidBy v.moment.state.log) ∧
    Tallies (d.text here) (paidBy v.moment.state.log) v.db

/-- The deliveries that are counted. -/
def Metered (d : Decoder) (here : Address) (v : View) : Delivery → Prop
  | .stream (.call _ c) ledger _ => CallMetered c ledger (v.db.streamStates (d.text here))
  | _ => True

instance {v : View} : DecidablePred (Metered d here v)
  | .stream (.call ..) .. => inferInstanceAs (Decidable (CallMetered ..))
  | .stream (.outside _) .. | .other _ => .isTrue trivial

variable {v v' v₀ : View} {l : Delivery} {ls : List Delivery} {args : Stream.InitArgs}

/-- What every run keeps, counted or not. -/
def Booked (here : Address) (v : View) : Prop :=
  ∃ info history, Stream.Sound here v.moment.state info v.moment.clock.val ∧
    (info.isCancelled = false → info.withdrawn.val = paidBy v.moment.state.log) ∧ Kept ⟨v.db, history⟩

/-- A call: what it adds to the log, and what is folded of it. -/
theorem booked_call (hs : Stream.Sound here v.moment.state info v.moment.clock.val)
    (h : Follow d here v (.stream (.call env c) ledger txHash) v') :
    ∃ (info' : Stream.StreamInfo) (ps : List Stream.Published) (es : List Stream.Event),
      Stream.Sound here v'.moment.state info' v'.moment.clock.val ∧
      v'.moment.state.log = v.moment.state.log ++ es ∧ Recounts c es ∧ ps.map Stream.Published.event = es ∧
      (info'.isCancelled = false → info.isCancelled = false ∧
        info'.withdrawn.val = info.withdrawn.val + paidBy es) ∧
      (ps.map (d.delivered here ledger txHash)).foldlM foldEvent v.db = .ok v'.db := by
  cases h with
  | stream hstep hnew hfold =>
      rename_i m ps db
      cases hstep with
      | call henv hclock hexec =>
          obtain ⟨info', kept, hc⟩ := Stream.called_of_exec hs henv hclock hexec
          obtain ⟨es, hlog, hrecounts, hpaid⟩ := paid_of_called hc hexec
          have hes : ps.map Stream.Published.event = es := by
            have hboth := congrArg (List.map Stream.Published.event) hnew
            rw [List.map_append] at hboth
            exact List.append_cancel_left (hboth.symm.trans hlog)
          have hs' : Stream.Sound here _ info' env.timestamp.val := henv ▸ hc.effect.sound
          exact ⟨info', ps, es, hs', hlog, hrecounts, hes, fun hopen => ⟨open_of_called hc hopen, hpaid hopen⟩,
            hfold⟩

theorem Booked.step (hstep : Follow d here v l v') (h : Booked here v) : Booked here v' := by
  obtain ⟨info, history, hs, hwithdrawn, hk⟩ := h
  cases l with
  | other ev =>
      cases hstep with
      | other hother hfold => exact ⟨info, _, hs, hwithdrawn, kept_of_fold hk (.fold hfold)⟩
  | stream a ledger txHash =>
      cases a with
      | outside tokens =>
          obtain ⟨hstate, hclock, hdb⟩ := follow_outside hstep
          refine ⟨info, history, by rw [hstate, hclock]; exact hs.outside, ?_, hdb ▸ hk⟩
          rw [hstate]
          exact hwithdrawn
      | call env c =>
          obtain ⟨info', ps, es, hs', hlog, -, -, hpaid, hfold⟩ := booked_call hs hstep
          refine ⟨info', _, hs', fun hopen => ?_, kept_of_foldlM hk hfold⟩
          obtain ⟨hopen₀, hadds⟩ := hpaid hopen
          rw [hadds, hwithdrawn hopen₀, hlog, paidBy_append]

theorem paid_iff (hd : d.KeepsAmounts) (hstep : Follow d here v l v') (hb : Booked here v)
    (hp : Paid d here v) : Paid d here v' ↔ Metered d here v l := by
  obtain ⟨info₁, history₁, hs₁, hwithdrawn₁, -⟩ := hb.step hstep
  -- what the stream counts is right in any case
  have htables : Paid d here v' ↔ Tallies (d.text here) (paidBy v'.moment.state.log) v'.db := by
    constructor
    · rintro ⟨_, -, -, ht⟩
      exact ht
    · exact fun ht => ⟨info₁, hs₁.config, hwithdrawn₁, ht⟩
  obtain ⟨info, history, hs, -, hk⟩ := hb
  obtain ⟨-, -, -, ht⟩ := hp
  rw [htables]
  cases l with
  | other ev =>
      cases hstep with
      | other hother hfold =>
          exact iff_of_true (tallies_of_still hk hfold (fun hid => absurd hid hother) ht) trivial
  | stream a ledger txHash =>
      cases a with
      | outside tokens =>
          obtain ⟨hstate, -, hdb⟩ := follow_outside hstep
          refine iff_of_true ?_ trivial
          rw [hstate, hdb]
          exact ht
      | call env c =>
          obtain ⟨info', ps, es, -, hlog, hrecounts, hes, -, hfold⟩ := booked_call hs hstep
          rw [hlog, paidBy_append]
          exact tallies_iff_metered hd hk hes hrecounts hfold ht

/-- **What the tables say was paid was paid.**  From a new stream without a row, the runs in which the stream,
its log and the tables agree after every delivery are exactly those whose withdrawals come each in a ledger
that the row has not seen. -/
theorem paid_of_run (hd : d.KeepsAmounts) (hborn : Stream.Born here args v₀.moment)
    (hdb : Run Fold .fresh history ⟨v₀.db, history⟩) (hnone : v₀.db.streamStates (d.text here) = none) :
    (Run (fun v l v' => Follow d here v l v' ∧ Paid d here v') v₀ ls v ↔
      Run (fun v l v' => Follow d here v l v' ∧ Metered d here v l) v₀ ls v) ∧
    (Run (fun v l v' => Follow d here v l v' ∧ Metered d here v l) v₀ ls v → Paid d here v) := by
  have hs := Stream.sound_of_born hborn
  have hk : Kept ⟨v₀.db, history⟩ :=
    hdb.invariant (P := Kept) (fun _ hfold hk => kept_of_fold hk hfold) kept_fresh
  have hlog : paidBy v₀.moment.state.log = 0 := by
    rw [(Stream.log_of_born hborn).1]
    rfl
  have hwithdrawn : (Stream.initialInfo args).isCancelled = false →
      (Stream.initialInfo args).withdrawn.val = paidBy v₀.moment.state.log := by
    intro _
    rw [hlog]
    rfl
  refine Run.keeps_spec (Q := Booked here) (fun v l v' hstep => Booked.step hstep)
    (fun v l v' hstep => paid_iff hd hstep) ⟨_, _, hs, hwithdrawn, hk⟩ ⟨_, hs.config, hwithdrawn, ?_⟩
  rw [hlog]
  refine ⟨listed_of_none hk hnone, fun row hrow => ?_⟩
  rw [hnone] at hrow
  cases hrow

namespace Sample

/-- A call of the sample stream that is counted. -/
def meter (v : View) (l : Delivery) : Option View :=
  if Metered decoder Stream.Sample.address v l then follow v l else none

theorem meter_of_eq_some {v v' : View} {l : Delivery} (h : meter v l = some v') :
    Follow decoder Stream.Sample.address v l v' ∧ Metered decoder Stream.Sample.address v l := by
  unfold meter at h
  split at h
  · rename_i hmetered
    exact ⟨follow_of_eq_some h, hmetered⟩
  · cases h

end Sample

/-- A top-up, two withdrawals and a cancellation, each in a ledger of its own. -/
theorem paid_of_run_drawn :
    let v := Run.reached Sample.meter Sample.unfollowed
      [Sample.made (.lit 200) (.topUp Stream.Sample.sender (.lit 500)) (.lit 1) "a",
        Sample.made (.lit 300) (.withdraw (.lit 50)) (.lit 2) "b",
        Sample.made (.lit 310) (.withdraw (.lit 20)) (.lit 3) "c",
        Sample.made (.lit 320) (.cancel Stream.Sample.sender) (.lit 4) "d"]
    Paid Sample.decoder Stream.Sample.address v ∧
      (v.db.streamStates (Sample.text Stream.Sample.address)).map (·.withdrawn.val) = some 70 := by
  intro v
  have hrun : Run (fun v l v' => Follow Sample.decoder Stream.Sample.address v l v' ∧
      Metered Sample.decoder Stream.Sample.address v l) Sample.unfollowed _ v :=
    Run.run_reached (fun _ => Sample.meter_of_eq_some) (by decide +kernel)
  have hd : Sample.decoder.KeepsAmounts := keepsAmounts_ofText _ _
  exact ⟨(paid_of_run hd Sample.born_unfollowed (.nil _) rfl).2 hrun, by decide +kernel⟩

end Drip.Indexer
