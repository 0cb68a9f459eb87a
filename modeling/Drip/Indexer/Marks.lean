import Drip.Indexer.Effects

/-!
# Indexer — Marks

What folding an event does to the columns that are no amounts: the flags and the recipient of a stream, and
the rows of the three voting tables, seen as one table of ballots.

* `marks_of_fold`: how the row of the event's stream came about.
* `cast_of_fold`: how the ballot of the event came about.
-/

namespace Drip.Indexer
open Chain

variable {db db' : Database} {ev : RawEvent} {row : StreamState}

/-! ### Streams -/

/-- What the event sets `paused` to. -/
def RawEvent.toggle (ev : RawEvent) : Option Bool :=
  if ev.eventType = "stream_paused" then some true
  else if ev.eventType = "stream_resumed" then some false
  else none

/-- The event sets `cancelled`. -/
def RawEvent.cancels (ev : RawEvent) : Bool :=
  ev.eventType = "stream_cancelled" || ev.eventType = "stream_clawback"

/-- The recipient the event names. -/
def RawEvent.payee (ev : RawEvent) : String :=
  if ev.eventType = "xfer_rec" then ev.text₂ "new_recipient" "newRecipient" else ev.text "recipient"

/-- The flags and the recipient of the event's stream: as the row was created, or as they were before with
what the event sets. -/
inductive Marked (ev : RawEvent) : Option StreamState → StreamState → Prop where
  | created {new : StreamState} (hcancelled : new.cancelled = ev.cancels)
      (hpaused : new.paused = ev.toggle.getD false) (hrecipient : new.recipient = ev.payee) :
      Marked ev none new
  | merged {old new : StreamState} (hcancelled : new.cancelled = (old.cancelled || ev.cancels))
      (hpaused : new.paused = ev.toggle.getD old.paused)
      (hrecipient : new.recipient =
        if ev.eventType = "xfer_rec" ∧ old.updatedLedger.val < ev.ledger.val then ev.payee
        else old.recipient)
      (hframe : new.sender = old.sender ∧ new.token = old.token ∧
        new.ratePerSecond = old.ratePerSecond) :
      Marked ev (some old) new

theorem streamRow_marks {recipient : String} {deposit : Except Failure I64}
    (h : ev.streamRow recipient deposit = .ok row) :
    row.recipient = recipient ∧ row.paused = false ∧ row.cancelled = false := by
  simp only [RawEvent.streamRow, bind_eq_ok, column_eq_ok, pure_eq_ok] at h
  obtain ⟨_, -, _, -, _, ⟨-, rfl⟩, _, -, _, -, _, -, rfl⟩ := h
  exact ⟨rfl, rfl, rfl⟩

theorem marked_of_upsert {stored : Option StreamState} {new : StreamState}
    {merges : StreamState → Prop}
    (hnew : stored = none ∧ new = row ∨ ∃ old, stored = some old ∧ merges old)
    (hcreated : Marked ev none row) (hmerged : ∀ old, merges old → Marked ev (some old) new) :
    Marked ev stored new := by
  rcases hnew with ⟨rfl, rfl⟩ | ⟨old, rfl, hnew⟩
  · exact hcreated
  · exact hmerged old hnew

/-- The row of the event's stream after the fold, with what it was marked with. -/
def Marks (db : Database) (ev : RawEvent) (db' : Database) : Prop :=
  ∃ new, db'.streamStates = Function.update db.streamStates ev.streamId (some new) ∧
    Marked ev (db.streamStates ev.streamId) new

theorem payee_of_other (h : ev.eventType ≠ "xfer_rec") : ev.payee = ev.text "recipient" := if_neg h

theorem marks_of_markStream {mark : StreamState → StreamState} (h : markStream mark db ev = .ok db')
    (hkind : ev.eventType ≠ "xfer_rec")
    (hmark : ∀ row : StreamState, mark row =
      { row with cancelled := row.cancelled || ev.cancels, paused := ev.toggle.getD row.paused }) :
    Marks db ev db' := by
  simp only [markStream, bind_eq_ok, upsertStream_eq_ok] at h
  obtain ⟨row, hrow, new, rfl, hnew⟩ := h
  obtain ⟨hrecipient, hpaused, hcancelled⟩ := streamRow_marks hrow
  refine ⟨new, rfl, marked_of_upsert hnew ?_ fun old hnew => ?_⟩
  · rw [hmark]
    refine .created ?_ ?_ ?_
    · simp [hcancelled]
    · simp [hpaused]
    · rw [payee_of_other hkind]
      exact hrecipient
  · cases hnew
    rw [hmark]
    exact .merged rfl rfl (if_neg fun h => hkind h.1).symm ⟨rfl, rfl, rfl⟩

/-- A handler that sets no flag. -/
theorem plain_of_kind {kind : String} (hkind : ev.eventType = kind)
    (h : kind ∉ ["stream_paused", "stream_resumed", "stream_cancelled", "stream_clawback"]) :
    ev.toggle = none ∧ ev.cancels = false := by
  simp only [List.mem_cons, List.not_mem_nil, or_false, not_or] at h
  unfold RawEvent.toggle RawEvent.cancels
  rw [hkind]
  simp [h]

theorem marks_of_toppedUp (hkind : ev.eventType = "stream_topped_up")
    (h : handleStreamToppedUp db ev = .ok db') : Marks db ev db' := by
  simp only [handleStreamToppedUp, bind_eq_ok, pure_eq_ok, upsertStream_eq_ok] at h
  obtain ⟨amount, -, row, hrow, new, rfl, hnew⟩ := h
  obtain ⟨hrecipient, hpaused, hcancelled⟩ := streamRow_marks hrow
  obtain ⟨htoggle, hcancels⟩ := plain_of_kind hkind (by decide)
  have hother : ev.eventType ≠ "xfer_rec" := hkind.trans_ne (by decide)
  refine ⟨new, rfl, marked_of_upsert hnew ?_ fun old hnew => ?_⟩
  · exact .created (by rw [hcancelled, hcancels]) (by rw [hpaused, htoggle]; rfl)
      (by rw [payee_of_other hother, hrecipient])
  · obtain ⟨deposit, -, rfl⟩ := hnew
    refine .merged (by rw [hcancels, Bool.or_false]; rfl) (by rw [htoggle]; rfl) ?_ ⟨rfl, rfl, rfl⟩
    exact (if_neg fun h => hother h.1).symm

theorem marks_of_xferRec (hkind : ev.eventType = "xfer_rec") (h : handleXferRec db ev = .ok db') :
    Marks db ev db' := by
  simp only [handleXferRec, bind_eq_ok, upsertStream_eq_ok] at h
  obtain ⟨row, hrow, new, rfl, hnew⟩ := h
  obtain ⟨hrecipient, hpaused, hcancelled⟩ := streamRow_marks hrow
  obtain ⟨-, -, hseen⟩ := streamRow_spec hrow
  obtain ⟨htoggle, hcancels⟩ := plain_of_kind hkind (by decide)
  have hpayee : row.recipient = ev.payee := hrecipient.trans (if_pos hkind).symm
  refine ⟨new, rfl, marked_of_upsert hnew ?_ fun old hnew => ?_⟩
  · exact .created (by rw [hcancelled, hcancels]) (by rw [hpaused, htoggle]; rfl) hpayee
  · cases hnew
    refine .merged (by rw [hcancels, Bool.or_false]; rfl) (by rw [htoggle]; rfl) ?_ ⟨rfl, rfl, rfl⟩
    show (if old.updatedLedger.val < row.updatedLedger.val then _ else _) = _
    rw [hseen, hpayee]
    simp only [hkind, true_and]

theorem marks_of_withdrawn (hkind : ev.eventType = "stream_withdrawn")
    (h : handleStreamWithdrawn db ev = .ok db') : Marks db ev db' := by
  simp only [handleStreamWithdrawn, bind_eq_ok, pure_eq_ok, column_eq_ok, upsertStream_eq_ok] at h
  obtain ⟨amount, hamount, _, ⟨-, rfl⟩, _, ⟨-, rfl⟩, _, ⟨-, rfl⟩, x, hx, db₁, hins, row, hrow, new, rfl,
    hnew⟩ := h
  obtain ⟨hrecipient, hpaused, hcancelled⟩ := streamRow_marks hrow
  obtain ⟨htoggle, hcancels⟩ := plain_of_kind hkind (by decide)
  have hother : ev.eventType ≠ "xfer_rec" := hkind.trans_ne (by decide)
  have hd : ev.drawn = x.val := by
    rw [RawEvent.drawn, amountOf_eq hkind hamount, storedBigint_eq_ok.mp hx]
  obtain ⟨hdb₁, -⟩ := insertWithdrawal_spec hins hkind rfl hd.symm
  have hstates : db₁.streamStates = db.streamStates := by rw [hdb₁]
  rw [hstates] at hnew
  refine ⟨new, congrArg (fun t => Function.update t ev.streamId (some new)) hstates,
    marked_of_upsert hnew ?_ fun old hnew => ?_⟩
  · exact .created (by rw [hcancels]; exact hcancelled) (by rw [htoggle]; exact hpaused)
      (by rw [payee_of_other hother]; exact hrecipient)
  · obtain ⟨withdrawn, -, rfl⟩ := hnew
    refine .merged (by rw [hcancels, Bool.or_false]; rfl) (by rw [htoggle]; rfl) ?_ ⟨rfl, rfl, rfl⟩
    exact (if_neg fun h => hother h.1).symm

theorem marks_of_fold (h : foldEvent db ev = .ok db') (hstream : ev.OfStream) : Marks db ev db' := by
  rcases handler_of_fold h with ⟨-, hno, -⟩ | ⟨handler, hhandler, h⟩
  · exact absurd hstream hno
  · unfold handlerOf at hhandler
    split at hhandler
    case h_1 hk =>
        cases hhandler
        exact marks_of_withdrawn hk h
    case h_2 hk | h_3 hk | h_4 hk | h_6 hk =>
        cases hhandler
        refine marks_of_markStream h (hk.trans_ne (by decide)) fun row => ?_
        simp [RawEvent.cancels, RawEvent.toggle, hk]
    case h_5 hk =>
        cases hhandler
        exact marks_of_toppedUp hk h
    case h_7 hk =>
        cases hhandler
        exact marks_of_xferRec hk h
    case h_8 hk | h_9 hk | h_10 hk => exact absurd ((ofStream_iff hk).mp hstream) (by decide)
    case h_11 => cases hhandler

/-- The row an event of a stream leaves, with what was added to it and what it was marked with. -/
theorem row_of_stream (h : foldEvent db ev = .ok db') (hstream : ev.OfStream) : ∃ new,
    db'.streamStates = Function.update db.streamStates ev.streamId (some new) ∧
      Merged ev (db.streamStates ev.streamId) new ∧ Marked ev (db.streamStates ev.streamId) new := by
  obtain ⟨new, hnew, hmerged⟩ := (effect_of_fold h).row hstream
  obtain ⟨new', hnew', hmarked⟩ := marks_of_fold h hstream
  have hsame := congrFun (hnew.symm.trans hnew') ev.streamId
  rw [Function.update_self, Function.update_self, Option.some.injEq] at hsame
  exact ⟨new, hnew, hmerged, hsame ▸ hmarked⟩

/-! ### Ballots -/

inductive BallotTable where
  | loanVotes | treasuryVotes | treasuryReveals
deriving DecidableEq

/-- What a voter has said. -/
inductive Said where
  | vote (support : Bool) (weight : Int)
  | reveal (voteHash : String)
deriving DecidableEq

structure Ballot where
  said : Said
  ledger : Int
  txHash : String
deriving DecidableEq

/-- A table, the subject and the voter. -/
abbrev BallotKey := BallotTable × String × String

def Vote.ballot (v : Vote) : Ballot := ⟨.vote v.support v.weight.val, v.ledger.val, v.txHash⟩

def Reveal.ballot (r : Reveal) : Ballot := ⟨.reveal r.voteHash, r.ledger.val, r.txHash⟩

/-- The rows of the three tables as ballots. -/
def Database.ballots (db : Database) : BallotKey → Option Ballot
  | (.loanVotes, k) => (db.loanVotes k).map Vote.ballot
  | (.treasuryVotes, k) => (db.treasuryVotes k).map Vote.ballot
  | (.treasuryReveals, k) => (db.treasuryReveals k).map Reveal.ballot

def RawEvent.ballotKey (ev : RawEvent) : Option BallotKey :=
  if ev.eventType = "loan_vote" then some (.loanVotes, ev.text₂ "loan_id" "loanId", ev.text "voter")
  else if ev.eventType = "treasury_vote" then
    some (.treasuryVotes, ev.text₂ "proposal_id" "proposalId", ev.text "voter")
  else if ev.eventType = "treasury_reveal" then
    some (.treasuryReveals, ev.text₂ "proposal_id" "proposalId", ev.text "voter")
  else none

def RawEvent.said (ev : RawEvent) : Said :=
  if ev.eventType = "treasury_reveal" then .reveal (ev.text₂ "vote_hash" "voteHash")
  else .vote (ev.get "support").truthy ((bigInt (ev.text "weight" (.num 0))).toOption.getD 0)

/-- The ballot an event leaves: what it says, and the transaction of the highest ledger. -/
def RawEvent.cast (ev : RawEvent) : Option Ballot → Ballot
  | none => ⟨ev.said, ev.ledger.val, ev.txHash⟩
  | some old => ⟨ev.said, max old.ledger ev.ledger.val,
      if old.ledger ≤ ev.ledger.val then ev.txHash else old.txHash⟩

/-- The ballots after the fold of an event. -/
def Cast (db : Database) (ev : RawEvent) (db' : Database) : Prop :=
  match ev.ballotKey with
  | some k => db'.ballots = Function.update db.ballots k (some (ev.cast (db.ballots k)))
  | none => db'.ballots = db.ballots

theorem Vote.ballot_injective : Function.Injective Vote.ballot := by
  rintro ⟨s, w, l, t⟩ ⟨s', w', l', t'⟩ h
  simp only [Vote.ballot, Ballot.mk.injEq, Said.vote.injEq] at h
  obtain ⟨⟨rfl, hw⟩, hl, rfl⟩ := h
  rw [Ranged.ext hw, Ranged.ext hl]

theorem Reveal.ballot_injective : Function.Injective Reveal.ballot := by
  rintro ⟨v, l, t⟩ ⟨v', l', t'⟩ h
  simp only [Reveal.ballot, Ballot.mk.injEq, Said.reveal.injEq] at h
  obtain ⟨rfl, hl, rfl⟩ := h
  rw [Ranged.ext hl]

/-- The ballots determine the three tables. -/
theorem tables_of_ballots (h : db'.ballots = db.ballots) : db'.loanVotes = db.loanVotes ∧
    db'.treasuryVotes = db.treasuryVotes ∧ db'.treasuryReveals = db.treasuryReveals := by
  refine ⟨funext fun k => ?_, funext fun k => ?_, funext fun k => ?_⟩
  · exact Option.map_injective Vote.ballot_injective (congrFun h (.loanVotes, k))
  · exact Option.map_injective Vote.ballot_injective (congrFun h (.treasuryVotes, k))
  · exact Option.map_injective Reveal.ballot_injective (congrFun h (.treasuryReveals, k))

theorem ballots_congr (h₁ : db'.loanVotes = db.loanVotes) (h₂ : db'.treasuryVotes = db.treasuryVotes)
    (h₃ : db'.treasuryReveals = db.treasuryReveals) : db'.ballots = db.ballots := by
  funext ⟨t, k⟩
  cases t
  · exact congrArg (fun v => (v k).map Vote.ballot) h₁
  · exact congrArg (fun v => (v k).map Vote.ballot) h₂
  · exact congrArg (fun v => (v k).map Reveal.ballot) h₃

/-- A vote is cast, with the row that the handler offers. -/
theorem upsertVote_spec {votes votes' : String × String → Option Vote} {subject : String}
    (h : upsertVote votes subject ev = .ok votes') (hkind : ev.eventType ≠ "treasury_reveal") :
    ∃ new, votes' = Function.update votes (subject, ev.text "voter") (some new) ∧
      new.ballot = ev.cast ((votes (subject, ev.text "voter")).map Vote.ballot) := by
  simp only [upsertVote, bind_eq_ok, column_eq_ok, storedBigint_eq_ok, upsert_eq_ok] at h
  obtain ⟨n, hn, _, ⟨-, rfl⟩, _, ⟨-, rfl⟩, weight, hw, _, ⟨-, rfl⟩, new, rfl, hnew⟩ := h
  have hsaid : ev.said = .vote (ev.get "support").truthy weight.val := by
    rw [RawEvent.said, if_neg hkind, hn, hw]
    rfl
  refine ⟨new, rfl, ?_⟩
  rcases hnew with ⟨hnone, rfl⟩ | ⟨old, hold, hnew⟩
  · rw [hnone]
    simp only [Vote.ballot, Option.map_none, RawEvent.cast, hsaid]
    rfl
  · cases hnew
    rw [hold]
    simp only [Vote.ballot, Option.map_some, RawEvent.cast, hsaid, Ranged.val_max]
    rfl

/-- A table of ballots in which one row is written. -/
theorem ballots_of_row {k : BallotKey} {b : Ballot} (hrow : db'.ballots k = some b)
    (hrest : ∀ k', k' ≠ k → db'.ballots k' = db.ballots k') :
    db'.ballots = Function.update db.ballots k (some b) := by
  funext k'
  by_cases hk : k' = k
  · rw [hk, Function.update_self, hrow]
  · rw [Function.update_of_ne hk, hrest k' hk]

theorem ballots_of_loanVote {k : String × String} {v : Vote} :
    Database.ballots { db with loanVotes := Function.update db.loanVotes k (some v) } =
      Function.update db.ballots (.loanVotes, k) (some v.ballot) := by
  refine ballots_of_row (congrArg (Option.map Vote.ballot) (Function.update_self k _ db.loanVotes)) ?_
  rintro ⟨t, k'⟩ hk
  cases t with
  | loanVotes =>
      refine congrArg (Option.map Vote.ballot) (Function.update_of_ne ?_ ..)
      rintro rfl
      exact hk rfl
  | treasuryVotes => rfl
  | treasuryReveals => rfl

theorem ballots_of_treasuryVote {k : String × String} {v : Vote} :
    Database.ballots { db with treasuryVotes := Function.update db.treasuryVotes k (some v) } =
      Function.update db.ballots (.treasuryVotes, k) (some v.ballot) := by
  refine ballots_of_row (congrArg (Option.map Vote.ballot) (Function.update_self k _ db.treasuryVotes)) ?_
  rintro ⟨t, k'⟩ hk
  cases t with
  | loanVotes => rfl
  | treasuryVotes =>
      refine congrArg (Option.map Vote.ballot) (Function.update_of_ne ?_ ..)
      rintro rfl
      exact hk rfl
  | treasuryReveals => rfl

theorem ballots_of_treasuryReveal {k : String × String} {v : Reveal} :
    Database.ballots { db with treasuryReveals := Function.update db.treasuryReveals k (some v) } =
      Function.update db.ballots (.treasuryReveals, k) (some v.ballot) := by
  refine ballots_of_row (congrArg (Option.map Reveal.ballot) (Function.update_self k _ db.treasuryReveals)) ?_
  rintro ⟨t, k'⟩ hk
  cases t with
  | loanVotes => rfl
  | treasuryVotes => rfl
  | treasuryReveals =>
      refine congrArg (Option.map Reveal.ballot) (Function.update_of_ne ?_ ..)
      rintro rfl
      exact hk rfl

theorem cast_of_key {k : BallotKey} (hk : ev.ballotKey = some k)
    (h : db'.ballots = Function.update db.ballots k (some (ev.cast (db.ballots k)))) : Cast db ev db' := by
  rw [Cast, hk]
  exact h

theorem cast_of_loanVote (hkind : ev.eventType = "loan_vote") (h : handleLoanVote db ev = .ok db') :
    Cast db ev db' := by
  simp only [handleLoanVote, bind_eq_ok, pure_eq_ok] at h
  obtain ⟨votes, hvotes, rfl⟩ := h
  obtain ⟨new, rfl, hnew⟩ := upsertVote_spec hvotes (hkind.trans_ne (by decide))
  refine cast_of_key (if_pos hkind) ?_
  rw [ballots_of_loanVote, hnew]
  rfl

theorem cast_of_treasuryVote (hkind : ev.eventType = "treasury_vote")
    (h : handleTreasuryVote db ev = .ok db') : Cast db ev db' := by
  simp only [handleTreasuryVote, bind_eq_ok, pure_eq_ok] at h
  obtain ⟨votes, hvotes, rfl⟩ := h
  obtain ⟨new, rfl, hnew⟩ := upsertVote_spec hvotes (hkind.trans_ne (by decide))
  have hkey : ev.ballotKey =
      some (.treasuryVotes, ev.text₂ "proposal_id" "proposalId", ev.text "voter") := by
    rw [RawEvent.ballotKey, if_neg (hkind.trans_ne (by decide)), if_pos hkind]
  refine cast_of_key hkey ?_
  rw [ballots_of_treasuryVote, hnew]
  rfl

theorem cast_of_treasuryReveal (hkind : ev.eventType = "treasury_reveal")
    (h : handleTreasuryReveal db ev = .ok db') : Cast db ev db' := by
  simp only [handleTreasuryReveal, bind_eq_ok, column_eq_ok, upsert_eq_ok, pure_eq_ok] at h
  obtain ⟨_, ⟨-, rfl⟩, _, ⟨-, rfl⟩, _, ⟨-, rfl⟩, _, ⟨-, rfl⟩, _, ⟨new, rfl, hnew⟩, rfl⟩ := h
  have hkey : ev.ballotKey =
      some (.treasuryReveals, ev.text₂ "proposal_id" "proposalId", ev.text "voter") := by
    rw [RawEvent.ballotKey, if_neg (hkind.trans_ne (by decide)), if_neg (hkind.trans_ne (by decide)),
      if_pos hkind]
  have hsaid : ev.said = .reveal (ev.text₂ "vote_hash" "voteHash") := if_pos hkind
  refine cast_of_key hkey ?_
  rw [ballots_of_treasuryReveal]
  congr 2
  show new.ballot = ev.cast ((db.treasuryReveals _).map Reveal.ballot)
  rcases hnew with ⟨hnone, rfl⟩ | ⟨old, hold, hnew⟩
  · rw [hnone]
    simp only [Reveal.ballot, Option.map_none, RawEvent.cast, hsaid]
    rfl
  · cases hnew
    rw [hold]
    simp only [Reveal.ballot, Option.map_some, RawEvent.cast, hsaid, Ranged.val_max]
    rfl

theorem cast_of_other (hkind : ev.eventType ∉ ["loan_vote", "treasury_vote", "treasury_reveal"])
    (h : db'.ballots = db.ballots) : Cast db ev db' := by
  simp only [List.mem_cons, List.not_mem_nil, or_false, not_or] at hkind
  have hkey : ev.ballotKey = none := by
    rw [RawEvent.ballotKey, if_neg hkind.1, if_neg hkind.2.1, if_neg hkind.2.2]
  rw [Cast, hkey]
  exact h

/-- The handlers of the streams write to no other table. -/
theorem ballots_of_upsertStream {s : String} {merge : StreamState → Except Failure StreamState}
    (h : upsertStream db s row merge = .ok db') : db'.ballots = db.ballots := by
  obtain ⟨new, rfl, -⟩ := upsertStream_eq_ok.mp h
  exact ballots_congr rfl rfl rfl

theorem ballots_of_withdrawal {w : Withdrawal} (h : insertWithdrawal db w = .ok db') :
    db'.ballots = db.ballots := by
  unfold insertWithdrawal at h
  split at h
  · cases h
    rfl
  · simp only [bind_eq_ok, pure_eq_ok] at h
    obtain ⟨_, -, rfl⟩ := h
    exact ballots_congr rfl rfl rfl

theorem ballots_of_withdrawn (h : handleStreamWithdrawn db ev = .ok db') : db'.ballots = db.ballots := by
  simp only [handleStreamWithdrawn, bind_eq_ok] at h
  obtain ⟨amount, -, _, -, _, -, _, -, x, -, db₁, hins, row, -, h⟩ := h
  exact (ballots_of_upsertStream h).trans (ballots_of_withdrawal hins)

theorem ballots_of_markStream {mark : StreamState → StreamState} (h : markStream mark db ev = .ok db') :
    db'.ballots = db.ballots := by
  simp only [markStream, bind_eq_ok] at h
  obtain ⟨row, -, h⟩ := h
  exact ballots_of_upsertStream h

theorem ballots_of_toppedUp (h : handleStreamToppedUp db ev = .ok db') : db'.ballots = db.ballots := by
  simp only [handleStreamToppedUp, bind_eq_ok] at h
  obtain ⟨amount, -, row, -, h⟩ := h
  exact ballots_of_upsertStream h

theorem ballots_of_xferRec (h : handleXferRec db ev = .ok db') : db'.ballots = db.ballots := by
  simp only [handleXferRec, bind_eq_ok] at h
  obtain ⟨row, -, h⟩ := h
  exact ballots_of_upsertStream h

theorem cast_of_fold (h : foldEvent db ev = .ok db') : Cast db ev db' := by
  rcases handler_of_fold h with ⟨rfl, -, hnone⟩ | ⟨handler, hhandler, h⟩
  · refine cast_of_other (fun hkind => ?_) rfl
    simp only [List.mem_cons, List.not_mem_nil, or_false] at hkind
    rcases hkind with hk | hk | hk
    all_goals
      rw [hk] at hnone
      cases hnone
  · unfold handlerOf at hhandler
    split at hhandler
    case h_1 hk =>
        cases hhandler
        exact cast_of_other (by rw [hk]; decide) (ballots_of_withdrawn h)
    case h_2 hk | h_3 hk | h_4 hk | h_6 hk =>
        cases hhandler
        exact cast_of_other (by rw [hk]; decide) (ballots_of_markStream h)
    case h_5 hk =>
        cases hhandler
        exact cast_of_other (by rw [hk]; decide) (ballots_of_toppedUp h)
    case h_7 hk =>
        cases hhandler
        exact cast_of_other (by rw [hk]; decide) (ballots_of_xferRec h)
    case h_8 hk =>
        cases hhandler
        exact cast_of_loanVote hk h
    case h_9 hk =>
        cases hhandler
        exact cast_of_treasuryVote hk h
    case h_10 hk =>
        cases hhandler
        exact cast_of_treasuryReveal hk h
    case h_11 => cases hhandler

end Drip.Indexer
