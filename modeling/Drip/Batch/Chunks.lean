import Drip.Batch.Payments

/-!
# Batch — Chunks

The entry points agree.  `process_batch` and `process_batch_detailed` do the same, `preview_batch` runs
the checks they begin with, and a batch that `process_batch` pays can be paid in parts.

`Affordable` is what the ledger has to allow for a list of entries to be pulled and paid out.  It passes
to the entries that are left once the first ones have been paid (`Affordable.rest`), so a chain of
calls of `process_batch_with_limit`, each on what the one before left, goes through (`drained_of`).
-/

namespace Drip.Batch
open Chain

variable {host : Host} {env : Env} {here funder token : Address} {recipients : List Address}
variable {amounts : List I128} {items xs ys : List (Address × I128)} {s s' : State} {l l' : Ledger}
variable {n : I128} {maxItems count : Nat}

/-! ### Entries that can be paid -/

/-- The entries can be paid by the processor at `here`, out of what the funder holds. -/
structure Affordable (here funder token : Address) (items : List (Address × I128)) (l : Ledger) :
    Prop where
  held : totalOf items ≤ (l.balance token funder).val
  transit : (l.balance token here).val + totalOf items ≤ i128Max
  room : ∀ a, a ≠ funder → a ≠ here → (l.balance token a).val + credit a items ≤ i128Max

/-- The ledger after the entries have been paid. -/
def Paid (funder token : Address) (items : List (Address × I128)) (l l' : Ledger) : Prop :=
  ∀ t a, (l'.balance t a).val =
    (l.balance t a).val + if t = token then change funder items (totalOf items) a else 0

theorem change_append (a : Address) :
    change funder (xs ++ ys) (totalOf (xs ++ ys)) a =
      change funder xs (totalOf xs) a + change funder ys (totalOf ys) a := by
  unfold change
  rw [credit_append, totalOf_append]
  split <;> omega

theorem Paid.append {l₁ : Ledger} (h : Paid funder token xs l l₁) (h' : Paid funder token ys l₁ l') :
    Paid funder token (xs ++ ys) l l' := by
  intro t a
  rw [h' t a, h t a, change_append]
  split <;> omega

/-- The balances determine the ledger. -/
theorem Paid.unique {l₁ : Ledger} (h : Paid funder token items l l') (h₁ : Paid funder token items l l₁) :
    l' = l₁ := by
  obtain ⟨b⟩ := l'
  obtain ⟨b₁⟩ := l₁
  refine congrArg Ledger.mk (funext fun t => funext fun a => Ranged.ext ?_)
  exact (h t a).trans (h₁ t a).symm

theorem Moves.paid (h : Moves env funder token items n count s s') (hn : n.val = totalOf items) :
    Paid funder token items s.tokens s'.tokens := by
  intro t a
  rw [h.balance hn t a, hn]

theorem Moves.affordable (h : Moves env funder token items n count s s') (hn : n.val = totalOf items) :
    Affordable env.contract funder token items s.tokens := by
  have hpaid := h.paid hn
  obtain ⟨-, hauth, l₁, l₂, hpull, -, -⟩ := h
  have hfunder : env.contract ≠ funder := (Env.ne_contract hauth).symm
  obtain ⟨-, hheld, hmove⟩ := Ledger.transfer_spec hpull
  refine ⟨hn ▸ hheld, ?_, fun a hf _ => ?_⟩
  · have hpulled := hmove token env.contract
    simp only [hfunder, and_false, and_true, if_true, if_false] at hpulled
    have hle := (l₁.balance token env.contract).le
    omega
  · have hfinal := hpaid token a
    rw [if_pos rfl, change, if_neg hf, sub_zero] at hfinal
    have hle := (s'.tokens.balance token a).le
    omega

/-- What is affordable is paid, once the funder has signed. -/
theorem Affordable.moves (h : Affordable env.contract funder token items s.tokens)
    (hproper : Proper items) (hn : n.val = totalOf items) (hlock : s.lock = none)
    (hauth : env.authorized funder = true) (count : Nat) :
    ∃ s', Moves env funder token items n count s s' := by
  have hfunder : env.contract ≠ funder := (Env.ne_contract hauth).symm
  have hcredit := credit_le hproper
  have hnn : 0 ≤ n.val := by
    rw [hn]
    exact (hcredit funder).1.trans (hcredit funder).2
  obtain ⟨l₁, hpull⟩ : ∃ l₁, s.tokens.transfer token funder env.contract n = some l₁ :=
    Ledger.exists_transfer hnn (hn ▸ h.held) fun _ => hn ▸ h.transit
  obtain ⟨-, -, hmove⟩ := Ledger.transfer_spec hpull
  obtain ⟨l₂, hpay⟩ : ∃ l₂, fanOut token env.contract items l₁ = some l₂ := by
    refine exists_fanOut hproper ?_ fun a ha => ?_
    · rw [hmove, if_neg fun h => hfunder h.2, if_pos ⟨rfl, rfl⟩, hn]
      have := (s.tokens.balance token env.contract).ge
      omega
    · have hgot := hmove token a
      by_cases hf : a = funder
      · -- the funder gets back no more than it gave
        rw [if_pos ⟨rfl, hf⟩, if_neg fun h => ha h.2, hn] at hgot
        have := hcredit a
        have := (s.tokens.balance token a).le
        omega
      · rw [if_neg fun h => hf h.2, if_neg fun h => ha h.2] at hgot
        have := h.room a hf ha
        omega
  exact ⟨_, hlock, hauth, l₁, l₂, hpull, hpay, rfl⟩

theorem Affordable.first (h : Affordable here funder token items l) (hproper : Proper items)
    (hsplit : xs ++ ys = items) : Affordable here funder token xs l := by
  subst hsplit
  have hys := credit_le fun x hx => hproper x (List.mem_append_right xs hx)
  obtain ⟨hheld, htransit, hroom⟩ := h
  rw [totalOf_append] at hheld htransit
  have := hys funder
  refine ⟨by omega, by omega, fun a hf ha => ?_⟩
  have := hroom a hf ha
  rw [credit_append] at this
  have := hys a
  omega

/-- Once the first entries have been paid, the others still can be. -/
theorem Affordable.rest (h : Affordable here funder token items l) (hproper : Proper items)
    (hsplit : xs ++ ys = items) (hne : here ≠ funder) (hpaid : Paid funder token xs l l') :
    Affordable here funder token ys l' := by
  subst hsplit
  have hxs := credit_le fun x hx => hproper x (List.mem_append_left ys hx)
  obtain ⟨hheld, htransit, hroom⟩ := h
  rw [totalOf_append] at hheld htransit
  have hafter : ∀ a, (l'.balance token a).val =
      (l.balance token a).val + (credit a xs - if a = funder then totalOf xs else 0) := by
    intro a
    rw [hpaid, if_pos rfl, change]
  refine ⟨?_, ?_, fun a hf ha => ?_⟩
  · rw [hafter, if_pos rfl]
    have := hxs funder
    omega
  · rw [hafter, if_neg hne]
    have := hxs here
    omega
  · rw [hafter, if_neg hf]
    have := hroom a hf ha
    rw [credit_append] at this
    omega

/-! ### One call -/

theorem take_append_drop_zip (k : Nat) : (recipients.zip amounts).take k ++
    (recipients.drop k).zip (amounts.drop k) = recipients.zip amounts := by
  have hdrop : (recipients.drop k).zip (amounts.drop k) = (recipients.zip amounts).drop k := by
    rw [List.zip_eq_zipWith, List.zip_eq_zipWith, List.drop_zipWith]
  rw [hdrop, List.take_append_drop]

/-- A call on entries that can be paid pays the first of them. -/
theorem exists_limited (hlen : recipients.length = amounts.length) (hpos : ∀ x ∈ amounts, 0 < x.val)
    (hone : 1 ≤ maxItems) (hmax : maxItems ≤ maxBatchSize) (htoken : validateToken host token = .ok ())
    (hlock : s.lock = none) (hauth : env.authorized funder = true)
    (h : Affordable env.contract funder token (recipients.zip amounts) s.tokens) :
    let k := processed recipients maxItems
    ∃ r s', processBatchWithLimit host env funder token recipients amounts maxItems s = .ok (r, s') ∧
      r.processedCount = k ∧ r.remainingCount = recipients.length - k ∧
      r.transferredTotal.val = totalOf ((recipients.zip amounts).take k) ∧ s'.lock = none ∧
      Paid funder token ((recipients.zip amounts).take k) s.tokens s'.tokens := by
  intro k
  have hproper : Proper (recipients.zip amounts) := proper_zip hpos
  have hproper' : Proper ((recipients.zip amounts).take k) :=
    fun x hx => hproper x (List.mem_of_mem_take hx)
  have hfirst : Affordable env.contract funder token ((recipients.zip amounts).take k) s.tokens :=
    h.first hproper (List.take_append_drop k (recipients.zip amounts))
  -- the funder holds the total, so it fits
  have hle := hfirst.held.trans (s.tokens.balance token funder).le
  have hcredit := credit_le hproper' funder
  obtain ⟨total, htotal⟩ : ∃ total : I128, total.val = totalOf ((recipients.zip amounts).take k) :=
    ⟨⟨_, le_trans (by decide) (hcredit.1.trans hcredit.2), hle⟩, rfl⟩
  have hsum : (amounts.take k).foldlM addAmount (.lit 0) = .ok total := by
    refine addAmounts_eq_ok.mpr ⟨fun x hx => hpos x (List.mem_of_mem_take hx), ?_⟩
    rw [htotal, zero_add, List.zip, List.take_zipWith]
    refine totalOf_zip ?_
    rw [List.length_take, List.length_take, hlen]
  by_cases hk : k = 0
  · refine ⟨_, s, processBatchWithLimit_eq_ok.mpr
      ⟨hlen, hone, hmax, total, hsum, htoken, rfl, .inl ⟨hk, rfl⟩⟩, rfl, rfl, htotal, hlock, ?_⟩
    intro t a
    rw [hk, List.take_zero, totalOf_nil, change_nil, ite_self, add_zero]
  · obtain ⟨s', hmoves⟩ := hfirst.moves hproper' htotal hlock hauth k
    refine ⟨_, s', processBatchWithLimit_eq_ok.mpr
      ⟨hlen, hone, hmax, total, hsum, htoken, rfl, .inr ⟨hk, hmoves⟩⟩, rfl, rfl, htotal, ?_,
      hmoves.paid htotal⟩
    obtain ⟨-, -, l₁, l₂, -, -, rfl⟩ := hmoves
    rfl

/-! ### A chain of calls -/

/-- The calls of `process_batch_with_limit`, each on what the one before left, until nothing remains:
the `i`-th under the invocation `envs i` with the limit `limits i`. -/
inductive Drained (host : Host) (funder token : Address) : (Nat → Env) → (Nat → Nat) → List Address →
    List I128 → State → List I128 → State → Prop where
  | last {envs : Nat → Env} {limits : Nat → Nat} {recipients : List Address} {amounts : List I128}
      {s s' : State} {r : PartialBatchResult}
      (h : processBatchWithLimit host (envs 0) funder token recipients amounts (limits 0) s =
        .ok (r, s')) (hdone : r.remainingCount = 0) :
      Drained host funder token envs limits recipients amounts s [r.transferredTotal] s'
  | more {envs : Nat → Env} {limits : Nat → Nat} {recipients : List Address} {amounts : List I128}
      {s s₁ s' : State} {r : PartialBatchResult} {totals : List I128}
      (h : processBatchWithLimit host (envs 0) funder token recipients amounts (limits 0) s =
        .ok (r, s₁)) (hmore : r.remainingCount ≠ 0)
      (rest : Drained host funder token (fun i => envs (i + 1)) (fun i => limits (i + 1))
        (recipients.drop r.processedCount) (amounts.drop r.processedCount) s₁ totals s') :
      Drained host funder token envs limits recipients amounts s (r.transferredTotal :: totals) s'

/-- By induction on how many entries are left. -/
theorem drained_of {envs : Nat → Env} {limits : Nat → Nat} (henvs : ∀ i, (envs i).contract = here)
    (hauth : ∀ i, (envs i).authorized funder = true)
    (hlimits : ∀ i, 1 ≤ limits i ∧ limits i ≤ maxBatchSize)
    (hlen : recipients.length = amounts.length) (hpos : ∀ x ∈ amounts, 0 < x.val)
    (htoken : validateToken host token = .ok ()) (hlock : s.lock = none)
    (h : Affordable here funder token (recipients.zip amounts) s.tokens) :
    ∃ totals s', Drained host funder token envs limits recipients amounts s totals s' ∧
      (totals.map (·.val)).sum = totalOf (recipients.zip amounts) ∧
      Paid funder token (recipients.zip amounts) s.tokens s'.tokens := by
  induction hsize : recipients.length using Nat.strong_induction_on generalizing envs limits recipients
    amounts s with
  | _ size ih =>
      obtain ⟨hone, hmax⟩ := hlimits 0
      obtain ⟨r, s₁, hcall, hk, hleft, htotal, hlock₁, hpaid⟩ :=
        exists_limited hlen hpos hone hmax htoken hlock (hauth 0) (henvs 0 ▸ h)
      have hle : processed recipients (limits 0) ≤ recipients.length := min_le_left _ _
      by_cases hdone : r.remainingCount = 0
      · have hall : (recipients.zip amounts).take (processed recipients (limits 0)) =
            recipients.zip amounts := by
          refine List.take_of_length_le ?_
          rw [List.length_zip, hlen, min_self]
          omega
        rw [hall] at htotal hpaid
        exact ⟨_, s₁, .last hcall hdone, by simpa using htotal, hpaid⟩
      · have hne : here ≠ funder := henvs 0 ▸ (Env.ne_contract (hauth 0)).symm
        have hsplit : _ ++ (recipients.drop r.processedCount).zip (amounts.drop r.processedCount) = _ :=
          take_append_drop_zip r.processedCount
        rw [hk] at hsplit
        have hproper : Proper (recipients.zip amounts) := proper_zip hpos
        -- at least one entry has been processed
        have hshorter : (recipients.drop r.processedCount).length < size := by
          rw [List.length_drop, hk, processed]
          omega
        have hafford : Affordable here funder token
            ((recipients.drop r.processedCount).zip (amounts.drop r.processedCount)) s₁.tokens :=
          h.rest hproper (hk ▸ hsplit) hne hpaid
        obtain ⟨totals, s', hdrained, hsum, hrest⟩ := ih _ hshorter (fun i => henvs (i + 1))
          (fun i => hauth (i + 1)) (fun i => hlimits (i + 1))
          (by rw [List.length_drop, List.length_drop, hlen])
          (fun x hx => hpos x (List.mem_of_mem_drop hx)) hlock₁ hafford rfl
        refine ⟨_, s', .more hcall hdone hdrained, ?_, ?_⟩
        · rw [List.map_cons, List.sum_cons, hsum, htotal, hk, ← totalOf_append, hsplit]
        · have hboth := hpaid.append hrest
          rw [hk, hsplit] at hboth
          exact hboth

/-! ### The checks -/

/-- The errors of `validate_total`. -/
def Error.ofTotal : Error → Bool
  | .lengthMismatch | .batchTooLarge | .invalidAmount | .arithmeticOverflow => true
  | _ => false

/-- A failure of checks 1 to 4. -/
def Checked (e : Failure Error) : Prop := ∃ c : Error, c.ofTotal = true ∧ e = err c

theorem only_validateTotal : Only Checked (validateTotal recipients amounts) := by
  refine only_bind (only_reject fun _ => ⟨_, rfl, rfl⟩) fun _ _ =>
    only_bind (only_reject fun _ => ⟨_, rfl, rfl⟩) fun _ _ => only_foldlM (fun total x => ?_) _ _
  exact only_bind (only_reject fun _ => ⟨_, rfl, rfl⟩) fun _ _ => only_okOr fun _ => ⟨_, rfl, rfl⟩

theorem not_checked {c : Error} (h : c.ofTotal = false) : ¬ Checked (err c) := by
  rintro ⟨c', hc, he⟩
  cases he
  rw [h] at hc
  cases hc

theorem trap_not_checked : ¬ Checked .trap := by
  rintro ⟨_, _, he⟩
  cases he

theorem only_transfer {src dst : Address} :
    Only (¬ Checked ·) (transfer token src dst n s) :=
  only_bind (only_okOr fun _ => trap_not_checked) fun _ _ => only_ok _

/-- Past checks 1 to 4, `process_batch` fails in other ways. -/
theorem only_unchecked (htotal : validateTotal recipients amounts = .ok n) :
    Only (¬ Checked ·) (processBatch host env funder token recipients amounts s) := by
  unfold processBatch
  rw [bind_of_ok htotal]
  have htoken : Only (¬ Checked ·) (validateToken host token) :=
    only_bind (only_reject fun _ => not_checked rfl) fun _ _ =>
      only_bind (only_reject fun _ => not_checked rfl) fun _ _ =>
        only_reject fun _ => not_checked rfl
  refine only_bind htoken fun _ _ => ?_
  split
  · exact only_ok _
  · refine only_bind (only_bind (only_reject fun _ => not_checked rfl) fun _ _ => only_ok _) fun _ _ => ?_
    refine only_bind (only_reject fun _ => trap_not_checked) fun _ _ => ?_
    refine only_bind only_transfer fun _ _ => ?_
    exact only_bind (only_foldlM (fun _ _ => only_transfer) _ _) fun _ _ => only_ok _

/-! ### The entry points agree -/

/-- The entry points agree on a batch. -/
structure Agree (host : Host) (env : Env) (funder token : Address) (recipients : List Address)
    (amounts : List I128) (s : State) : Prop where
  /-- The plain and the detailed one fail alike, or leave the same state. -/
  detailed : Alike (fun x y => x.2 = y.2)
    (processBatch host env funder token recipients amounts s)
    (processBatchDetailed host env funder token recipients amounts s)
  /-- The preview succeeds exactly where `process_batch` gets past checks 1 to 4. -/
  passes : (∃ n, previewBatch recipients amounts = .ok n) ↔
    Only (¬ Checked ·) (processBatch host env funder token recipients amounts s)
  /-- It foretells the total. -/
  foretold : ∀ n m s', previewBatch recipients amounts = .ok n →
    processBatch host env funder token recipients amounts s = .ok (m, s') → m = n
  /-- Where it fails, `process_batch` fails as it does. -/
  refused : ∀ e, previewBatch recipients amounts = .error e →
    processBatch host env funder token recipients amounts s = .error e
  /-- A batch that is paid in one call is paid in parts, whatever the limits are. -/
  chunked : ∀ n s', processBatch host env funder token recipients amounts s = .ok (n, s') →
    ∀ (envs : Nat → Env) (limits : Nat → Nat),
      (∀ i, (envs i).contract = env.contract ∧
        (env.authorized funder = true → (envs i).authorized funder = true)) →
      (∀ i, 1 ≤ limits i ∧ limits i ≤ maxBatchSize) →
      ∃ totals s'', Drained host funder token envs limits recipients amounts s totals s'' ∧
        s''.tokens = s'.tokens ∧ (totals.map (·.val)).sum = n.val

theorem drained_of_empty {envs : Nat → Env} {limits : Nat → Nat}
    (hlimits : ∀ i, 1 ≤ limits i ∧ limits i ≤ maxBatchSize)
    (htoken : validateToken host token = .ok ()) :
    Drained host funder token envs limits [] [] s [.lit 0] s := by
  have hcall : processBatchWithLimit host (envs 0) funder token [] [] (limits 0) s =
      .ok (⟨[], 0, 0, 0, .lit 0⟩, s) :=
    processBatchWithLimit_eq_ok.mpr ⟨rfl, (hlimits 0).1, (hlimits 0).2, .lit 0,
      by rw [List.take_nil]; rfl, htoken, by simp [processed, receipts],
      .inl ⟨Nat.zero_min _, rfl⟩⟩
  exact .last hcall rfl

theorem chunked_of_processBatch
    (h : processBatch host env funder token recipients amounts s = .ok (n, s'))
    {envs : Nat → Env} {limits : Nat → Nat}
    (henvs : ∀ i, (envs i).contract = env.contract ∧
      (env.authorized funder = true → (envs i).authorized funder = true))
    (hlimits : ∀ i, 1 ≤ limits i ∧ limits i ≤ maxBatchSize) :
    ∃ totals s'', Drained host funder token envs limits recipients amounts s totals s'' ∧
      s''.tokens = s'.tokens ∧ (totals.map (·.val)).sum = n.val := by
  obtain ⟨htotal, htoken, h⟩ := processBatch_eq_ok.mp h
  obtain ⟨hlen, -, hpos, hsum⟩ := validateTotal_eq_ok.mp htotal
  have hn : n.val = totalOf (recipients.zip amounts) := by rw [hsum, totalOf_zip hlen.ge]
  rcases h with ⟨hzero, rfl⟩ | ⟨-, hmoves⟩
  · -- nothing to pay: the first call already leaves nothing
    have hnil : recipients.zip amounts = [] := items_eq_nil hpos (hsum ▸ hzero)
    obtain rfl : recipients = [] := by
      rw [List.zip_eq_nil_iff] at hnil
      rcases hnil with hnil | hnil
      · exact hnil
      · exact List.eq_nil_of_length_eq_zero (by rw [hlen, hnil]; rfl)
    obtain rfl : amounts = [] := List.eq_nil_of_length_eq_zero hlen.symm
    exact ⟨_, _, drained_of_empty hlimits htoken, rfl, by simp [hzero]⟩
  · have haffordable := hmoves.affordable hn
    obtain ⟨totals, s'', hdrained, htotals, hpaid⟩ := drained_of (fun i => (henvs i).1)
      (fun i => (henvs i).2 hmoves.authorized) hlimits hlen hpos htoken hmoves.unlocked haffordable
    exact ⟨totals, s'', hdrained, hpaid.unique (hmoves.paid hn), htotals.trans hn.symm⟩

/-- **The entry points agree.**  On any batch, in any state: the detailed call does what the plain one
does, the preview runs its checks and gives its total, and calls with any limits, each on what the one
before left, pay what the plain call pays. -/
theorem agree_of_batch : Agree host env funder token recipients amounts s := by
  have herror : ∀ e, previewBatch recipients amounts = .error e →
      processBatch host env funder token recipients amounts s = .error e := by
    intro e h
    unfold processBatch
    exact bind_of_error h
  refine ⟨detailed_alike, ⟨?_, fun h => ?_⟩, fun n m s' hn hm => ?_, herror,
    fun n s' h envs limits => chunked_of_processBatch h⟩
  · rintro ⟨n, hn⟩
    exact only_unchecked hn
  · cases hpreview : previewBatch recipients amounts with
    | ok n => exact ⟨n, rfl⟩
    | error e => exact absurd (only_validateTotal e hpreview) (h e (herror e hpreview))
  · obtain ⟨htotal, -⟩ := processBatch_eq_ok.mp hm
    have heq : (Except.ok m : Result I128) = .ok n := htotal.symm.trans hn
    cases heq
    rfl

/-- A batch of three, paid in parts of one and of two. -/
theorem agree_of_batch_chunked : ∃ totals s'',
    Drained Sample.others Sample.payer Sample.asset (fun _ => Sample.invocation)
      (fun i => min (i + 1) 2) [.account 2, Sample.payer, .account 3] [.lit 5, .lit 3, .lit 4]
      Sample.state totals s'' ∧
    (totals.map (·.val)).sum = 12 := by
  have hpaid : ∃ s', processBatch Sample.others Sample.invocation Sample.payer Sample.asset
      [.account 2, Sample.payer, .account 3] [.lit 5, .lit 3, .lit 4] Sample.state =
        .ok (.lit 12, s') := by
    obtain ⟨⟨n, s'⟩, h⟩ := exists_of_isOk (show (processBatch Sample.others Sample.invocation
      Sample.payer Sample.asset [.account 2, Sample.payer, .account 3] [.lit 5, .lit 3, .lit 4]
      Sample.state).isOk = true by decide +kernel)
    obtain ⟨htotal, -⟩ := processBatch_eq_ok.mp h
    obtain ⟨-, -, -, hsum⟩ := validateTotal_eq_ok.mp htotal
    obtain rfl : n = .lit 12 := Ranged.ext hsum
    exact ⟨s', h⟩
  obtain ⟨s', hpaid⟩ := hpaid
  obtain ⟨totals, s'', hdrained, -, hsum⟩ := agree_of_batch.chunked _ s' hpaid
    (fun _ => Sample.invocation) (fun i => min (i + 1) 2) (fun _ => ⟨rfl, id⟩)
    fun i => ⟨by omega, by dsimp only [maxBatchSize]; omega⟩
  exact ⟨totals, s'', hdrained, hsum⟩

end Drip.Batch
