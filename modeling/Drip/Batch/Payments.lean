import Mathlib.Algebra.Order.BigOperators.Group.List
import Drip.Batch.Processor

/-!
# Batch — Payments

What a batch moves.  The three entry points add up and pay in loops of their own; each is the same
`fanOut` of the entries it processes.

* `fanOut_spec`, `exists_fanOut`: what a fan-out does to every balance, and when it goes through.
* `processBatch_eq_ok`, `processBatchWithLimit_eq_ok`: when the entry points succeed, and what state
  they leave; `detailed_alike`: the detailed one does the same.
* `conserves_of_batch`: each balance changes by the processed entries of its holder, less what the
  funder gave.
-/

namespace Drip.Batch
open Chain

variable {host : Host} {env : Env} {funder token src : Address} {recipients : List Address}
variable {amounts : List I128} {items : List (Address × I128)} {s s' : State} {l l' : Ledger}
variable {n total : I128} {maxItems : Nat}

/-! ### Entries -/

/-- What the entries add up to. -/
def totalOf (items : List (Address × I128)) : Int := (items.map fun x => x.2.val).sum

/-- What the entries give to `a`. -/
def credit (a : Address) (items : List (Address × I128)) : Int :=
  (items.map fun x => if x.1 = a then x.2.val else 0).sum

@[simp] theorem totalOf_nil : totalOf [] = 0 := rfl
@[simp] theorem credit_nil (a : Address) : credit a [] = 0 := rfl

@[simp]
theorem totalOf_cons (x : Address × I128) : totalOf (x :: items) = x.2.val + totalOf items := rfl

@[simp]
theorem credit_cons (a : Address) (x : Address × I128) :
    credit a (x :: items) = (if x.1 = a then x.2.val else 0) + credit a items := rfl

@[simp]
theorem totalOf_append (xs ys : List (Address × I128)) :
    totalOf (xs ++ ys) = totalOf xs + totalOf ys := by
  simp [totalOf]

@[simp]
theorem credit_append (a : Address) (xs ys : List (Address × I128)) :
    credit a (xs ++ ys) = credit a xs + credit a ys := by
  simp [credit]

/-- No amount is negative. -/
def Proper (items : List (Address × I128)) : Prop := ∀ x ∈ items, 0 ≤ x.2.val

theorem Proper.tail {x : Address × I128} (h : Proper (x :: items)) : Proper items :=
  fun y hy => h y (List.mem_cons_of_mem x hy)

/-- One holder is given part of the total. -/
theorem credit_le (h : Proper items) (a : Address) :
    0 ≤ credit a items ∧ credit a items ≤ totalOf items := by
  induction items with
  | nil => exact ⟨le_rfl, le_rfl⟩
  | cons x items ih =>
      have hx := h x List.mem_cons_self
      have ih := ih h.tail
      rw [credit_cons, totalOf_cons]
      split <;> omega

/-! ### The fan-out -/

/-- The entries are paid from `src`, one after the other. -/
def fanOut (token src : Address) (items : List (Address × I128)) (l : Ledger) : Option Ledger :=
  items.foldlM (fun l x => l.transfer token src x.1 x.2) l

theorem fanOut_cons (x : Address × I128) :
    fanOut token src (x :: items) l = (l.transfer token src x.1 x.2).bind (fanOut token src items) :=
  rfl

theorem fanOut_append (xs ys : List (Address × I128)) :
    fanOut token src (xs ++ ys) l = (fanOut token src xs l).bind (fanOut token src ys) :=
  List.foldlM_append

theorem fanOut_spec (h : fanOut token src items l = some l') :
    Proper items ∧ ∀ t a, (l'.balance t a).val = (l.balance t a).val
      - (if t = token ∧ a = src then totalOf items else 0)
      + (if t = token then credit a items else 0) := by
  induction items generalizing l with
  | nil =>
      cases h
      exact ⟨fun x hx => (by cases hx), fun t a => by simp⟩
  | cons x items ih =>
      rw [fanOut_cons, Option.bind_eq_some_iff] at h
      obtain ⟨l₁, hx, h⟩ := h
      obtain ⟨hnn, -, hmove⟩ := Ledger.transfer_spec hx
      obtain ⟨hproper, hrest⟩ := ih h
      refine ⟨fun y hy => ?_, fun t a => ?_⟩
      · rcases List.mem_cons.mp hy with rfl | hy
        · exact hnn
        · exact hproper y hy
      · rw [hrest, hmove, totalOf_cons, credit_cons]
        by_cases ht : t = token
        · simp only [ht, true_and, if_true, @eq_comm _ x.1 a]
          split_ifs <;> omega
        · simp [ht]

/-- A fan-out goes through where the source holds the total and everyone else has room. -/
theorem exists_fanOut (hproper : Proper items) (hheld : totalOf items ≤ (l.balance token src).val)
    (hroom : ∀ a, a ≠ src → (l.balance token a).val + credit a items ≤ i128Max) :
    ∃ l', fanOut token src items l = some l' := by
  induction items generalizing l with
  | nil => exact ⟨l, rfl⟩
  | cons x items ih =>
      have hx := hproper x List.mem_cons_self
      have hrest := credit_le hproper.tail
      rw [totalOf_cons] at hheld
      obtain ⟨l₁, hl₁⟩ : ∃ l₁, l.transfer token src x.1 x.2 = some l₁ := by
        refine Ledger.exists_transfer hx (by have := hrest src; omega) fun hne => ?_
        have hroom := hroom x.1 hne
        rw [credit_cons, if_pos rfl] at hroom
        have := hrest x.1
        omega
      obtain ⟨-, -, hmove⟩ := Ledger.transfer_spec hl₁
      obtain ⟨l', hl'⟩ := ih (l := l₁) hproper.tail
        (by rw [hmove, if_pos ⟨rfl, rfl⟩]; split <;> omega) fun a ha => by
          have hroom := hroom a ha
          rw [credit_cons] at hroom
          rw [hmove, if_neg fun h => ha h.2]
          by_cases hax : x.1 = a
          · rw [if_pos ⟨rfl, hax.symm⟩]
            rw [if_pos hax] at hroom
            omega
          · rw [if_neg fun h => hax h.2.symm]
            rw [if_neg hax] at hroom
            omega
      exact ⟨l', by rw [fanOut_cons, hl₁]; exact hl'⟩

/-! ### The loops -/

theorem addAmounts_eq_ok {t : I128} : amounts.foldlM addAmount t = .ok total ↔
    (∀ x ∈ amounts, 0 < x.val) ∧ total.val = t.val + (amounts.map (·.val)).sum := by
  induction amounts generalizing t with
  | nil =>
      rw [List.foldlM_nil, pure_eq_ok, Ranged.ext_iff]
      simp [eq_comm]
  | cons x xs ih =>
      rw [List.foldlM_cons]
      simp only [bind_eq_ok, addAmount, reject_eq_ok, okOr_eq_ok, Ranged.checkedAdd_eq_some, ih,
        exists_const, List.forall_mem_cons, List.map_cons, List.sum_cons, not_le]
      constructor
      · rintro ⟨u, ⟨hx, hu⟩, hxs, htotal⟩
        exact ⟨⟨hx, hxs⟩, by omega⟩
      · rintro ⟨⟨hx, hxs⟩, htotal⟩
        -- the amounts to come are positive, so the sum so far is below the total
        have hsum : 0 ≤ (xs.map (·.val)).sum := by
          refine List.sum_nonneg fun v hv => ?_
          obtain ⟨y, hy, rfl⟩ := List.mem_map.mp hv
          exact (hxs y hy).le
        have hge := t.ge
        have hle := total.le
        exact ⟨⟨t.val + x.val, by omega, by omega⟩, ⟨hx, rfl⟩, hxs, by dsimp only; omega⟩

theorem addAt_loop {t : I128} {k : Nat} (hk : k ≤ amounts.length) :
    (List.range k).foldlM (addAt amounts) t = (amounts.take k).foldlM addAmount t := by
  induction k with
  | zero => rfl
  | succ k ih =>
      have hget : amounts[k]? = some amounts[k] := List.getElem?_eq_getElem hk
      rw [List.range_succ, List.take_add_one, hget, Option.toList_some, List.foldlM_append,
        List.foldlM_append, ih (Nat.le_of_succ_le hk)]
      simp only [List.foldlM_cons, List.foldlM_nil, addAt, hget]
      rfl

/-- The entries are paid from the processor. -/
def distribute (env : Env) (token : Address) (items : List (Address × I128)) (s : State) :
    Result State := do
  let l ← okOr (fanOut token env.contract items s.tokens) .trap
  return { s with tokens := l }

theorem distribute_eq_ok : distribute env token items s = .ok s' ↔
    ∃ l, fanOut token env.contract items s.tokens = some l ∧ s' = { s with tokens := l } := by
  simp only [distribute, bind_eq_ok, okOr_eq_ok, pure_eq_ok]
  exact exists_congr fun l => and_congr_right fun _ => eq_comm

theorem transfer_eq_ok {dst : Address} : transfer token src dst n s = .ok s' ↔
    ∃ l, s.tokens.transfer token src dst n = some l ∧ s' = { s with tokens := l } := by
  simp only [transfer, bind_eq_ok, okOr_eq_ok, pure_eq_ok]
  exact exists_congr fun l => and_congr_right fun _ => eq_comm

theorem distribute_cons (x : Address × I128) : distribute env token (x :: items) s =
    (transfer token env.contract x.1 x.2 s >>= distribute env token items) := by
  unfold distribute transfer
  rw [fanOut_cons]
  cases s.tokens.transfer token env.contract x.1 x.2 with
  | none => rfl
  | some l => rfl

theorem distribute_append (xs ys : List (Address × I128)) : distribute env token (xs ++ ys) s =
    (distribute env token xs s >>= distribute env token ys) := by
  unfold distribute
  rw [fanOut_append]
  cases fanOut token env.contract xs s.tokens with
  | none => rfl
  | some l => rfl

theorem payItem_loop : items.foldlM (payItem env token) s = distribute env token items s := by
  induction items generalizing s with
  | nil => rfl
  | cons x items ih =>
      rw [List.foldlM_cons, distribute_cons]
      exact congrArg _ (funext fun s₁ => ih)

/-- The results of the entries from the index `k` on. -/
def receipts (k count : Nat) : List BatchResult :=
  (List.range' k count).map fun index => ⟨index, true, none⟩

theorem payNumbered_loop {k : Nat} {results : List BatchResult} :
    (items.zipIdx k).foldlM (payNumbered env token) (results, s) =
      (do
        let s' ← distribute env token items s
        return (results ++ receipts k items.length, s')) := by
  induction items generalizing s k results with
  | nil =>
      show Except.ok (results, s) = Except.ok (results ++ [], s)
      rw [List.append_nil]
  | cons x items ih =>
      rw [List.zipIdx_cons, List.foldlM_cons, distribute_cons]
      simp only [payNumbered]
      cases transfer token env.contract x.1 x.2 s with
      | error e => rfl
      | ok s₁ =>
          have hlist : results ++ receipts k (items.length + 1) =
              results ++ [⟨k, true, none⟩] ++ receipts (k + 1) items.length := by
            rw [receipts, List.range'_succ, List.map_cons, List.append_assoc]
            rfl
          rw [List.length_cons, hlist]
          exact ih

theorem payAt_loop {k : Nat} (hr : k ≤ recipients.length) (ha : k ≤ amounts.length) :
    (List.range k).foldlM (payAt env token recipients amounts) ([], s) =
      (do
        let s' ← distribute env token ((recipients.zip amounts).take k) s
        return (receipts 0 k, s')) := by
  induction k with
  | zero => rfl
  | succ k ih =>
      have hgetr : recipients[k]? = some recipients[k] := List.getElem?_eq_getElem hr
      have hgeta : amounts[k]? = some amounts[k] := List.getElem?_eq_getElem ha
      have hget : (recipients.zip amounts)[k]? = some (recipients[k], amounts[k]) := by
        rw [List.getElem?_zip_eq_some]
        exact ⟨hgetr, hgeta⟩
      have hlist : receipts 0 (k + 1) = receipts 0 k ++ [⟨k, true, none⟩] := by
        rw [receipts, List.range'_concat, List.map_append, Nat.zero_add, one_mul]
        rfl
      rw [List.range_succ, List.take_add_one, hget, Option.toList_some, List.foldlM_append,
        ih (Nat.le_of_succ_le hr) (Nat.le_of_succ_le ha), distribute_append, hlist]
      cases distribute env token ((recipients.zip amounts).take k) s with
      | error e => rfl
      | ok s₁ =>
          show (payAt env token recipients amounts (receipts 0 k, s₁) k >>= pure) =
            (distribute env token [(recipients[k], amounts[k])] s₁ >>= _)
          rw [distribute_cons]
          simp only [payAt, hgetr, hgeta]
          show ((transfer _ _ _ _ s₁ >>= _) >>= _) = ((transfer _ _ _ _ s₁ >>= _) >>= _)
          cases transfer token env.contract recipients[k] amounts[k] s₁ with
          | error e => rfl
          | ok s₂ => rfl

/-! ### The entry points -/

theorem validateTotal_eq_ok : validateTotal recipients amounts = .ok n ↔
    recipients.length = amounts.length ∧ amounts.length ≤ maxBatchSize ∧
      (∀ x ∈ amounts, 0 < x.val) ∧ n.val = (amounts.map (·.val)).sum := by
  simp only [validateTotal, bind_eq_ok, reject_eq_ok, addAmounts_eq_ok, exists_const, not_lt,
    ne_eq, not_not, zero_add]

theorem totalOf_zip (h : amounts.length ≤ recipients.length) :
    totalOf (recipients.zip amounts) = (amounts.map (·.val)).sum := by
  have hsnd : ((recipients.zip amounts).map Prod.snd).map Ranged.val = amounts.map Ranged.val := by
    rw [List.map_snd_zip h]
  rw [List.map_map] at hsnd
  exact congrArg List.sum hsnd

/-- The entries of a batch with positive amounts. -/
theorem proper_zip (h : ∀ x ∈ amounts, 0 < x.val) : Proper (recipients.zip amounts) :=
  fun x hx => (h x.2 (List.of_mem_zip hx).2).le

/-- The batch is pulled from the funder and paid out. -/
structure Moves (env : Env) (funder token : Address) (items : List (Address × I128)) (n : I128)
    (count : Nat) (s s' : State) : Prop where
  unlocked : s.lock = none
  authorized : env.authorized funder = true
  moved : ∃ l₁ l₂, s.tokens.transfer token funder env.contract n = some l₁ ∧
    fanOut token env.contract items l₁ = some l₂ ∧
    s' = finish funder token count n { s with lock := some true, tokens := l₂ }

theorem lockBatch_eq_ok : lockBatch s = .ok s' ↔ s.lock = none ∧ s' = { s with lock := some true } := by
  simp only [lockBatch, bind_eq_ok, reject_eq_ok, pure_eq_ok, exists_const, Bool.not_eq_true,
    Option.isSome_eq_false_iff, Option.isNone_iff_eq_none]
  exact and_congr_right fun _ => eq_comm

/-- The chain from the lock to the fan-out. -/
theorem moves_iff {count : Nat} : Moves env funder token items n count s s' ↔
    ∃ s₁ s₂ s₃, lockBatch s = .ok s₁ ∧ (requireAuth env funder : Result Unit) = .ok () ∧
      transfer token funder env.contract n s₁ = .ok s₂ ∧ distribute env token items s₂ = .ok s₃ ∧
      s' = finish funder token count n s₃ := by
  simp only [lockBatch_eq_ok, requireAuth_eq_ok, transfer_eq_ok, distribute_eq_ok]
  constructor
  · rintro ⟨hlock, hauth, l₁, l₂, hpull, hpay, rfl⟩
    exact ⟨_, _, _, ⟨hlock, rfl⟩, hauth, ⟨l₁, hpull, rfl⟩, ⟨l₂, hpay, rfl⟩, rfl⟩
  · rintro ⟨_, _, _, ⟨hlock, rfl⟩, hauth, ⟨l₁, hpull, rfl⟩, ⟨l₂, hpay, rfl⟩, rfl⟩
    exact ⟨hlock, hauth, l₁, l₂, hpull, hpay, rfl⟩

theorem processBatch_eq_ok :
    processBatch host env funder token recipients amounts s = .ok (n, s') ↔
      validateTotal recipients amounts = .ok n ∧ validateToken host token = .ok () ∧
        (n.val = 0 ∧ s' = s ∨ n.val ≠ 0 ∧
          Moves env funder token (recipients.zip amounts) n recipients.length s s') := by
  simp only [processBatch, bind_eq_ok, payItem_loop, moves_iff]
  constructor
  · rintro ⟨total, htotal, _, htoken, h⟩
    split at h
    · rename_i hzero
      cases h
      obtain rfl : total = .lit 0 := Ranged.ext hzero
      exact ⟨htotal, htoken, .inl ⟨rfl, rfl⟩⟩
    · rename_i hne
      simp only [bind_eq_ok, pure_eq_ok, Prod.mk.injEq] at h
      obtain ⟨s₁, h₁, _, hauth, s₂, h₂, s₃, h₃, rfl, rfl⟩ := h
      exact ⟨htotal, htoken, .inr ⟨hne, s₁, s₂, s₃, h₁, hauth, h₂, h₃, rfl⟩⟩
  · rintro ⟨htotal, htoken, ⟨hzero, rfl⟩ | ⟨hne, s₁, s₂, s₃, h₁, hauth, h₂, h₃, rfl⟩⟩
    · refine ⟨n, htotal, (), htoken, ?_⟩
      rw [if_pos hzero, show n = .lit 0 from Ranged.ext hzero]
      rfl
    · refine ⟨n, htotal, (), htoken, ?_⟩
      rw [if_neg hne]
      simp only [bind_eq_ok, pure_eq_ok]
      exact ⟨s₁, h₁, (), hauth, s₂, h₂, s₃, h₃, rfl⟩

/-- `process_batch_detailed` fails as `process_batch` does, and leaves the same state. -/
theorem detailed_alike : Alike (fun x y => x.2 = y.2)
    (processBatch host env funder token recipients amounts s)
    (processBatchDetailed host env funder token recipients amounts s) := by
  have hsame : ∀ {α : Type} {x : Result α}, Alike Eq x x := alike_refl fun _ => rfl
  unfold processBatch processBatchDetailed
  refine alike_bind hsame ?_
  rintro total _ rfl
  refine alike_bind hsame ?_
  rintro _ _ rfl
  split
  · exact .ok rfl
  · refine alike_bind hsame ?_
    rintro s₁ _ rfl
    refine alike_bind hsame ?_
    rintro _ _ rfl
    refine alike_bind hsame ?_
    rintro s₂ _ rfl
    rw [payItem_loop, payNumbered_loop]
    cases distribute env token (recipients.zip amounts) s₂ with
    | error e => exact .error e
    | ok s₃ => exact .ok rfl

/-- How many entries `process_batch_with_limit` takes. -/
def processed (recipients : List Address) (maxItems : Nat) : Nat := min recipients.length maxItems

theorem processBatchWithLimit_eq_ok {r : PartialBatchResult} :
    processBatchWithLimit host env funder token recipients amounts maxItems s = .ok (r, s') ↔
      recipients.length = amounts.length ∧ 1 ≤ maxItems ∧ maxItems ≤ maxBatchSize ∧
        let k := processed recipients maxItems
        ∃ total, (amounts.take k).foldlM addAmount (.lit 0) = .ok total ∧
          validateToken host token = .ok () ∧
          r = ⟨receipts 0 k, recipients.length, k, recipients.length - k, total⟩ ∧
          (k = 0 ∧ s' = s ∨
            k ≠ 0 ∧ Moves env funder token ((recipients.zip amounts).take k) total k s s') := by
  have hr : processed recipients maxItems ≤ recipients.length := min_le_left _ _
  simp only [processBatchWithLimit, bind_eq_ok, reject_eq_ok, exists_const, ne_eq, not_not, not_or,
    not_lt, moves_iff, Nat.one_le_iff_ne_zero, and_assoc]
  refine and_congr_right fun hlen => and_congr_right fun _ => and_congr_right fun _ => ?_
  have ha : processed recipients maxItems ≤ amounts.length := hlen ▸ hr
  rw [show min recipients.length maxItems = processed recipients maxItems from rfl, addAt_loop ha]
  refine exists_congr fun total => and_congr_right fun htotal => ?_
  by_cases hk : processed recipients maxItems = 0
  · -- nothing is processed, and nothing adds up to zero
    rw [hk, List.take_zero, List.foldlM_nil, pure_eq_ok] at htotal
    subst htotal
    simp only [hk, if_true, pure_eq_ok, Prod.mk.injEq]
    constructor
    · rintro ⟨_, htoken, rfl, rfl⟩
      exact ⟨htoken, rfl, .inl ⟨trivial, rfl⟩⟩
    · rintro ⟨htoken, rfl, ⟨-, rfl⟩ | ⟨hne, -⟩⟩
      · exact ⟨(), htoken, rfl, rfl⟩
      · exact absurd trivial hne
  · simp only [if_neg hk, bind_eq_ok, payAt_loop hr ha, pure_eq_ok, Prod.mk.injEq]
    constructor
    · rintro ⟨_, htoken, s₁, h₁, _, hauth, s₂, h₂, _, ⟨s₃, h₃, rfl⟩, rfl, rfl⟩
      exact ⟨htoken, rfl, .inr ⟨hk, s₁, s₂, s₃, h₁, hauth, h₂, h₃, rfl⟩⟩
    · rintro ⟨htoken, rfl, ⟨hzero, -⟩ | ⟨-, s₁, s₂, s₃, h₁, hauth, h₂, h₃, rfl⟩⟩
      · exact absurd hzero hk
      · exact ⟨(), htoken, s₁, h₁, (), hauth, s₂, h₂, _, ⟨s₃, h₃, rfl⟩, rfl, rfl⟩

/-! ### Balances -/

/-- What a batch does to the balance of `a`. -/
def change (funder : Address) (items : List (Address × I128)) (total : Int) (a : Address) : Int :=
  credit a items - if a = funder then total else 0

/-- The processor does not sign for itself, so the funder of a batch is someone else: the pull and the
fan-out change no balance twice. -/
theorem Moves.balance {count : Nat} (h : Moves env funder token items n count s s')
    (hn : n.val = totalOf items) (t a : Address) :
    (s'.tokens.balance t a).val =
      (s.tokens.balance t a).val + if t = token then change funder items n.val a else 0 := by
  obtain ⟨-, hauth, l₁, l₂, hpull, hpay, rfl⟩ := h
  have hfunder : funder ≠ env.contract := Env.ne_contract hauth
  obtain ⟨-, -, hpull⟩ := Ledger.transfer_spec hpull
  obtain ⟨-, hpay⟩ := fanOut_spec hpay
  show (l₂.balance t a).val = _
  rw [hpay, hpull, hn, change]
  by_cases ht : t = token
  · by_cases hf : a = funder
    · subst hf
      simp only [ht, hfunder, and_true, and_false, if_true, if_false]
      omega
    · simp only [ht, hf, true_and, if_true, if_false]
      split <;> omega
  · simp [ht]

/-- The state after an invocation; the host undoes one that fails. -/
def settled {α : Type} (s : State) (r : Result (α × State)) : State :=
  match r with
  | .ok (_, s') => s'
  | .error _ => s

/-- The change of a balance that an outcome stands for: none where the call failed. -/
def reported {α : Type} (funder token : Address) (items : α → List (Address × I128))
    (total : α → Int) (r : Result (α × State)) (t a : Address) : Int :=
  match r with
  | .ok (x, _) => if t = token then change funder (items x) (total x) a else 0
  | .error _ => 0

/-- The invocation changed the balances by the entries `items` that it processed, which add up to
`total`; a failed one changed nothing. -/
structure Conserves {α : Type} (funder token : Address) (s : State) (r : Result (α × State))
    (items : α → List (Address × I128)) (total : α → Int) : Prop where
  adds_up : ∀ x s', r = .ok (x, s') → total x = totalOf (items x)
  balance : ∀ t a, ((settled s r).tokens.balance t a).val =
    (s.tokens.balance t a).val + reported funder token items total r t a

theorem conserves_of {α : Type} {r : Result (α × State)} {items : α → List (Address × I128)}
    {total : α → Int} (h : ∀ x s', r = .ok (x, s') → total x = totalOf (items x) ∧
      ∀ t a, (s'.tokens.balance t a).val =
        (s.tokens.balance t a).val + if t = token then change funder (items x) (total x) a else 0) :
    Conserves funder token s r items total := by
  refine ⟨fun x s' hr => (h x s' hr).1, fun t a => ?_⟩
  cases r with
  | ok x => exact (h x.1 x.2 rfl).2 t a
  | error e => exact (add_zero _).symm

/-- A batch that adds up to nothing has no entries. -/
theorem items_eq_nil {amounts : List I128} (hpos : ∀ x ∈ amounts, 0 < x.val)
    (hzero : (amounts.map (·.val)).sum = 0) : recipients.zip amounts = [] := by
  cases amounts with
  | nil => exact List.zip_nil_right
  | cons x xs =>
      have hx := hpos x List.mem_cons_self
      have hxs : 0 ≤ (xs.map (·.val)).sum := by
        refine List.sum_nonneg fun v hv => ?_
        obtain ⟨y, hy, rfl⟩ := List.mem_map.mp hv
        exact (hpos y (List.mem_cons_of_mem x hy)).le
      rw [List.map_cons, List.sum_cons] at hzero
      omega

theorem change_nil (a : Address) : change funder [] 0 a = 0 := by
  simp [change]

theorem conserves_processBatch :
    Conserves funder token s (processBatch host env funder token recipients amounts s)
      (fun _ => recipients.zip amounts) (·.val) := by
  refine conserves_of fun n s' h => ?_
  obtain ⟨htotal, -, h⟩ := processBatch_eq_ok.mp h
  obtain ⟨hlen, -, hpos, hsum⟩ := validateTotal_eq_ok.mp htotal
  have hn : n.val = totalOf (recipients.zip amounts) := by rw [hsum, totalOf_zip hlen.ge]
  refine ⟨hn, fun t a => ?_⟩
  rcases h with ⟨hzero, rfl⟩ | ⟨-, hmoves⟩
  · rw [items_eq_nil hpos (hsum ▸ hzero), hzero, change_nil, ite_self, add_zero]
  · exact hmoves.balance hn t a

theorem conserves_processBatchDetailed :
    Conserves funder token s (processBatchDetailed host env funder token recipients amounts s)
      (fun _ => recipients.zip amounts) fun _ => totalOf (recipients.zip amounts) := by
  refine conserves_of fun results s' h => ⟨rfl, ?_⟩
  have halike : Alike _ (processBatch host env funder token recipients amounts s) _ := detailed_alike
  rw [h] at halike
  generalize hr : processBatch host env funder token recipients amounts s = r at halike
  cases halike with
  | ok heq =>
      rename_i x
      have hconserves : Conserves funder token s
        (processBatch host env funder token recipients amounts s) (fun _ => recipients.zip amounts)
        (·.val) := conserves_processBatch
      rw [← hconserves.adds_up x.1 x.2 hr]
      have hbalance := hconserves.balance
      rw [hr] at hbalance
      subst heq
      exact hbalance

theorem conserves_processBatchWithLimit :
    Conserves funder token s
      (processBatchWithLimit host env funder token recipients amounts maxItems s)
      (fun r => (recipients.zip amounts).take r.processedCount) (·.transferredTotal.val) := by
  refine conserves_of fun r s' hcall => ?_
  obtain ⟨hlen, -, -, total, htotal, -, rfl, h⟩ := processBatchWithLimit_eq_ok.mp hcall
  obtain ⟨-, hsum⟩ := addAmounts_eq_ok.mp htotal
  have hn : total.val = totalOf ((recipients.zip amounts).take (processed recipients maxItems)) := by
    rw [hsum, zero_add, List.zip, List.take_zipWith]
    refine (totalOf_zip ?_).symm
    rw [List.length_take, List.length_take, hlen]
  refine ⟨hn, fun t a => ?_⟩
  rcases h with ⟨hzero, rfl⟩ | ⟨-, hmoves⟩
  · show _ = _ + if t = token then change funder (List.take _ _) total.val a else 0
    rw [hn, hzero, List.take_zero, totalOf_nil, change_nil, ite_self, add_zero]
  · exact hmoves.balance hn t a

/-- **A batch pays what it takes.**  Whatever the recipients are, the funder and the processor among
them or not: each balance changes by the processed entries of its holder, and the funder's besides by
their total, which is what the call returns; a call that fails changes nothing. -/
theorem conserves_of_batch :
    Conserves funder token s (processBatch host env funder token recipients amounts s)
      (fun _ => recipients.zip amounts) (·.val) ∧
    Conserves funder token s (processBatchDetailed host env funder token recipients amounts s)
      (fun _ => recipients.zip amounts) (fun _ => totalOf (recipients.zip amounts)) ∧
    Conserves funder token s
      (processBatchWithLimit host env funder token recipients amounts maxItems s)
      (fun r => (recipients.zip amounts).take r.processedCount) (·.transferredTotal.val) :=
  ⟨conserves_processBatch, conserves_processBatchDetailed, conserves_processBatchWithLimit⟩

/-! ### A batch that pays the processor -/

namespace Sample

def processor : Address := .contract 5
def asset : Address := .contract 9
def payer : Address := .account 1

def others : Host := ⟨fun a => a = asset⟩

/-- An invocation that everyone but the processor has signed. -/
def invocation : Env := ⟨processor, .lit 100, .lit 1, fun a => a != processor, by decide⟩

/-- The funder holds a hundred. -/
def state : State where
  tokens := ⟨fun t a => if t = asset ∧ a = payer then .lit 100 else .lit 0⟩

end Sample

/-- An entry for the processor itself stays with it. -/
theorem own_entry_kept :
    let r := processBatch Sample.others Sample.invocation Sample.payer Sample.asset [Sample.processor] [.lit 5]
      Sample.state
    r.isOk = true ∧ (Sample.state.tokens.balance Sample.asset Sample.processor).val = 0 ∧
      ((settled Sample.state r).tokens.balance Sample.asset Sample.processor).val = 5 := by
  decide +kernel

end Drip.Batch
