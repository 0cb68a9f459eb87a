import Drip.Stream.State
import Drip.Indexer.Scaffold.Handlers

/-!
# Indexer — Decoding

The events of a stream on their way from the chain to the two indexers.  `symbol` is the first topic each
event of `contracts/stream/src/events.rs` is published under, and `eventType` its name in the README.  What
turns the published values into JSON is not part of the repository: a `Decoder` is anything that keeps to
the tables of `indexer/src/indexer/types.ts`.

* `Decoder.raw`, `Decoder.decoded`: the event as `foldEvent` and as `applyEvent` receive it.
* `Decoder.streamId_raw`, `Decoder.streamId_decoded`: its stream is named by its contract.
* `eventType_injective`, `canonical_injective`: distinct symbols stay distinct under their other names.
-/

namespace Drip.Indexer
open Chain

/-- An event of a stream, where the chain recorded it. -/
structure Emission where
  contract : Address
  ledger : U32
  txHash : String
  published : Stream.Published
deriving DecidableEq

/-! ### Names -/

/-- The symbol in the first topic. -/
def symbol : Stream.Event → String
  | .created .. => "created"
  | .withdrawn .. => "withdrawn"
  | .cancelled .. => "cancelled"
  | .forceCancelled .. => "force_cxl"
  | .paused .. => "paused"
  | .resumed .. => "resumed"
  | .toppedUp .. => "topped_up"
  | .toppedUpAndExtended .. => "top_ext"
  | .rateChanged .. => "rate_chg"
  | .clawback .. => "clawback"
  | .recipientTransferred .. => "xfer_rec"
  | .operatorSet .. => "set_op"
  | .operatorRevoked .. => "rm_op"
  | .splitRecipientSet .. => "set_split"
  | .splitRecipientRemoved .. => "rm_split"
  | .cliffConfigured .. => "set_cliff"
  | .minWithdrawalIntervalSet .. => "min_w_int"
  | .keeperPing .. => "StreamKeeperPing"
  | .keeperRewardPoolConfigured .. => "keepercfg"
  | .keeperRewardPoolFunded .. => "keeperfnd"
  | .keeperRewardPoolWithdrawn .. => "keeper_wd"
  | .emergencyPaused .. => "emg_pause"
  | .emergencyUnpaused .. => "emg_unps"
  | .cliffReached .. => "cliff_rch"
  | .streamCompleted .. => "completed"

def symbols : List String :=
  ["created", "withdrawn", "cancelled", "force_cxl", "paused", "resumed", "topped_up", "top_ext", "rate_chg",
    "clawback", "xfer_rec", "set_op", "rm_op", "set_split", "rm_split", "set_cliff", "min_w_int",
    "StreamKeeperPing", "keepercfg", "keeperfnd", "keeper_wd", "emg_pause", "emg_unps", "cliff_rch",
    "completed"]

theorem symbol_mem (e : Stream.Event) : symbol e ∈ symbols := by
  cases e <;> simp [symbol, symbols]

/-- The name that the README has for the symbol; the others go by their symbol. -/
def readmeName : String → String
  | "withdrawn" => "stream_withdrawn"
  | "cancelled" => "stream_cancelled"
  | "paused" => "stream_paused"
  | "resumed" => "stream_resumed"
  | "topped_up" => "stream_topped_up"
  | "clawback" => "stream_clawback"
  | name => name

def eventType (e : Stream.Event) : String := readmeName (symbol e)

theorem eventType_injective {e e' : Stream.Event} (h : eventType e = eventType e') : symbol e = symbol e' := by
  have hall : ∀ a ∈ symbols, ∀ b ∈ symbols, readmeName a = readmeName b → a = b := by decide +kernel
  exact hall _ (symbol_mem e) _ (symbol_mem e') h

theorem canonical_injective {e e' : Stream.Event} {name : String} {field field' : Option String}
    (h : Scaffold.lifecycle (symbol e) = some (name, field))
    (h' : Scaffold.lifecycle (symbol e') = some (name, field')) : symbol e = symbol e' := by
  have hall : ∀ a ∈ symbols, ∀ b ∈ symbols, (Scaffold.lifecycle a).isSome = true →
      (Scaffold.lifecycle a).map Prod.fst = (Scaffold.lifecycle b).map Prod.fst → a = b := by
    decide +kernel
  refine hall _ (symbol_mem e) _ (symbol_mem e') ?_ ?_
  · rw [h]
    rfl
  · rw [h, h']
    rfl

/-! ### Decoders -/

/-- What turns published events into JSON. -/
structure Decoder where
  /-- the text of an address -/
  text : Address → String
  topics : Stream.Published → Value
  fields : Stream.Published → List (String × Value)
  text_injective : Function.Injective text
  /-- every event has its sequence number among its topics -/
  sequence_of_topics : ∀ {p q}, topics p = topics q → p.sequence = q.sequence
  /-- a lifecycle event has it among its fields too -/
  sequence_of_fields : ∀ {p q}, (Scaffold.lifecycle (symbol p.event)).isSome = true →
    symbol p.event = symbol q.event → fields p = fields q → p.sequence = q.sequence
  /-- no field names the stream -/
  anonymous : ∀ p, ∀ name ∈ ["stream_id", "streamId", "id"], (fields p).lookup name = none
  newRecipient : ∀ n old new, (fields ⟨n, .recipientTransferred old new⟩).lookup "new_recipient" =
    some (.str (text new))

namespace Decoder

variable (d : Decoder) (x : Emission)

/-- The event as it comes to `foldEvent`. -/
def raw : RawEvent where
  ledger := x.ledger
  txHash := x.txHash
  eventType := eventType x.published.event
  contractId := d.text x.contract
  topics := d.topics x.published
  data := d.fields x.published

/-- The event as it comes to `applyEvent`. -/
def decoded : Scaffold.ChainEvent where
  type := symbol x.published.event
  fields := d.fields x.published
  ledger := some x.ledger.val
  contractId := some (d.text x.contract)
  txHash := some x.txHash

theorem streamId_raw : (d.raw x).streamId = d.text x.contract := by
  have h := d.anonymous x.published
  unfold RawEvent.streamId RawEvent.text₂ RawEvent.get
  show (((d.fields x.published).lookup "stream_id").getD .null |>.or _).text = _
  rw [h "stream_id" (by decide)]
  show (((d.fields x.published).lookup "streamId").getD .null |>.or _).text = _
  rw [h "streamId" (by decide)]
  rfl

theorem streamId_decoded : (d.decoded x).streamId = d.text x.contract := by
  have h := d.anonymous x.published
  unfold Scaffold.ChainEvent.streamId Scaffold.ChainEvent.get
  show Scaffold.str ((((d.fields x.published).lookup "stream_id").getD .null).or
    ((((d.fields x.published).lookup "streamId").getD .null).or
      ((((d.fields x.published).lookup "id").getD .null).or (.str (d.text x.contract))))) = _
  rw [h "stream_id" (by decide), h "streamId" (by decide), h "id" (by decide)]
  rfl

end Decoder

/-! ### The tables of `types.ts` -/

/-- A number of the contract, which arrives as a decimal text. -/
def amountText (n : Int) : Value := .str (toString n)

/-- The fields that `types.ts` lists for the event, before its sequence number; for the events it does not
list, none. -/
def documentedFields (text : Address → String) : Stream.Event → List (String × Value)
  | .created _ recipient token rate startTime endTime _ =>
      [("recipient", .str (text recipient)), ("token", .str (text token)),
        ("rate_per_second", amountText rate.val), ("start_time", .num startTime.val),
        ("end_time", .num endTime.val)]
  | .withdrawn _ amount total remaining =>
      [("amount", amountText amount.val), ("total_withdrawn", amountText total.val),
        ("remaining", amountText remaining.val)]
  | .cancelled _ refund soFar _ | .forceCancelled _ refund soFar _ =>
      [("refund_amount", amountText refund.val), ("withdrawn_so_far", amountText soFar.val)]
  | .paused _ pausedAt w => [("paused_at", .num pausedAt.val), ("withdrawable", amountText w.val)]
  | .resumed _ resumedAt => [("resumed_at", .num resumedAt.val)]
  | .toppedUp _ amount newBalance =>
      [("amount", amountText amount.val), ("new_balance", amountText newBalance.val)]
  | .clawback _ amount => [("amount", amountText amount.val)]
  | .recipientTransferred _ new => [("new_recipient", .str (text new))]
  | .operatorSet _ operator => [("operator", .str (text operator))]
  | _ => []

/-- The fields of an event, its sequence number last. -/
def documented (text : Address → String) (p : Stream.Published) : List (String × Value) :=
  documentedFields text p.event ++ [("sequence", .num p.sequence.val)]

/-- The decoder that does as `types.ts` says; of the topics it keeps the sequence number. -/
def Decoder.ofText (text : Address → String) (h : Function.Injective text) : Decoder where
  text := text
  topics := fun p => .num p.sequence.val
  fields := documented text
  text_injective := h
  sequence_of_topics := fun heq => Ranged.ext (Value.num.inj heq)
  sequence_of_fields := fun _ _ heq => by
    have hlast := congrArg List.getLast? heq
    unfold documented at hlast
    rw [List.getLast?_concat, List.getLast?_concat, Option.some.injEq, Prod.mk.injEq, Value.num.injEq] at hlast
    exact Ranged.ext hlast.2
  anonymous := fun ⟨n, e⟩ name hname => by
    simp only [List.mem_cons, List.not_mem_nil, or_false] at hname
    unfold documented
    cases e <;> rcases hname with rfl | rfl | rfl <;> rfl
  newRecipient := fun _ _ _ => rfl

namespace Sample

def text : Address → String
  | .account key => "G" ++ toString key.toNat
  | .contract id => "CA" ++ toString id.toNat

theorem toString_injective {n n' : Nat} (h : toString n = toString n') : n = n' := by
  have hdigits : Nat.toDigits 10 n = Nat.toDigits 10 n' := by
    rw [← Nat.toList_repr, ← Nat.toList_repr]
    exact congrArg String.toList h
  rw [← Nat.ofDigitChars_ten_toDigits (n := n), hdigits, Nat.ofDigitChars_ten_toDigits]

theorem text_injective : Function.Injective text := by
  have hinj {k k' : BitVec 256} {p : String} (h : p ++ toString k.toNat = p ++ toString k'.toNat) : k = k' :=
    BitVec.eq_of_toNat_eq (toString_injective ((String.append_right_inj p).mp h))
  rintro (k | k) (k' | k') h
  · rw [hinj h]
  · exact absurd (congrArg (fun s => s.toList.head?) h) (by simp [text])
  · exact absurd (congrArg (fun s => s.toList.head?) h) (by simp [text])
  · rw [hinj h]

def decoder : Decoder := .ofText text text_injective

end Sample

end Drip.Indexer
