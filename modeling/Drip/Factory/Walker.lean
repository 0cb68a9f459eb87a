import Drip.Support.Circuit
import Drip.Factory.Effects

/-!
# Factory — Walker

`contracts/factory/src/ttl.rs`: the walk that keeps the registry alive.  Each maintenance call comes
to the next `BATCH_LIMIT` ids, round the ids in use, and extends the entry of those that exist.  The
walk is a `Circuit` whose turns are cut short at `u64::MAX`, where the sums saturate.

* `bumpBucket_snd`: the cursor is the one of `bumpPersistentBucket`.
* `mem_bumped_iff`: which entries a call extends.
* `walker_covers`: a round of calls extends every entry, below the last three counts a `u64` can hold.
-/

namespace Drip.Factory
open Circuit

variable {st : Storage} {n count cursor id : U64} {sts : Nat → Storage} {k t : Nat}

/-- `u64::MAX`. -/
def u64Max : Nat := 18446744073709551615

theorem zero_le_u64Max : (0 : Int) ≤ 18446744073709551615 := by decide

/-- The id the `i`-th turn of the loop comes to. -/
def nextId (count cursor : U64) (i : Nat) : U64 :=
  let next := (cursor.saturatingAdd (.lit 1)).saturatingAdd (.clamp i zero_le_u64Max)
  .clamp (next.val % count.val) zero_le_u64Max

/-- One turn of the loop of `bump_persistent_bucket`: the id it comes to, and the entries bumped. -/
def bumpTurn (st : Storage) (count cursor : U64) (acc : U64 × List U64) (i : Nat) : U64 × List U64 :=
  let id := nextId count cursor i
  if (st.streamAddr id).isSome = true then (id, acc.2 ++ [id]) else (id, acc.2)

/-- `bump_persistent_bucket` with the entries it bumps, whose number it returns. -/
def bumpBucket (st : Storage) : List U64 × Storage :=
  let count := st.streamCount.getD (.lit 0)
  if count.val = 0 then ([], st)
  else
    let cursor := st.lastBumpedId.getD (.lit 0)
    let (newLast, bumped) := (List.range batchLimit).foldl (bumpTurn st count cursor) (cursor, [])
    (bumped, { st with lastBumpedId := some newLast })

/-! ### One call -/

theorem bump_loop : (List.range k).foldl (bumpTurn st count cursor) (cursor, []) =
    ((List.range k).foldl (fun _ i => nextId count cursor i) cursor,
      ((List.range k).map (nextId count cursor)).filter fun id => (st.streamAddr id).isSome) := by
  induction k with
  | zero => rfl
  | succ k ih =>
      rw [List.range_succ, List.foldl_append, ih, List.foldl_append, List.map_append,
        List.filter_append]
      simp only [List.foldl_cons, List.foldl_nil, List.map_cons, List.map_nil, bumpTurn]
      split
      next hex => simp [hex]
      next hno => simp [hno]

theorem bumpBucket_snd : (bumpBucket st).2 = bumpPersistentBucket st := by
  unfold bumpBucket bumpPersistentBucket
  dsimp only
  split
  · rfl
  · rw [bump_loop]
    rfl

theorem touched_le : (bumpBucket st).1.length ≤ batchLimit := by
  unfold bumpBucket
  dsimp only
  split
  · exact Nat.zero_le _
  · rw [bump_loop]
    refine (List.length_filter_le _ _).trans ?_
    rw [List.length_map, List.length_range]

/-- A number of the walk, as a natural number. -/
abbrev place (id : U64) : Nat := id.val.toNat

theorem place_nextId (hn : 0 < n.val) (hk : k < batchLimit) :
    place (nextId n cursor k) = min (place cursor + (k + 1)) u64Max % place n := by
  have hc := cursor.ge
  have hc' := cursor.le
  have hle := n.le
  have hnext : ((cursor.saturatingAdd (.lit 1)).saturatingAdd (.clamp k zero_le_u64Max)).val =
      ((min (place cursor + (k + 1)) u64Max : Nat) : Int) := by
    simp only [Ranged.saturatingAdd, Ranged.val_clamp, place, u64Max, batchLimit] at hk ⊢
    omega
  have hmod := Int.emod_lt_of_pos ((min (place cursor + (k + 1)) u64Max : Nat) : Int) hn
  have hmod' := Int.emod_nonneg ((min (place cursor + (k + 1)) u64Max : Nat) : Int) hn.ne'
  have hn' : n.val = (place n : Int) := by simp only [place]; omega
  unfold nextId
  dsimp only
  rw [place, Ranged.val_clamp, hnext, max_eq_right (by omega), min_eq_left (by omega), hn',
    ← Int.natCast_emod, Int.toNat_natCast]

theorem nextId_lt (hn : 0 < n.val) : (nextId n cursor k).val < n.val := by
  have hmod := Int.emod_lt_of_pos
    ((cursor.saturatingAdd (.lit 1)).saturatingAdd (.clamp k zero_le_u64Max)).val hn
  have hle := n.le
  unfold nextId
  dsimp only
  rw [Ranged.val_clamp]
  omega

/-- The ids of the window: the places a turn passes. -/
theorem passes_iff (hn : 0 < n.val) (hc : cursor.val < n.val) :
    Passes (place n) (capped batchLimit u64Max) (place cursor) (place id) ↔
    ∃ i < batchLimit, nextId n cursor i = id := by
  have hle := n.le
  have hc₀ := cursor.ge
  have hroom : place cursor < u64Max := by simp only [place, u64Max]; omega
  have heq : ∀ i < batchLimit, nextId n cursor i = id ↔
      min (place cursor + (i + 1)) u64Max % place n = place id := by
    intro i hi
    rw [← place_nextId hn hi, Ranged.ext_iff]
    have h₁ := (nextId n cursor i).ge
    have h₂ := id.ge
    simp only [place]
    omega
  unfold Passes capped
  constructor
  · rintro ⟨j, hj, hx⟩
    refine ⟨j, by omega, (heq j (by omega)).mpr ?_⟩
    rw [min_eq_left (by omega), hx]
  · rintro ⟨i, hi, hx⟩
    have hx := (heq i hi).mp hx
    rcases Nat.lt_or_ge (place cursor + i) u64Max with hlt | hge
    · exact ⟨i, by omega, by rwa [min_eq_left (by omega)] at hx⟩
    · -- the saturated sums come to one id, the last of the turn
      refine ⟨u64Max - place cursor - 1, by simp only [batchLimit] at hi ⊢; omega, ?_⟩
      rw [min_eq_right (by omega)] at hx
      rwa [show place cursor + (u64Max - place cursor - 1 + 1) = u64Max by omega]

theorem mem_bumped_iff (hcount : st.streamCount = some n) (hn : 0 < n.val)
    (hc : (st.lastBumpedId.getD (.lit 0)).val < n.val) : id ∈ (bumpBucket st).1 ↔
    (st.streamAddr id).isSome = true ∧ Passes (place n) (capped batchLimit u64Max)
      (place (st.lastBumpedId.getD (.lit 0))) (place id) := by
  rw [passes_iff hn hc]
  unfold bumpBucket
  simp only [hcount, Option.getD_some, if_neg hn.ne', bump_loop, List.mem_filter, List.mem_map,
    List.mem_range]
  exact and_comm

theorem cursor_after (hcount : st.streamCount = some n) (hn : 0 < n.val) :
    (bumpPersistentBucket st).lastBumpedId = some (nextId n (st.lastBumpedId.getD (.lit 0)) 7) := by
  unfold bumpPersistentBucket
  simp only [hcount, Option.getD_some, if_neg hn.ne']
  rfl

theorem place_cursor (hn : 0 < n.val) (hc : cursor.val < n.val) : place (nextId n cursor 7) =
    turn (place n) (capped batchLimit u64Max) (place cursor) := by
  have hle := n.le
  have hc₀ := cursor.ge
  rw [place_nextId hn (by decide), turn, capped]
  congr 1
  simp only [place, u64Max, batchLimit]
  omega

/-! ### Rounds of calls -/

/-- The storage at each of a series of calls, while no stream is created: whatever else changes
between them, the count stays and the cursor is the one the last call left. -/
structure Walked (n : U64) (sts : Nat → Storage) : Prop where
  count : ∀ i, (sts i).streamCount = some n
  next : ∀ i, (sts (i + 1)).lastBumpedId = (bumpPersistentBucket (sts i)).lastBumpedId

/-- The cursor a call starts from. -/
def cursorAt (st : Storage) : U64 := st.lastBumpedId.getD (.lit 0)

/-- The calls of a round: `ceil(n / BATCH_LIMIT)`. -/
def roundOf (n : U64) : Nat := (place n + (batchLimit - 1)) / batchLimit

theorem Walked.turns (h : Walked n sts) (hn : 0 < n.val) (hc : (cursorAt (sts 0)).val < n.val)
    (t : Nat) :
    (cursorAt (sts t)).val < n.val ∧
    place (cursorAt (sts t)) =
      (turn (place n) (capped batchLimit u64Max))^[t] (place (cursorAt (sts 0))) := by
  induction t with
  | zero => exact ⟨hc, rfl⟩
  | succ t ih =>
      obtain ⟨hlt, hplace⟩ := ih
      have hnext : cursorAt (sts (t + 1)) = nextId n (cursorAt (sts t)) 7 := by
        rw [cursorAt, h.next, cursor_after (h.count t) hn]
        rfl
      rw [hnext, Function.iterate_succ_apply', ← hplace]
      exact ⟨nextId_lt hn, place_cursor hn hlt⟩

/-- What the first `t` calls extend of the entries that are there throughout. -/
theorem Walked.extended_iff (h : Walked n sts) (hn : 0 < n.val) (hc : (cursorAt (sts 0)).val < n.val)
    (hex : ∀ i < t, ((sts i).streamAddr id).isSome = true) :
    (∃ i < t, id ∈ (bumpBucket (sts i)).1) ↔
    Passed (place n) (capped batchLimit u64Max) (place (cursorAt (sts 0))) t (place id) := by
  refine exists_congr fun i => and_congr_right fun hi => ?_
  obtain ⟨hlt, hplace⟩ := h.turns hn hc i
  rw [mem_bumped_iff (h.count i) hn hlt, ← hplace]
  exact and_iff_right (hex i hi)

/-- **The walk comes round.**  While the count stays, every call leaves the cursor below it and touches
at most `BATCH_LIMIT` entries; and if the count is not one of the last three, a round of calls extends
every entry. -/
theorem walker_covers (h : Walked n sts) (hn : 0 < n.val) (hc : (cursorAt (sts 0)).val < n.val) :
    (∀ i, (cursorAt (sts i)).val < n.val ∧ (bumpBucket (sts i)).1.length ≤ batchLimit) ∧
    (n.val ≤ 18446744073709551612 → ∀ id : U64, id.val < n.val →
      (∀ i < roundOf n, ((sts i).streamAddr id).isSome = true) →
      ∃ i < roundOf n, id ∈ (bumpBucket (sts i)).1) := by
  refine ⟨fun i => ⟨(h.turns hn hc i).1, touched_le⟩, fun hle id hid hex => ?_⟩
  have hc₀ := (cursorAt (sts 0)).ge
  have hid₀ := id.ge
  have hstart : place (cursorAt (sts 0)) < place n := by simp only [place]; omega
  have hround : place n ≤ travelled (place n) (capped batchLimit u64Max)
      (place (cursorAt (sts 0))) (roundOf n) := by
    refine capped_covers hstart ?_ ?_
    · simp only [place, u64Max]
      omega
    · simp only [roundOf, place, u64Max, batchLimit]
      omega
  rw [h.extended_iff hn hc hex]
  exact (covers_iff hstart).mpr hround _ (by simp only [place]; omega)

/-! ### Calls with nothing between them -/

/-- The storage a series of calls starts from, each on what the one before left. -/
def calls (st : Storage) : Nat → Storage
  | 0 => st
  | i + 1 => bumpPersistentBucket (calls st i)

theorem calls_frame (st : Storage) (i : Nat) : ∃ last, calls st i = { st with lastBumpedId := last } := by
  induction i with
  | zero => exact ⟨st.lastBumpedId, rfl⟩
  | succ i ih =>
      obtain ⟨last, hlast⟩ := ih
      obtain ⟨last', hlast'⟩ := bump_frame (calls st i)
      exact ⟨last', by rw [calls, hlast', hlast]⟩

theorem walked_calls (h : st.streamCount = some n) : Walked n (calls st) where
  count i := by
    obtain ⟨last, hlast⟩ := calls_frame st i
    rw [hlast]
    exact h
  next _ := rfl

/-- A registry of ten ids, some of them gone, and the cursor at the last. -/
def Sample.registry : Storage where
  streamCount := some (.lit 10)
  lastBumpedId := some (.lit 9)
  streamAddr id := if id.val % 3 = 0 then none else some (.contract 7)

theorem Sample.registry_walked : Walked (.lit 10) (calls Sample.registry) := walked_calls rfl

theorem sample_covers :
    ∃ i < roundOf (.lit 10), (.lit 4 : U64) ∈ (bumpBucket (calls Sample.registry i)).1 := by
  refine (walker_covers Sample.registry_walked (by decide) (by decide)).2 (by decide) (.lit 4)
    (by decide) fun i _ => ?_
  obtain ⟨last, hlast⟩ := calls_frame Sample.registry i
  rw [hlast]
  rfl

/-- As many streams as a `u64` can count, and the cursor at the last. -/
def Sample.full : Storage where
  streamCount := some (.lit 18446744073709551615)
  lastBumpedId := some (.lit 18446744073709551614)
  streamAddr _ := some (.contract 7)

/-- The first call's sums saturate at once, and the round ends before it has come back. -/
theorem full_missed : (cursorAt (calls Sample.full 0)).val < 18446744073709551615 ∧
    Walked (.lit 18446744073709551615) (calls Sample.full) ∧
    (∀ i id, ((calls Sample.full i).streamAddr id).isSome = true) ∧
    ¬ ∃ i < roundOf (.lit 18446744073709551615),
      (.lit 18446744073709551614 : U64) ∈ (bumpBucket (calls Sample.full i)).1 := by
  have hwalked : Walked (.lit 18446744073709551615) (calls Sample.full) := walked_calls rfl
  have hex : ∀ i id, ((calls Sample.full i).streamAddr id).isSome = true := by
    intro i id
    obtain ⟨last, hlast⟩ := calls_frame Sample.full i
    rw [hlast]
    rfl
  refine ⟨by decide, hwalked, hex, ?_⟩
  rw [hwalked.extended_iff (by decide) (by decide) fun i _ => hex i _]
  have hstart := start_passed_iff (n := 18446744073709551615) (c := 18446744073709551614)
    (t := 2305843009213693951 + 1) (w := capped batchLimit u64Max) (by decide)
  have hle : travelled 18446744073709551615 (capped batchLimit u64Max) 18446744073709551614
      (2305843009213693951 + 1) ≤ 1 + 8 * 2305843009213693951 :=
    travelled_le fun c => Nat.min_le_left _ _
  exact fun h => absurd (hstart.mp h) (by omega)

end Drip.Factory
