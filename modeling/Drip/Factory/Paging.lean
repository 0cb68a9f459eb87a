import Drip.Support.Paged
import Drip.Factory.Index

/-!
# Factory — Paging

A paged index is a list.  `Holds L A ix` says that the index `ix` holds the entries of the legacy
vector `L` and then the appended entries `A`, in one of three layouts: the legacy vector alone, a
migration under way, or pages only.

* `migrate_holds`, `append_holds`: the two writers keep the layout, and return or extend the list.
* `readIndex_eq`, `countIndex_eq`: the readers return slices and the length of `L ++ A`.
* `indices_refine_lists`: over any run of appends, migrations and reads.
-/

namespace Drip.Factory
open Chain Paged

variable {L A : List U64} {ix ix' : Index} {n k i logical offset limit : Nat}

/-! ### Copying -/

theorem mapM_get {v : List U64} {start : Nat} (h : start + n ≤ v.length) :
    (List.range' start n).mapM (fun i => okOr v[i]? (.trap : Failure Error)) =
      .ok ((v.drop start).take n) := by
  induction n generalizing start with
  | zero => rw [List.range'_zero, List.mapM_nil, List.take_zero]; rfl
  | succ n ih =>
      have hlt : start < v.length := by omega
      rw [List.range'_succ, List.mapM_cons, ih (by omega), List.getElem?_eq_getElem hlt,
        List.drop_eq_getElem_cons hlt, List.take_succ_cons]
      rfl

theorem copyEntries_eq {v : List U64} {start stop : Nat} (h : stop ≤ v.length) :
    copyEntries v start stop = .ok ((v.drop start).take (stop - start)) := by
  unfold copyEntries
  by_cases hle : start ≤ stop
  · exact mapM_get (by omega)
  · rw [show stop - start = 0 by omega, List.range'_zero, List.mapM_nil, List.take_zero]
    rfl

/-- Taking up to the end is taking. -/
theorem take_min_length {v : List U64} :
    (v.drop offset).take (min (offset + n) v.length - offset) = (v.drop offset).take n := by
  by_cases h : offset + n ≤ v.length
  · rw [min_eq_left h, Nat.add_sub_cancel_left]
  · rw [min_eq_right (by omega), List.take_of_length_le (by rw [List.length_drop]),
      List.take_of_length_le (by rw [List.length_drop]; omega)]

theorem paginate_eq {v : List U64} (hv : v.length ≤ u32Max) :
    paginate v offset limit = .ok ((v.drop offset).take (min limit pageSize)) := by
  unfold paginate
  have hstop : min (saturatingAdd offset (min limit pageSize)) v.length =
      min (offset + min limit pageSize) v.length := by
    unfold saturatingAdd
    omega
  rw [hstop, copyEntries_eq (min_le_right _ _), take_min_length]

/-! ### The layouts -/

/-- The pages reserved for `L`. -/
def room (L : List U64) : Nat := (L.length + 99) / 100

/-- The legacy vector, and nothing else yet. -/
structure Untouched (L : List U64) (ix : Index) : Prop where
  legacy : ix.legacy = some L
  count : ix.count = none
  cursor : ix.cursor = none
  legacyCount : ix.legacyCount = none
  pages : ∀ p, ix.pages p = none

/-- The first `k` pages of the legacy vector are copied, and some are still to come. -/
structure Migrating (L A : List U64) (k : Nat) (ix : Index) : Prop where
  more : k * 100 < L.length
  legacy : ix.legacy = some L
  count : ix.count = some (L.length + A.length)
  cursor : ix.cursor = some (k * 100)
  legacyCount : ix.legacyCount = some L.length
  copied : ∀ p < room L, ix.pages p = if p < k then some (chunk 100 L p) else none
  appended : HeldFrom 100 (room L) A ix.pages

/-- Pages only.  An index that never had a legacy vector has no legacy count, and no count before
its first entry. -/
structure Complete (L A : List U64) (ix : Index) : Prop where
  legacy : ix.legacy = none
  count : ix.count = some (L.length + A.length) ∨ (ix.count = none ∧ L = [] ∧ A = [])
  cursor : ix.cursor = none
  legacyCount : ix.legacyCount = some L.length ∨ (ix.legacyCount = none ∧ L = [])
  copied : ∀ p < room L, ix.pages p = some (chunk 100 L p)
  appended : HeldFrom 100 (room L) A ix.pages

/-- The index holds `L`, the legacy entries, and then `A`, the appended ones. -/
inductive Holds (L A : List U64) (ix : Index) : Prop where
  | untouched (h : Untouched L ix) (hA : A = [])
  | migrating (k : Nat) (h : Migrating L A k ix)
  | complete (h : Complete L A ix)

/-- As `Holds`, once pages are in use. -/
inductive HoldsPaged (L A : List U64) (ix : Index) : Prop where
  | migrating (k : Nat) (h : Migrating L A k ix)
  | complete (h : Complete L A ix)

theorem HoldsPaged.holds (h : HoldsPaged L A ix) : Holds L A ix := by
  cases h with
  | migrating k h => exact .migrating k h
  | complete h => exact .complete h

/-- An index as the older layout left it, or one that does not exist yet. -/
theorem holds_of_legacy (legacy : Option (List U64)) :
    Holds (legacy.getD []) [] { legacy := legacy } := by
  cases legacy with
  | none =>
      refine .complete ⟨rfl, .inr ⟨rfl, rfl, rfl⟩, rfl, .inr ⟨rfl, rfl⟩, fun p hp => ?_, .nil fun _ => rfl⟩
      exact absurd hp (Nat.not_lt_zero p)
  | some L => exact .untouched ⟨rfl, rfl, rfl, rfl, fun _ => rfl⟩ rfl

/-! ### Migration -/

/-- The copying loop advances the cursor by whole pages and fills them. -/
theorem migratePages_eq {pages : Nat → Option (List U64)} (hL : L.length ≤ u32Max) :
    migratePages L L.length n (min (k * 100) L.length) pages =
      .ok (min ((k + n) * 100) L.length,
        fun p => if k ≤ p ∧ p < k + n ∧ p * 100 < L.length then some (chunk 100 L p)
          else pages p) := by
  induction n generalizing k pages with
  | zero =>
      have hpages : (fun p => if k ≤ p ∧ p < k + 0 ∧ p * 100 < L.length then some (chunk 100 L p)
          else pages p) = pages := by
        funext p
        exact if_neg (by omega)
      rw [hpages]
      rfl
  | succ n ih =>
      unfold migratePages
      by_cases hmore : k * 100 < L.length
      · have hcursor : min (k * 100) L.length = k * 100 := by omega
        have hstop : min (saturatingAdd (k * 100) pageSize) L.length =
            min ((k + 1) * 100) L.length := by
          unfold saturatingAdd pageSize
          omega
        have hpage : (L.drop (k * 100)).take (min ((k + 1) * 100) L.length - k * 100) =
            chunk 100 L k := by
          rw [show (k + 1) * 100 = k * 100 + 100 by omega, take_min_length]
          rfl
        rw [hcursor, if_pos hmore, hstop]
        dsimp only
        rw [copyEntries_eq (min_le_right _ _), hpage, ok_bind, ih,
          show k * 100 / pageSize = k from Nat.mul_div_cancel k (by decide)]
        congr 2
        · omega
        · funext p
          by_cases hp : p = k
          · subst hp
            rw [if_neg (by omega), if_pos (by omega), Function.update_self]
          · rw [Function.update_of_ne hp]
            by_cases hin : k + 1 ≤ p ∧ p < k + 1 + n ∧ p * 100 < L.length
            · rw [if_pos hin, if_pos (by omega)]
            · rw [if_neg hin, if_neg (by omega)]
      · -- the cursor already stands at the end
        rw [if_neg (by omega)]
        congr 2
        · omega
        · funext p
          rw [if_neg (by omega)]

theorem lt_room {p : Nat} : p < room L ↔ p * 100 < L.length := by
  unfold room
  omega

/-- The pages after `n` more of the legacy vector are copied. -/
def advanced (L : List U64) (k n : Nat) (pages : Nat → Option (List U64)) (p : Nat) :
    Option (List U64) :=
  if k ≤ p ∧ p < k + n ∧ p * 100 < L.length then some (chunk 100 L p) else pages p

theorem advanced_copied {pages : Nat → Option (List U64)} {p : Nat} (hp : p < room L)
    (h : ∀ p < room L, pages p = if p < k then some (chunk 100 L p) else none) :
    advanced L k n pages p = if p < k + n then some (chunk 100 L p) else none := by
  have hlt := lt_room.mp hp
  unfold advanced
  rw [h p hp]
  by_cases hbefore : p < k
  · rw [if_neg (by omega), if_pos hbefore, if_pos (by omega)]
  · by_cases hin : p < k + n
    · rw [if_pos (by omega), if_pos hin]
    · rw [if_neg (by omega), if_neg hbefore, if_neg hin]

theorem advanced_appended {pages : Nat → Option (List U64)} (h : HeldFrom 100 (room L) A pages) :
    HeldFrom 100 (room L) A (advanced L k n pages) := by
  intro p
  have hpast : ¬ room L + p < room L := by omega
  rw [lt_room] at hpast
  exact (if_neg (by omega)).trans (h p)

/-- The writes after the copying loop. -/
theorem migrate_tail {pages : Nat → Option (List U64)} (hL : L.length ≤ u32Max)
    (hmore : k * 100 < L.length)
    (hcopied : ∀ p < room L, pages p = if p < k then some (chunk 100 L p) else none)
    (happended : HeldFrom 100 (room L) A pages) :
    ∃ ix', (do
        let (cursor, pages) ← migratePages L L.length n (k * 100) pages
        if L.length ≤ cursor then
          return (L.length + A.length,
            ⟨none, some (L.length + A.length), none, some L.length, pages⟩)
        else return (L.length + A.length,
            ⟨some L, some (L.length + A.length), some cursor, some L.length, pages⟩) :
          Result (Nat × Index)) = .ok (L.length + A.length, ix') ∧ HoldsPaged L A ix' := by
  have hcursor : k * 100 = min (k * 100) L.length := by omega
  rw [hcursor, migratePages_eq hL, ok_bind]
  dsimp only
  by_cases hdone : L.length ≤ (k + n) * 100
  · rw [if_pos (by omega)]
    refine ⟨_, rfl, .complete ⟨rfl, .inl rfl, rfl, .inl rfl, fun p hp => ?_,
      advanced_appended happended⟩⟩
    have hlt := lt_room.mp hp
    exact (advanced_copied hp hcopied).trans (if_pos (by omega))
  · rw [if_neg (by omega)]
    refine ⟨_, rfl, .migrating (k + n) ⟨by omega, rfl, rfl, ?_, rfl,
      fun p hp => advanced_copied hp hcopied, advanced_appended happended⟩⟩
    show some (min ((k + n) * 100) L.length) = some ((k + n) * 100)
    rw [min_eq_left (by omega)]

/-- Migration keeps the list, and returns its length. -/
theorem migrate_holds (h : Holds L A ix) (hL : L.length ≤ u32Max) (maxPages : Nat) :
    ∃ ix', migrateLegacyIndex ix maxPages = .ok (L.length + A.length, ix') ∧ Holds L A ix' ∧
      (0 < maxPages → HoldsPaged L A ix') := by
  unfold migrateLegacyIndex
  cases h with
  | untouched h hA =>
      obtain ⟨legacy, count, cursor, legacyCount, pages⟩ := ix
      obtain ⟨rfl, rfl, rfl, rfl, hpages⟩ := h
      subst hA
      dsimp only [Option.getD_none] at hpages ⊢
      by_cases hempty : L.length ≤ 0
      · obtain rfl : L = [] := List.eq_nil_of_length_eq_zero (by omega)
        have hc : Complete [] [] { pages := pages } :=
          ⟨rfl, .inr ⟨rfl, rfl, rfl⟩, rfl, .inr ⟨rfl, rfl⟩,
            fun p hp => absurd hp (Nat.not_lt_zero p), .nil fun p => hpages _⟩
        rw [if_pos hempty]
        exact ⟨_, rfl, .complete hc, fun _ => .complete hc⟩
      · rw [if_neg hempty]
        by_cases hcap : min maxPages maxMigrationPages = 0
        · rw [if_pos hcap]
          refine ⟨_, rfl, .untouched ⟨rfl, rfl, rfl, rfl, hpages⟩ rfl, fun hpos => ?_⟩
          unfold maxMigrationPages at hcap
          omega
        · rw [if_neg hcap]
          have hnone : ∀ p < room L, pages p = if p < 0 then some (chunk 100 L p) else none :=
            fun p _ => (hpages p).trans (if_neg (Nat.not_lt_zero p)).symm
          obtain ⟨ix', heq, hix'⟩ := migrate_tail (k := 0)
            (n := min maxPages maxMigrationPages) hL (by omega) hnone (.nil fun p => hpages _)
          exact ⟨ix', heq, hix'.holds, fun _ => hix'⟩
  | migrating k h =>
      obtain ⟨legacy, count, cursor, legacyCount, pages⟩ := ix
      obtain ⟨hmore, rfl, rfl, rfl, rfl, hcopied, happended⟩ := h
      dsimp only [Option.getD_some] at hcopied happended ⊢
      rw [if_neg (by omega)]
      by_cases hcap : min maxPages maxMigrationPages = 0
      · have hm : Migrating L A k ⟨some L, some (L.length + A.length), some (k * 100),
          some L.length, pages⟩ := ⟨hmore, rfl, rfl, rfl, rfl, hcopied, happended⟩
        rw [if_pos hcap]
        exact ⟨_, rfl, .migrating k hm, fun _ => .migrating k hm⟩
      · rw [if_neg hcap]
        obtain ⟨ix', heq, hix'⟩ := migrate_tail (n := min maxPages maxMigrationPages) hL hmore
          hcopied happended
        exact ⟨ix', heq, hix'.holds, fun _ => hix'⟩
  | complete h =>
      rw [h.legacy]
      refine ⟨ix, ?_, .complete h, fun _ => .complete h⟩
      rcases h.count with hc | ⟨hc, rfl, rfl⟩
      · rw [hc]; rfl
      · rw [hc]; rfl

/-! ### Appending -/

theorem appendBase_eq (hL : L.length + 99 ≤ u32Max) : appendBase L.length = .ok (room L * 100) := by
  unfold appendBase
  by_cases h : L.length = 0
  · rw [if_pos h]
    unfold room
    rw [h]
  · have hbase : ((L.length - 1) / pageSize + 1) * pageSize = room L * 100 := by
      unfold room pageSize
      omega
    have hle : room L * 100 ≤ L.length + 99 := Nat.div_mul_le_self _ _
    rw [if_neg h]
    dsimp only
    have hfits : reject (u32Max < room L * 100) (Failure.trap : Failure Error) = .ok () :=
      reject_eq_ok.mpr (by omega)
    rw [hbase, hfits]
    rfl

/-- The appended entries stand after the room of the legacy vector. -/
theorem physical_appended {legacyCount : Option Nat} (hL : L.length + i + 99 ≤ u32Max)
    (hc : legacyCount = some L.length ∨ (legacyCount = none ∧ L = [])) :
    logicalToPhysicalOffset (L.length + i) legacyCount = .ok (room L * 100 + i) := by
  rcases hc with rfl | ⟨rfl, rfl⟩
  · have hle : room L * 100 ≤ L.length + 99 := Nat.div_mul_le_self _ _
    unfold logicalToPhysicalOffset
    dsimp only
    rw [if_pos (by omega), appendBase_eq (by omega), ok_bind, Nat.add_sub_cancel_left]
    unfold saturatingAdd
    rw [min_eq_left (by omega)]
    rfl
  · show Except.ok (0 + i) = Except.ok (0 * 100 + i)
    rw [Nat.zero_mul]

theorem copied_of_update {pages : Nat → Option (List U64)} {p q : Nat} {page : Option (List U64)}
    (hp : p < room L) : Function.update pages (room L + q) page p = pages p :=
  Function.update_of_ne (by omega) _ _

/-- An append adds its entry at the end of the list. -/
theorem append_holds (h : Holds L A ix) (hL : L.length + A.length + 100 ≤ u32Max) (entry : U64) :
    ∃ ix', appendIndexEntry ix entry = .ok ix' ∧ Holds L (A ++ [entry]) ix' := by
  obtain ⟨ix₁, hmig, -, hpaged⟩ := migrate_holds h (by omega) migrationPagesPerAppend
  have hpaged := hpaged (by decide)
  have hcount : saturatingAdd (L.length + A.length) 1 = L.length + (A ++ [entry]).length := by
    unfold saturatingAdd
    rw [List.length_append, List.length_singleton]
    omega
  have hdiv : (room L * 100 + A.length) / pageSize = room L + A.length / 100 := by
    unfold pageSize
    omega
  unfold appendIndexEntry
  rw [hmig, ok_bind]
  dsimp only
  cases hpaged with
  | migrating k h =>
      rw [physical_appended (by omega) (.inl h.legacyCount), ok_bind, hdiv, hcount]
      refine ⟨_, rfl, .migrating k ⟨h.more, h.legacy, rfl, h.cursor, h.legacyCount, fun p hp => ?_,
        h.appended.push (by decide)⟩⟩
      exact (copied_of_update hp).trans (h.copied p hp)
  | complete h =>
      rw [physical_appended (by omega) h.legacyCount, ok_bind, hdiv, hcount]
      refine ⟨_, rfl, .complete ⟨h.legacy, .inl rfl, h.cursor, h.legacyCount, fun p hp => ?_,
        h.appended.push (by decide)⟩⟩
      exact (copied_of_update hp).trans (h.copied p hp)

/-! ### Reading -/

/-- A legacy entry that is on a page already. -/
theorem readPaged_copied {page : List U64} (hlt : logical < L.length)
    (hc : ix.legacyCount = some L.length) (hp : ix.pages (logical / 100) = some page)
    (hpage : page = chunk 100 L (logical / 100)) : readPaged ix logical = .ok (L ++ A)[logical]? := by
  unfold readPaged logicalToPhysicalOffset
  rw [hc]
  dsimp only
  rw [if_neg (by omega), ok_bind]
  unfold collectPage pageSize
  rw [hp, hpage, List.getElem?_append_left hlt]
  show Except.ok (chunk 100 L (logical / 100))[logical % 100]? = _
  rw [getElem?_chunk_div (by decide)]

/-- An appended entry. -/
theorem readPaged_appended (hle : L.length ≤ logical) (hlt : logical < L.length + A.length)
    (hL : L.length + A.length + 99 ≤ u32Max)
    (hc : ix.legacyCount = some L.length ∨ (ix.legacyCount = none ∧ L = []))
    (h : HeldFrom 100 (room L) A ix.pages) : readPaged ix logical = .ok (L ++ A)[logical]? := by
  obtain ⟨i, rfl⟩ := Nat.exists_eq_add_of_le hle
  obtain ⟨page, hp, hget⟩ := h.lookup (by decide) (show i < A.length by omega)
  have hdiv : (room L * 100 + i) / pageSize = room L + i / 100 := by
    unfold pageSize
    omega
  have hmod : (room L * 100 + i) % pageSize = i % 100 := by
    unfold pageSize
    omega
  unfold readPaged
  rw [physical_appended (by omega) hc, ok_bind, hdiv, hmod]
  unfold collectPage
  rw [hp, List.getElem?_append_right hle, Nat.add_sub_cancel_left, ← hget]
  rfl

theorem readEntry_eq (h : HoldsPaged L A ix) (hL : L.length + A.length + 99 ≤ u32Max)
    (hlt : logical < L.length + A.length) : readEntry ix logical = .ok (L ++ A)[logical]? := by
  cases h with
  | migrating k h =>
      unfold readEntry
      rw [h.legacyCount, h.cursor, h.legacy]
      dsimp only
      by_cases hin : logical < L.length ∧ k * 100 ≤ logical
      · rw [if_pos hin, List.getElem?_append_left hin.1, List.getElem?_eq_getElem hin.1]
        rfl
      · rw [if_neg hin]
        by_cases hleg : logical < L.length
        · refine readPaged_copied hleg h.legacyCount ?_ rfl
          exact (h.copied _ (lt_room.mpr (by omega))).trans (if_pos (by omega))
        · exact readPaged_appended (by omega) hlt hL (.inl h.legacyCount) h.appended
  | complete h =>
      have hpaged : readEntry ix logical = readPaged ix logical := by
        unfold readEntry
        rw [h.cursor]
        split
        · contradiction
        · rfl
      rw [hpaged]
      by_cases hleg : logical < L.length
      · rcases h.legacyCount with hc | ⟨-, rfl⟩
        · exact readPaged_copied hleg hc (h.copied _ (lt_room.mpr (by omega))) rfl
        · exact absurd hleg (Nat.not_lt_zero _)
      · exact readPaged_appended (by omega) hlt hL h.legacyCount h.appended

theorem readEntries_eq (h : HoldsPaged L A ix) (hL : L.length + A.length + 99 ≤ u32Max)
    (hn : logical + n ≤ L.length + A.length) :
    readEntries ix n logical = .ok (((L ++ A).drop logical).take n) := by
  induction n generalizing logical with
  | zero => rw [List.take_zero]; rfl
  | succ n ih =>
      have hlt : logical < (L ++ A).length := by rw [List.length_append]; omega
      have hnext : saturatingAdd logical 1 = logical + 1 := by
        unfold saturatingAdd
        omega
      unfold readEntries
      rw [readEntry_eq h hL (by omega), ok_bind, List.getElem?_eq_getElem hlt]
      dsimp only
      rw [hnext, ih (by omega), List.drop_eq_getElem_cons hlt, List.take_succ_cons]
      rfl

theorem readIndex_paged (h : HoldsPaged L A ix) (hL : L.length + A.length + 99 ≤ u32Max)
    (hc : ix.count = some (L.length + A.length)) :
    readIndex ix offset limit = .ok (((L ++ A).drop offset).take (min limit pageSize)) := by
  unfold readIndex
  rw [hc]
  dsimp only
  by_cases hpast : L.length + A.length ≤ offset
  · rw [if_pos hpast, List.drop_of_length_le (by rw [List.length_append]; exact hpast),
      List.take_nil]
  · have hstop : min (saturatingAdd offset (min limit pageSize)) (L.length + A.length) =
        min (offset + min limit pageSize) (L ++ A).length := by
      unfold saturatingAdd
      rw [List.length_append]
      omega
    have hlen : (L ++ A).length = L.length + A.length := List.length_append
    rw [if_neg hpast, hstop, readEntries_eq h hL (by omega), take_min_length]

/-- **A read is a slice.** -/
theorem readIndex_eq (h : Holds L A ix) (hL : L.length + A.length + 99 ≤ u32Max) :
    readIndex ix offset limit = .ok (((L ++ A).drop offset).take (min limit pageSize)) := by
  cases h with
  | untouched h hA =>
      subst hA
      unfold readIndex
      rw [h.count, h.legacy, List.append_nil]
      exact paginate_eq (show L.length ≤ u32Max by omega)
  | migrating k h => exact readIndex_paged (.migrating k h) hL h.count
  | complete h =>
      rcases h.count with hc | ⟨hc, rfl, rfl⟩
      · exact readIndex_paged (.complete h) hL hc
      · unfold readIndex
        rw [hc, h.legacy]
        exact paginate_eq (Nat.zero_le _)

theorem countIndex_eq (h : Holds L A ix) : countIndex ix = (L ++ A).length := by
  unfold countIndex
  rw [List.length_append]
  cases h with
  | untouched h hA =>
      subst hA
      rw [h.count, h.legacy]
      rfl
  | migrating k h =>
      rw [h.count]
      rfl
  | complete h =>
      rcases h.count with hc | ⟨hc, rfl, rfl⟩
      · rw [hc]; rfl
      · rw [hc, h.legacy]; rfl

/-- No page holds more than a hundred entries. -/
theorem page_length_le {p : Nat} {page : List U64} (h : Holds L A ix)
    (hp : ix.pages p = some page) : page.length ≤ pageSize := by
  cases h with
  | untouched h hA =>
      rw [h.pages] at hp
      cases hp
  | migrating k h =>
      by_cases hroom : p < room L
      · rw [h.copied p hroom] at hp
        split at hp
        · cases hp
          exact length_chunk_le 100 L p
        · cases hp
      · exact h.appended.length_le (by omega) hp
  | complete h =>
      by_cases hroom : p < room L
      · rw [h.copied p hroom] at hp
        cases hp
        exact length_chunk_le 100 L p
      · exact h.appended.length_le (by omega) hp

/-! ### Runs -/

/-- The uses of the factory's indices. -/
inductive IndexCall where
  | appendSender (sender : Address) (streamId : U64)
  | appendRecipient (recipient : Address) (streamId : U64)
  | migrateSender (sender : Address) (maxPages : Nat)
  | migrateRecipient (recipient : Address) (maxPages : Nat)
  | readSender (sender : Address) (offset limit : Nat)
  | readRecipient (recipient : Address) (offset limit : Nat)

def IndexCall.exec (st : Storage) : IndexCall → Result Storage
  | .appendSender a id => appendSenderIndex st a id
  | .appendRecipient a id => appendRecipientIndex st a id
  | .migrateSender a maxPages => do
      let (_, st) ← migrateSenderIndex st a maxPages
      return st
  | .migrateRecipient a maxPages => do
      let (_, st) ← migrateRecipientIndex st a maxPages
      return st
  | .readSender a offset limit => do
      let _ ← streamsBySender st a offset limit
      return st
  | .readRecipient a offset limit => do
      let _ ← streamsByRecipient st a offset limit
      return st

/-- The ids a call appends to the index of a sender. -/
def IndexCall.sentBy (a : Address) : IndexCall → List U64
  | .appendSender b id => if b = a then [id] else []
  | _ => []

/-- The ids a call appends to the index of a recipient. -/
def IndexCall.receivedBy (a : Address) : IndexCall → List U64
  | .appendRecipient b id => if b = a then [id] else []
  | _ => []

/-- Every index holds its legacy vector and the ids appended to it. -/
structure Indexed (sent received : Address → List U64) (sent' received' : Address → List U64)
    (st : Storage) : Prop where
  sender : ∀ a, Holds (sent a) (sent' a) (st.bySender a)
  recipient : ∀ a, Holds (received a) (received' a) (st.byRecipient a)

section
variable {sent received sent' received' : Address → List U64} {st : Storage} {c : IndexCall}

/-- A write to one address's index leaves the others alone. -/
theorem holds_update {indices : Address → Index} {b : Address} {xs : List U64}
    (h : ∀ a, Holds (sent a) (sent' a) (indices a)) (hb : Holds (sent b) (sent' b ++ xs) ix') (a : Address) :
    Holds (sent a) (sent' a ++ if b = a then xs else []) (Function.update indices b ix' a) := by
  by_cases hab : b = a
  · subst hab
    rw [if_pos rfl, Function.update_self]
    exact hb
  · rw [if_neg hab, List.append_nil, Function.update_of_ne (fun h => hab h.symm)]
    exact h a

theorem holds_update_nil {indices : Address → Index} {b : Address}
    (h : ∀ a, Holds (sent a) (sent' a) (indices a)) (hb : Holds (sent b) (sent' b) ix') (a : Address) :
    Holds (sent a) (sent' a) (Function.update indices b ix' a) := by
  have hb' : Holds (sent b) (sent' b ++ []) ix' := by rw [List.append_nil]; exact hb
  have := holds_update h hb' a
  rw [ite_self, List.append_nil] at this
  exact this

theorem streamPage_eq (h : Holds L A ix) (hL : L.length + A.length + 99 ≤ u32Max) :
    streamPage ix offset limit =
      .ok ⟨((L ++ A).drop offset).take (min limit pageSize), (L ++ A).length⟩ := by
  unfold streamPage
  rw [readIndex_eq h hL, countIndex_eq h]
  rfl

/-- One use of the indices. -/
theorem Indexed.exec (h : Indexed sent received sent' received' st)
    (hs : ∀ a, (sent a).length + (sent' a ++ c.sentBy a).length + 99 ≤ u32Max)
    (hr : ∀ a, (received a).length + (received' a ++ c.receivedBy a).length + 99 ≤ u32Max) :
    ∃ st', c.exec st = .ok st' ∧ Indexed sent received (fun a => sent' a ++ c.sentBy a)
      (fun a => received' a ++ c.receivedBy a) st' := by
  have hs' : ∀ a, (sent a).length + (sent' a).length + 99 ≤ u32Max := fun a => by
    have := hs a
    rw [List.length_append] at this
    omega
  have hr' : ∀ a, (received a).length + (received' a).length + 99 ≤ u32Max := fun a => by
    have := hr a
    rw [List.length_append] at this
    omega
  -- an index the call does not append to
  have keep : ∀ {xs ys : List U64} {ix : Index}, Holds xs ys ix → Holds xs (ys ++ []) ix :=
    fun hx => by rw [List.append_nil]; exact hx
  cases c with
  | appendSender a id =>
      have hlen := hs a
      rw [IndexCall.sentBy, if_pos rfl, List.length_append, List.length_singleton] at hlen
      obtain ⟨ix', heq, hix'⟩ := append_holds (h.sender a) (by omega) id
      refine ⟨{ st with bySender := Function.update st.bySender a ix' }, ?_,
        holds_update h.sender hix', fun b => keep (h.recipient b)⟩
      show (appendIndexEntry _ _ >>= _) = _
      rw [heq]
      rfl
  | appendRecipient a id =>
      have hlen := hr a
      rw [IndexCall.receivedBy, if_pos rfl, List.length_append, List.length_singleton] at hlen
      obtain ⟨ix', heq, hix'⟩ := append_holds (h.recipient a) (by omega) id
      refine ⟨{ st with byRecipient := Function.update st.byRecipient a ix' }, ?_,
        fun b => keep (h.sender b), holds_update h.recipient hix'⟩
      show (appendIndexEntry _ _ >>= _) = _
      rw [heq]
      rfl
  | migrateSender a maxPages =>
      have hlen := hs' a
      obtain ⟨ix', heq, hix', -⟩ := migrate_holds (h.sender a) (by omega) maxPages
      refine ⟨{ st with bySender := Function.update st.bySender a ix' }, ?_,
        fun b => keep (holds_update_nil h.sender hix' b), fun b => keep (h.recipient b)⟩
      show ((migrateLegacyIndex _ _ >>= _) >>= _) = _
      rw [heq]
      rfl
  | migrateRecipient a maxPages =>
      have hlen := hr' a
      obtain ⟨ix', heq, hix', -⟩ := migrate_holds (h.recipient a) (by omega) maxPages
      refine ⟨{ st with byRecipient := Function.update st.byRecipient a ix' }, ?_,
        fun b => keep (h.sender b), fun b => keep (holds_update_nil h.recipient hix' b)⟩
      show ((migrateLegacyIndex _ _ >>= _) >>= _) = _
      rw [heq]
      rfl
  | readSender a offset limit =>
      refine ⟨st, ?_, fun b => keep (h.sender b), fun b => keep (h.recipient b)⟩
      show (streamPage _ _ _ >>= _) = _
      rw [streamPage_eq (h.sender a) (hs' a)]
      rfl
  | readRecipient a offset limit =>
      refine ⟨st, ?_, fun b => keep (h.sender b), fun b => keep (h.recipient b)⟩
      show (streamPage _ _ _ >>= _) = _
      rw [streamPage_eq (h.recipient a) (hr' a)]
      rfl

theorem Indexed.run {calls : List IndexCall} (h : Indexed sent received sent' received' st)
    (hs : ∀ a, (sent a).length + (sent' a ++ calls.flatMap (·.sentBy a)).length + 99 ≤ u32Max)
    (hr : ∀ a, (received a).length + (received' a ++ calls.flatMap (·.receivedBy a)).length + 99 ≤
      u32Max) :
    ∃ st', calls.foldlM IndexCall.exec st = .ok st' ∧
      Indexed sent received (fun a => sent' a ++ calls.flatMap (·.sentBy a))
        (fun a => received' a ++ calls.flatMap (·.receivedBy a)) st' := by
  induction calls generalizing st sent' received' with
  | nil =>
      refine ⟨st, rfl, fun a => ?_, fun a => ?_⟩
      · rw [List.flatMap_nil, List.append_nil]; exact h.sender a
      · rw [List.flatMap_nil, List.append_nil]; exact h.recipient a
  | cons c calls ih =>
      simp only [List.flatMap_cons, ← List.append_assoc] at hs hr ⊢
      obtain ⟨st₁, heq₁, h₁⟩ := h.exec (c := c)
        (fun a => by have := hs a; rw [List.length_append] at this; omega)
        (fun a => by have := hr a; rw [List.length_append] at this; omega)
      obtain ⟨st₂, heq₂, h₂⟩ := ih h₁ hs hr
      refine ⟨st₂, ?_, h₂⟩
      rw [List.foldlM_cons, heq₁]
      exact heq₂

end

/-- What the readers say of the index of a list: its slices of at most a hundred ids, its length, and
no page of more than a hundred. -/
structure ReadsAs (xs : List U64) (read : Nat → Nat → Result StreamPage) (count : Nat)
    (pages : Nat → Option (List U64)) : Prop where
  slice : ∀ offset limit, read offset limit = .ok ⟨(xs.drop offset).take (min limit 100), xs.length⟩
  count : count = xs.length
  bounded : ∀ p page, pages p = some page → page.length ≤ 100

theorem readsAs_of_holds (h : Holds L A ix) (hL : L.length + A.length + 99 ≤ u32Max) :
    ReadsAs (L ++ A) (streamPage ix) (countIndex ix) ix.pages :=
  ⟨fun _ _ => streamPage_eq h hL, countIndex_eq h, fun _ _ hp => page_length_le h hp⟩

/-- **The paged indices are lists.**  Whatever legacy vectors the factory starts from, any sequence
of appends, migrations and reads succeeds, and leaves every sender's and every recipient's index
reading as the legacy vector followed by the ids appended to it, in order. -/
theorem indices_refine_lists {bySender byRecipient : Address → Option (List U64)} {st : Storage}
    {calls : List IndexCall} (hst : ∀ a, st.bySender a = { legacy := bySender a })
    (hst' : ∀ a, st.byRecipient a = { legacy := byRecipient a })
    (hs : ∀ a, ((bySender a).getD [] ++ calls.flatMap (·.sentBy a)).length < 2 ^ 32 - 100)
    (hr : ∀ a, ((byRecipient a).getD [] ++ calls.flatMap (·.receivedBy a)).length < 2 ^ 32 - 100) :
    ∃ st', calls.foldlM IndexCall.exec st = .ok st' ∧ ∀ a,
      ReadsAs ((bySender a).getD [] ++ calls.flatMap (·.sentBy a)) (streamsBySender st' a)
        (streamCountBySender st' a) (st'.bySender a).pages ∧
      ReadsAs ((byRecipient a).getD [] ++ calls.flatMap (·.receivedBy a)) (streamsByRecipient st' a)
        (streamCountByRecipient st' a) (st'.byRecipient a).pages := by
  have hmax : u32Max = 4294967295 := rfl
  have h : Indexed (fun a => (bySender a).getD []) (fun a => (byRecipient a).getD []) (fun _ => [])
      (fun _ => []) st := by
    refine ⟨fun a => ?_, fun a => ?_⟩
    · rw [hst]; exact holds_of_legacy _
    · rw [hst']; exact holds_of_legacy _
  have hs' : ∀ a, ((bySender a).getD []).length + (calls.flatMap (·.sentBy a)).length + 99 ≤
      u32Max := fun a => by
    have := hs a
    rw [List.length_append] at this
    omega
  have hr' : ∀ a, ((byRecipient a).getD []).length + (calls.flatMap (·.receivedBy a)).length + 99 ≤
      u32Max := fun a => by
    have := hr a
    rw [List.length_append] at this
    omega
  obtain ⟨st', heq, h'⟩ := h.run hs' hr'
  exact ⟨st', heq, fun a => ⟨readsAs_of_holds (h'.sender a) (hs' a),
    readsAs_of_holds (h'.recipient a) (hr' a)⟩⟩

/-- A call appends at most one id. -/
theorem length_flatMap_le {f : IndexCall → List U64} (h : ∀ c, (f c).length ≤ 1)
    (calls : List IndexCall) : (calls.flatMap f).length ≤ calls.length := by
  induction calls with
  | nil => exact le_refl 0
  | cons c calls ih =>
      have := h c
      rw [List.flatMap_cons, List.length_append, List.length_cons]
      omega

theorem length_sentBy_le (a : Address) (c : IndexCall) : (c.sentBy a).length ≤ 1 := by
  unfold IndexCall.sentBy
  split
  · split <;> simp
  · simp

theorem length_receivedBy_le (a : Address) (c : IndexCall) : (c.receivedBy a).length ≤ 1 := by
  unfold IndexCall.receivedBy
  split
  · split <;> simp
  · simp

/-- A factory with a legacy vector of 250 ids for every sender and none for recipients. -/
def Sample.legacyIds : List U64 := List.replicate 250 (.lit 7)

/-- Appends around a partial migration. -/
def Sample.indexCalls : List IndexCall :=
  [.appendSender (.account 1) (.lit 300), .migrateSender (.account 1) 1,
    .appendSender (.account 1) (.lit 301), .appendRecipient (.account 2) (.lit 301)]

theorem indices_refine_lists_sample :
    ∃ st', Sample.indexCalls.foldlM IndexCall.exec
        { bySender := fun _ => { legacy := some Sample.legacyIds } } = .ok st' ∧ ∀ a,
      ReadsAs (Sample.legacyIds ++ Sample.indexCalls.flatMap (·.sentBy a)) (streamsBySender st' a)
        (streamCountBySender st' a) (st'.bySender a).pages ∧
      ReadsAs (Sample.indexCalls.flatMap (·.receivedBy a)) (streamsByRecipient st' a)
        (streamCountByRecipient st' a) (st'.byRecipient a).pages := by
  refine @indices_refine_lists (fun _ => some Sample.legacyIds) (fun _ => none) _ Sample.indexCalls
    (fun _ => rfl) (fun _ => rfl) (fun a => ?_) fun a => ?_
  · have hcalls : (Sample.indexCalls.flatMap fun c => c.sentBy a).length ≤ Sample.indexCalls.length :=
      length_flatMap_le (length_sentBy_le a) Sample.indexCalls
    have hfour : Sample.indexCalls.length = 4 := rfl
    have hids : Sample.legacyIds.length = 250 := List.length_replicate
    rw [List.length_append, Option.getD_some, hids]
    omega
  · have hcalls : (Sample.indexCalls.flatMap fun c => c.receivedBy a).length ≤
        Sample.indexCalls.length := length_flatMap_le (length_receivedBy_le a) Sample.indexCalls
    have hfour : Sample.indexCalls.length = 4 := rfl
    rw [List.length_append, Option.getD_none, List.length_nil]
    omega

end Drip.Factory
