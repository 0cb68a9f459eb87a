import Drip.Factory.Storage

/-!
# Factory — Index

`contracts/factory/src/index.rs` and `query.rs`: the list of stream ids of a sender or a recipient,
kept in pages of a hundred.  An index may still hold the single vector of the older layout; it is
copied into pages a few at a time, and new ids go to pages after the room reserved for it.  Every
function takes the index as a whole (`Index`), where the source passes its keys one by one.  TTL
extensions are left out.
-/

namespace Drip.Factory
open Chain

/-- `u32::MAX`. -/
def u32Max : Nat := 4294967295

def saturatingAdd (a b : Nat) : Nat := min (a + b) u32Max

/-- `query::MAX_PAGE_SIZE`, and `PAGE_SIZE`. -/
def pageSize : Nat := 100

/-- `MIGRATION_PAGES_PER_APPEND`. -/
def migrationPagesPerAppend : Nat := 1

/-- `MAX_MIGRATION_PAGES`. -/
def maxMigrationPages : Nat := 20

/-- The entries of `v` from `start` up to `stop`, each read with `get(i).unwrap()`. -/
def copyEntries (v : List U64) (start stop : Nat) : Result (List U64) :=
  (List.range' start (stop - start)).mapM fun i => okOr v[i]? .trap

/-- `query::paginate`. -/
def paginate (v : List U64) (offset limit : Nat) : Result (List U64) :=
  copyEntries v offset (min (saturatingAdd offset (min limit pageSize)) v.length)

/-! ### Where an entry stands -/

/-- `append_base`: the legacy entries rounded up to whole pages; the product traps past `u32`. -/
def appendBase (legacyCount : Nat) : Result Nat :=
  if legacyCount = 0 then .ok 0
  else do
    let base := ((legacyCount - 1) / pageSize + 1) * pageSize
    reject (u32Max < base) .trap
    return base

/-- `logical_to_physical_offset`. -/
def logicalToPhysicalOffset (logical : Nat) (legacyCount : Option Nat) : Result Nat :=
  match legacyCount with
  | some legacyCount =>
      if legacyCount ≤ logical then do
        let base ← appendBase legacyCount
        return saturatingAdd base (logical - legacyCount)
      else .ok logical
  | none => .ok logical

/-! ### Writing -/

/-- The copying loop of `migrate_legacy_index`, for at most `n` pages: the cursor it stops at and the
pages it leaves. -/
def migratePages (entries : List U64) (legacyCount : Nat) :
    (n cursor : Nat) → (Nat → Option (List U64)) → Result (Nat × (Nat → Option (List U64)))
  | 0, cursor, pages => .ok (cursor, pages)
  | n + 1, cursor, pages =>
      if cursor < legacyCount then do
        let stop := min (saturatingAdd cursor pageSize) legacyCount
        let page ← copyEntries entries cursor stop
        migratePages entries legacyCount n stop
          (Function.update pages (cursor / pageSize) (some page))
      else .ok (cursor, pages)

/-- `migrate_legacy_index`: the number of entries, and the index left. -/
def migrateLegacyIndex (ix : Index) (maxPages : Nat) : Result (Nat × Index) :=
  match ix.legacy with
  | none => .ok (ix.count.getD 0, ix)
  | some entries =>
      let legacyCount := ix.legacyCount.getD entries.length
      let totalCount := ix.count.getD legacyCount
      let cursor := ix.cursor.getD 0
      if legacyCount ≤ cursor then .ok (totalCount, { ix with legacy := none, cursor := none })
      else
        let cappedPages := min maxPages maxMigrationPages
        if cappedPages = 0 then .ok (totalCount, ix)
        else do
          let (cursor, pages) ← migratePages entries legacyCount cappedPages cursor ix.pages
          let ix := { ix with
            pages := pages, count := some totalCount, legacyCount := some legacyCount }
          if legacyCount ≤ cursor then
            return (totalCount, { ix with legacy := none, cursor := none })
          else return (totalCount, { ix with cursor := some cursor })

/-- `append_index_entry`. -/
def appendIndexEntry (ix : Index) (entry : U64) : Result Index := do
  let (count, ix) ← migrateLegacyIndex ix migrationPagesPerAppend
  let physicalOffset ← logicalToPhysicalOffset count ix.legacyCount
  let pageIndex := physicalOffset / pageSize
  let page := (ix.pages pageIndex).getD []
  return { ix with
    pages := Function.update ix.pages pageIndex (some (page ++ [entry]))
    count := some (saturatingAdd count 1) }

/-! ### Reading -/

/-- `collect_page`. -/
def collectPage (ix : Index) (pageIndex : Nat) : List U64 := (ix.pages pageIndex).getD []

/-- An entry from its page; `none` where the loop of `read_index` breaks off. -/
def readPaged (ix : Index) (logical : Nat) : Result (Option U64) := do
  let physical ← logicalToPhysicalOffset logical ix.legacyCount
  return (collectPage ix (physical / pageSize))[physical % pageSize]?

/-- One turn of the loop of `read_index`: a legacy entry not yet migrated, else one from a page. -/
def readEntry (ix : Index) (logical : Nat) : Result (Option U64) :=
  match ix.legacyCount, ix.cursor, ix.legacy with
  | some legacyCount, some cursor, some entries =>
      if logical < legacyCount ∧ cursor ≤ logical then do
        let x ← okOr entries[logical]? .trap
        return some x
      else readPaged ix logical
  | _, _, _ => readPaged ix logical

/-- The loop of `read_index`, over `n` entries from `logical` on. -/
def readEntries (ix : Index) : (n logical : Nat) → Result (List U64)
  | 0, _ => .ok []
  | n + 1, logical => do
      match ← readEntry ix logical with
      | none => return []
      | some x => do
          let xs ← readEntries ix n (saturatingAdd logical 1)
          return x :: xs

/-- `read_index`. -/
def readIndex (ix : Index) (offset limit : Nat) : Result (List U64) :=
  match ix.count with
  | some count =>
      if count ≤ offset then .ok []
      else
        let effectiveLimit := min limit pageSize
        let stop := min (saturatingAdd offset effectiveLimit) count
        readEntries ix (stop - offset) offset
  | none => paginate (ix.legacy.getD []) offset limit

/-- `count_index`. -/
def countIndex (ix : Index) : Nat := ix.count.getD (ix.legacy.getD []).length

/-! ### The indices of the factory -/

def appendSenderIndex (st : Storage) (sender : Address) (streamId : U64) : Result Storage := do
  let ix ← appendIndexEntry (st.bySender sender) streamId
  return { st with bySender := Function.update st.bySender sender ix }

def appendRecipientIndex (st : Storage) (recipient : Address) (streamId : U64) : Result Storage := do
  let ix ← appendIndexEntry (st.byRecipient recipient) streamId
  return { st with byRecipient := Function.update st.byRecipient recipient ix }

/-- What `migrate_sender_index` and `migrate_recipient_index` return. -/
def migrated (ix : Index) : Nat := ix.cursor.getD (ix.count.getD 0)

def migrateSenderIndex (st : Storage) (sender : Address) (maxPages : Nat) :
    Result (Nat × Storage) := do
  let (_, ix) ← migrateLegacyIndex (st.bySender sender) maxPages
  return (migrated ix, { st with bySender := Function.update st.bySender sender ix })

def migrateRecipientIndex (st : Storage) (recipient : Address) (maxPages : Nat) :
    Result (Nat × Storage) := do
  let (_, ix) ← migrateLegacyIndex (st.byRecipient recipient) maxPages
  return (migrated ix, { st with byRecipient := Function.update st.byRecipient recipient ix })

/-- The body of `streams_by_sender` and `streams_by_recipient`. -/
def streamPage (ix : Index) (offset limit : Nat) : Result StreamPage := do
  let ids ← readIndex ix offset limit
  return ⟨ids, countIndex ix⟩

def streamsBySender (st : Storage) (sender : Address) (offset limit : Nat) : Result StreamPage :=
  streamPage (st.bySender sender) offset limit

def streamsByRecipient (st : Storage) (recipient : Address) (offset limit : Nat) :
    Result StreamPage :=
  streamPage (st.byRecipient recipient) offset limit

def streamCountBySender (st : Storage) (sender : Address) : Nat := countIndex (st.bySender sender)

def streamCountByRecipient (st : Storage) (recipient : Address) : Nat :=
  countIndex (st.byRecipient recipient)

end Drip.Factory
