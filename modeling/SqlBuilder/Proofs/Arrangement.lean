import SqlBuilder.Proofs.Buckets
import SqlBuilder.Proofs.Step

/-!
# How the parts of a statement are arranged

The conditions of a reachable statement stand key by key, its order columns
direction by direction, and it has one assignment for each key.  No step of a
call disturbs this.
-/

namespace SqlBuilder

namespace Keyed

variable {κ α : Type} [DecidableEq κ] {key : α → κ}

/-! ## Lists that stand in groups -/

/-- Entries of one key have one key to list. -/
theorem eraseDups_of_same {members : List α} {k : κ} (filled : members ≠ [])
    (same : ∀ entry ∈ members, key entry = k) : (members.map key).eraseDups = [k] := by
  obtain ⟨first, rest, rfl⟩ := List.exists_cons_of_ne_nil filled
  obtain ⟨head, others⟩ := List.forall_mem_cons.mp same
  have none : (rest.map key).filter (fun other => !other == k) = [] := by
    simpa [List.filter_eq_nil_iff] using others
  rw [List.map_cons, head, List.eraseDups_cons, none, List.eraseDups_nil]

/-- The keys of groups of different keys are listed in the order of the groups. -/
theorem eraseDups_flatMap {keys : List κ} {members : κ → List α} (distinct : keys.Nodup)
    (filled : ∀ k ∈ keys, members k ≠ []) (same : ∀ k, ∀ entry ∈ members k, key entry = k) :
    ((keys.flatMap members).map key).eraseDups = keys := by
  induction keys with
  | nil => rfl
  | cons k keys ih =>
      obtain ⟨isNew, distinct⟩ := List.nodup_cons.mp distinct
      have apart : ((keys.flatMap members).map key).removeAll ((members k).map key) =
          (keys.flatMap members).map key := by
        refine List.filter_eq_self.mpr fun other mem => ?_
        obtain ⟨entry, inOthers, rfl⟩ := List.mem_map.mp mem
        obtain ⟨k', inKeys, inGroup⟩ := List.mem_flatMap.mp inOthers
        have differs : key entry ∉ (members k).map key := by
          intro inFirst
          obtain ⟨entry', inFirst, e⟩ := List.mem_map.mp inFirst
          rw [same k entry' inFirst, same k' entry inGroup] at e
          exact isNew (e ▸ inKeys)
        simpa using differs
      rw [List.flatMap_cons, List.map_append, List.eraseDups_append,
        eraseDups_of_same (filled k List.mem_cons_self) (same k), apart,
        ih distinct fun other mem => filled other (List.mem_cons_of_mem k mem),
        List.singleton_append]

/-- To group what stands in groups changes nothing. -/
theorem grouping_inGroups (log : List α) :
    grouping key (inGroups key log) = grouping key log := by
  have keys : ((inGroups key log).map key).eraseDups = (log.map key).eraseDups := by
    refine eraseDups_flatMap (nodup_eraseDups _) ?_ fun k entry mem => (mem_bucket.mp mem).2
    intro k mem none
    exact bucket_eq_nil_iff.mp none (List.mem_eraseDups.mp mem)
  unfold grouping
  rw [keys]
  exact List.map_congr_left fun k _ => by rw [bucket_inGroups]

/-- Entries that are put behind those of their keys leave a list that stands in groups. -/
theorem foldl_insertGrouped_grouped {entries : List α} (added : List α)
    (grouped : groups key entries = grouping key entries) :
    let stored := added.foldl (fun stored entry => insertGrouped key entry stored) entries
    groups key stored = grouping key stored := by
  intro stored
  have same : groups key stored = grouping key (entries ++ added) :=
    groups_foldl_insertGrouped added grouped
  rw [same, eq_inGroups same, grouping_inGroups]

/-- Keys behind others are listed as they are when each of them is listed once. -/
theorem eraseDups_append_eraseDups (front back : List κ) :
    (front ++ back.eraseDups).eraseDups = (front ++ back).eraseDups := by
  induction back using List.reverseRecOn with
  | nil => rfl
  | append_singleton back k ih =>
      rw [eraseDups_append_singleton, ← List.append_assoc, eraseDups_append_singleton]
      by_cases seen : k ∈ back
      · rw [if_pos seen, if_pos (List.mem_append_right front seen), ih]
      · rw [if_neg seen, ← List.append_assoc, eraseDups_append_singleton, ih]
        simp only [List.mem_append, List.mem_eraseDups]

theorem bucket_append_log (front back : List α) (k : κ) :
    bucket key (front ++ back) k = bucket key front k ++ bucket key back k :=
  List.filter_append ..

/-- Logs with the same keys and the same entries under each key are grouped alike. -/
theorem grouping_append_congr (front : List α) {left right : List α}
    (keys : (left.map key).eraseDups = (right.map key).eraseDups)
    (members : ∀ k, bucket key left k = bucket key right k) :
    grouping key (front ++ left) = grouping key (front ++ right) := by
  have whole : ((front ++ left).map key).eraseDups = ((front ++ right).map key).eraseDups := by
    rw [List.map_append, List.map_append, ← eraseDups_append_eraseDups, keys,
      eraseDups_append_eraseDups]
  unfold grouping
  rw [whole]
  refine List.map_congr_left fun k _ => ?_
  rw [bucket_append_log, bucket_append_log, members]

/-- Logs with the same keys and the same entries under each key have the same entries. -/
theorem perm_of_same {left right : List α}
    (keys : (left.map key).eraseDups = (right.map key).eraseDups)
    (members : ∀ k, bucket key left k = bucket key right k) : left.Perm right := by
  have same : inGroups key left = inGroups key right := by
    unfold inGroups
    rw [keys]
    exact List.flatMap_congr fun k _ => members k
  exact (perm_inGroups left).symm.trans (same ▸ perm_inGroups right)

/-! ## Lists of single entries -/

theorem nodup_map_upsert (entry : α) {entries : List α} (distinct : (entries.map key).Nodup) :
    ((upsert key entry entries).map key).Nodup := by
  rw [map_upsert]
  split
  · exact distinct
  · next isNew => exact List.nodup_append_comm.mp (List.nodup_cons.mpr ⟨isNew, distinct⟩)

theorem nodup_map_foldl_upsert (added : List α) {entries : List α}
    (distinct : (entries.map key).Nodup) :
    ((added.foldl (fun stored entry => upsert key entry stored) entries).map key).Nodup := by
  induction added generalizing entries with
  | nil => exact distinct
  | cons entry added ih => exact ih (nodup_map_upsert entry distinct)

/-- An entry of a new key goes to the end. -/
theorem upsert_new {entry : α} {entries : List α} (isNew : key entry ∉ entries.map key) :
    upsert key entry entries = entries ++ [entry] := by
  induction entries with
  | nil => rfl
  | cons first rest ih =>
      obtain ⟨differs, isNew⟩ := not_or.mp (mt List.mem_cons.mpr isNew)
      rw [upsert, if_neg (Ne.symm differs), ih isNew, List.cons_append]

/-- The last entry of each key, keys in the order of their first entries. -/
def latest (key : α → κ) (log : List α) : List α :=
  (log.map key).eraseDups.filterMap fun k => (bucket key log k).getLast?

/-- An entry comes in among the entries of different keys. -/
theorem upsert_filterMap {keys : List κ} {stored : κ → Option α} (entry : α)
    (distinct : keys.Nodup) (found : ∀ k ∈ keys, ∃ old, stored k = some old ∧ key old = k) :
    upsert key entry (keys.filterMap stored) =
      if key entry ∈ keys then
        keys.filterMap fun k => if key entry = k then some entry else stored k
      else keys.filterMap stored ++ [entry] := by
  induction keys with
  | nil => rfl
  | cons k keys ih =>
      obtain ⟨isNew, distinct'⟩ := List.nodup_cons.mp distinct
      obtain ⟨old, here, rfl⟩ := found k List.mem_cons_self
      have rest := ih distinct' fun other mem => found other (List.mem_cons_of_mem _ mem)
      rw [List.filterMap_cons_some here, upsert]
      by_cases same : key old = key entry
      · have others : keys.filterMap (fun k => if key entry = k then some entry else stored k) =
            keys.filterMap stored := by
          refine List.filterMap_congr fun k mem => if_neg ?_
          rintro rfl
          exact isNew (same ▸ mem)
        simp [same, others]
      · have differs : key entry ≠ key old := fun same' => same same'.symm
        rw [if_neg same, rest]
        by_cases seen : key entry ∈ keys <;> simp [seen, differs, here]

/-- A list of last entries takes a new entry as its log does. -/
theorem upsert_latest (log : List α) (entry : α) :
    upsert key entry (latest key log) = latest key (log ++ [entry]) := by
  have found : ∀ k ∈ (log.map key).eraseDups, ∃ old,
      (bucket key log k).getLast? = some old ∧ key old = k := by
    intro k mem
    obtain ⟨init, last, ends, same⟩ := bucket_ends (List.mem_eraseDups.mp mem)
    exact ⟨last, by rw [ends, List.getLast?_concat], same⟩
  have bucket_last (k : κ) : (bucket key (log ++ [entry]) k).getLast? =
      if key entry = k then some entry else (bucket key log k).getLast? := by
    rw [bucket_append]
    by_cases same : key entry = k <;> simp [same]
  unfold latest
  rw [upsert_filterMap entry (nodup_eraseDups _) found, List.map_append, List.map_singleton,
    eraseDups_append_singleton]
  simp only [List.mem_eraseDups, bucket_last]
  by_cases seen : key entry ∈ log.map key
  · rw [if_pos seen, if_pos seen]
  · have others : (log.map key).eraseDups.filterMap
          (fun k => if key entry = k then some entry else (bucket key log k).getLast?) =
        (log.map key).eraseDups.filterMap fun k => (bucket key log k).getLast? := by
      refine List.filterMap_congr fun k mem => if_neg ?_
      rintro rfl
      exact seen (List.mem_eraseDups.mp mem)
    rw [if_neg seen, if_neg seen, List.filterMap_append, others]
    simp

/-- Entries that come in one after the other leave the last entry of each key. -/
theorem foldl_upsert_latest (added log : List α) :
    added.foldl (fun stored entry => upsert key entry stored) (latest key log) =
      latest key (log ++ added) := by
  induction added generalizing log with
  | nil => rw [List.foldl_nil, List.append_nil]
  | cons entry added ih => rw [List.foldl_cons, upsert_latest, ih, List.append_assoc]; rfl

/-- Entries of different keys are the last ones of their keys. -/
theorem latest_of_distinct {entries : List α} (distinct : (entries.map key).Nodup) :
    latest key entries = entries := by
  induction entries using List.reverseRecOn with
  | nil => rfl
  | append_singleton entries entry ih =>
      rw [List.map_append, List.nodup_append] at distinct
      obtain ⟨front, -, apart⟩ := distinct
      have isNew : key entry ∉ entries.map key := fun mem =>
        apart _ mem _ List.mem_cons_self rfl
      rw [← upsert_latest, ih front, upsert_new isNew]

end Keyed

namespace Statement

/-- Conditions and order columns stand in groups, and no key is assigned twice. -/
structure Arranged (s : Statement) : Prop where
  conditions : s.predicateGroups = Keyed.grouping Predicate.key s.predicates
  orders : s.orderGroups = Keyed.grouping SortColumn.direction s.orders
  assignments : (s.assignments.map Assignment.key).Nodup

variable {s s' : Statement}

/-- The conditions of an arranged statement are a map of buckets, one for each key. -/
theorem Arranged.bucketMap_predicates (arranged : s.Arranged) :
    Keyed.BucketMap Predicate.key s.predicateGroups := by
  rw [arranged.conditions]
  exact Keyed.bucketMap_grouping s.predicates

/-- So are its order columns, one bucket for each direction. -/
theorem Arranged.bucketMap_orders (arranged : s.Arranged) :
    Keyed.BucketMap SortColumn.direction s.orderGroups := by
  rw [arranged.orders]
  exact Keyed.bucketMap_grouping s.orders

/-- What touches none of the three parts keeps them arranged. -/
theorem Arranged.of_same (arranged : s.Arranged) (predicates : s'.predicates = s.predicates)
    (orders : s'.orders = s.orders) (assignments : s'.assignments = s.assignments) :
    s'.Arranged := by
  refine ⟨?_, ?_, ?_⟩
  · unfold predicateGroups
    rw [predicates]
    exact arranged.conditions
  · unfold orderGroups
    rw [orders]
    exact arranged.orders
  · rw [assignments]
    exact arranged.assignments

/-- Every step leaves an arranged statement arranged. -/
theorem Step.arranged {Bound : Statement → List Binding → Prop} (arranged : s.Arranged)
    (step : Step Bound s s') : s'.Arranged := by
  cases step with
  | conditions predicates valid done =>
      obtain ⟨names, taken, -, rfl⟩ := addPredicates_ok done
      exact ⟨Keyed.foldl_insertGrouped_grouped predicates arranged.conditions, arranged.orders,
        arranged.assignments⟩
  | orders columns =>
      exact ⟨arranged.conditions, Keyed.foldl_insertGrouped_grouped columns arranged.orders,
        arranged.assignments⟩
  | assign assignments done =>
      obtain ⟨replaced, names, taken, -, -, rfl⟩ := assign_ok done
      exact ⟨arranged.conditions, arranged.orders,
        Keyed.nodup_map_foldl_upsert assignments arranged.assignments⟩
  | attach index p valid done =>
      obtain ⟨names, taken, -, rfl⟩ := attach_ok done
      exact arranged.of_same rfl rfl rfl
  | row row done =>
      obtain ⟨names, taken, -, rfl⟩ := addRow_ok done
      exact arranged.of_same rfl rfl rfl
  | extend value done =>
      obtain ⟨last, replaced, names, taken, -, -, -, rfl⟩ := extendRow_ok done
      exact arranged.of_same rfl rfl rfl
  | member all inner done =>
      obtain ⟨taken, -, rfl⟩ := addMember_ok done
      exact arranged.of_same rfl rfl rfl
  | _ => exact arranged.of_same rfl rfl rfl

/-- Every reachable statement is arranged. -/
theorem ReachableBy.arranged {rule : List Assignment → Prop} (reach : ReachableBy rule s) :
    s.Arranged :=
  reach.keep (fun _ => ⟨rfl, rfl, List.nodup_nil⟩) (fun _ => ⟨rfl, rfl, List.nodup_nil⟩)
    fun _ _ => Step.arranged

end Statement

end SqlBuilder
