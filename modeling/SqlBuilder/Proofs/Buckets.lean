import SqlBuilder.Proofs.Grouping

/-!
# Maps of buckets

A map that is filled by pushing entries, each on the bucket of its key, is the
grouping of the log of these entries.  The list in which each entry goes
behind the last one of its key holds the buckets of the same map: what is put
into the list entry by entry is pushed on the map that is read back from it.
-/

namespace SqlBuilder

namespace Keyed

variable {κ α : Type} [DecidableEq κ] {key : α → κ}

/-- Push an entry on the bucket of its key; a key without a bucket gets one at the end. -/
def push (key : α → κ) (entry : α) : List (κ × List α) → List (κ × List α)
  | [] => [(key entry, [entry])]
  | (k, members) :: others =>
    if k = key entry then (k, members ++ [entry]) :: others
    else (k, members) :: push key entry others

/-- Every key has one bucket, which is not empty and holds entries of the key only. -/
structure BucketMap (key : α → κ) (map : List (κ × List α)) : Prop where
  distinct : (map.map Prod.fst).Nodup
  filled : ∀ bucket ∈ map, bucket.2 ≠ []
  keyed : ∀ bucket ∈ map, ∀ entry ∈ bucket.2, key entry = bucket.1

/-- Entries are pushed one after the other. -/
def pushAll (key : α → κ) (added : List α) (map : List (κ × List α)) : List (κ × List α) :=
  added.foldl (fun map entry => push key entry map) map

/-! ## One entry -/

/-- Buckets keep their places, and that of a new key comes last. -/
theorem map_push (entry : α) (map : List (κ × List α)) :
    (push key entry map).map Prod.fst =
      if key entry ∈ map.map Prod.fst then map.map Prod.fst
      else map.map Prod.fst ++ [key entry] := by
  induction map with
  | nil => rfl
  | cons bucket others ih =>
      obtain ⟨k, members⟩ := bucket
      unfold push
      by_cases same : k = key entry
      · simp [same]
      · have differs : key entry ≠ k := Ne.symm same
        rw [if_neg same, List.map_cons, ih]
        by_cases mem : key entry ∈ others.map Prod.fst <;> simp [mem, differs]

/-- A bucket is one of the old ones, or the one that the entry was pushed on. -/
theorem mem_push {entry : α} {map : List (κ × List α)} {bucket : κ × List α}
    (mem : bucket ∈ push key entry map) :
    bucket ∈ map ∨ bucket = (key entry, [entry]) ∨
      ∃ members, (key entry, members) ∈ map ∧ bucket = (key entry, members ++ [entry]) := by
  induction map with
  | nil => exact Or.inr (Or.inl (List.mem_singleton.mp mem))
  | cons first others ih =>
      obtain ⟨k, members⟩ := first
      unfold push at mem
      split at mem
      · next same =>
          subst same
          rcases List.mem_cons.mp mem with rfl | behind
          · exact Or.inr (Or.inr ⟨members, List.mem_cons_self, rfl⟩)
          · exact Or.inl (List.mem_cons_of_mem _ behind)
      · rcases List.mem_cons.mp mem with rfl | behind
        · exact Or.inl List.mem_cons_self
        · rcases ih behind with old | new | ⟨members, old, pushed⟩
          · exact Or.inl (List.mem_cons_of_mem _ old)
          · exact Or.inr (Or.inl new)
          · exact Or.inr (Or.inr ⟨members, List.mem_cons_of_mem _ old, pushed⟩)

/-- What is pushed on a map of buckets leaves a map of buckets. -/
theorem BucketMap.push {map : List (κ × List α)} (buckets : BucketMap key map) (entry : α) :
    BucketMap key (push key entry map) := by
  refine ⟨?_, ?_, ?_⟩
  · rw [map_push]
    split
    · exact buckets.distinct
    · next isNew =>
        exact List.nodup_append_comm.mp (List.nodup_cons.mpr ⟨isNew, buckets.distinct⟩)
  · intro bucket mem
    rcases mem_push mem with old | rfl | ⟨members, -, rfl⟩
    · exact buckets.filled bucket old
    · exact List.cons_ne_nil entry []
    · exact List.append_ne_nil_of_right_ne_nil members (List.cons_ne_nil entry [])
  · intro bucket mem
    rcases mem_push mem with old | rfl | ⟨members, old, rfl⟩
    · exact buckets.keyed bucket old
    · exact List.forall_mem_singleton.mpr rfl
    · intro other inBucket
      rcases List.mem_append.mp inBucket with inMembers | isEntry
      · exact buckets.keyed _ old other inMembers
      · rw [List.mem_singleton.mp isEntry]

/-- Where keys are distinct, a push changes the bucket of the key alone, or adds it. -/
theorem push_of_distinct (entry : α) {map : List (κ × List α)}
    (distinct : (map.map Prod.fst).Nodup) :
    push key entry map =
      if key entry ∈ map.map Prod.fst then
        map.map fun (k, members) => (k, if key entry = k then members ++ [entry] else members)
      else map ++ [(key entry, [entry])] := by
  induction map with
  | nil => rfl
  | cons bucket others ih =>
      obtain ⟨k, members⟩ := bucket
      obtain ⟨isNew, distinct⟩ := List.nodup_cons.mp distinct
      unfold push
      by_cases same : k = key entry
      · subst same
        have kept : others.map (fun (k, members) =>
            (k, if key entry = k then members ++ [entry] else members)) = others := by
          refine (List.map_congr_left fun other mem => ?_).trans (List.map_id others)
          have inOthers : other.1 ∈ others.map Prod.fst := List.mem_map_of_mem mem
          have differs : key entry ≠ other.1 := fun same => isNew (same ▸ inOthers)
          simp [differs]
        simp [kept]
      · have differs : key entry ≠ k := Ne.symm same
        rw [if_neg same, ih distinct]
        by_cases mem : key entry ∈ others.map Prod.fst <;> simp [mem, differs]

/-! ## The map of a log -/

theorem map_grouping (log : List α) :
    (grouping key log).map Prod.fst = (log.map key).eraseDups := by
  unfold grouping
  rw [List.map_map]
  exact List.map_id _

/-- A longer log is grouped by pushing its last entry on the map of the rest. -/
theorem push_grouping (entry : α) (log : List α) :
    push key entry (grouping key log) = grouping key (log ++ [entry]) := by
  have distinct : ((grouping key log).map Prod.fst).Nodup := by
    rw [map_grouping]
    exact nodup_eraseDups _
  rw [push_of_distinct entry distinct, map_grouping, grouping_append_singleton]
  simp only [List.mem_eraseDups]

/-- A log is grouped by pushing its entries one after the other. -/
theorem pushAll_grouping (added log : List α) :
    pushAll key added (grouping key log) = grouping key (log ++ added) := by
  unfold pushAll
  induction added generalizing log with
  | nil => rw [List.foldl_nil, List.append_nil]
  | cons entry added ih => rw [List.foldl_cons, push_grouping, ih, ← List.append_cons]

/-- The grouping of a log is a map of buckets. -/
theorem bucketMap_grouping (log : List α) : BucketMap key (grouping key log) := by
  induction log using List.reverseRecOn with
  | nil => exact ⟨List.nodup_nil, List.forall_mem_nil _, List.forall_mem_nil _⟩
  | append_singleton log entry ih =>
      rw [← push_grouping]
      exact ih.push entry

/-! ## Lists that hold a map -/

/-- What is put into a list that stands in groups is pushed on its map of buckets. -/
theorem groups_eq_pushAll {entries log : List α} (added : List α)
    (same : groups key entries = grouping key log) :
    groups key (added.foldl (fun stored entry => insertGrouped key entry stored) entries) =
      pushAll key added (groups key entries) := by
  rw [groups_foldl_insertGrouped added same, same, pushAll_grouping]

end Keyed

end SqlBuilder
