import SqlBuilder.Keyed
import Mathlib.Data.List.Induction
import Mathlib.Data.List.Nodup

/-!
# Stable grouping

A log of entries is grouped by listing its keys as they first appear, each
with its entries in the order of the log.  A list that is filled entry by
entry, each behind the last one of its key, holds the groups of the log one
after the other, and the groups can be read back from it.
-/

namespace SqlBuilder

namespace Keyed

variable {κ α : Type} [DecidableEq κ] {key : α → κ}

/-- The entries of a key, in the order of the log. -/
def bucket (key : α → κ) (log : List α) (k : κ) : List α :=
  log.filter fun entry => key entry = k

/-- The keys of a log as they first appear, each with its entries in order. -/
def grouping (key : α → κ) (log : List α) : List (κ × List α) :=
  (log.map key).eraseDups.map fun k => (k, bucket key log k)

/-- The entries of a log group by group. -/
def inGroups (key : α → κ) (log : List α) : List α :=
  (log.map key).eraseDups.flatMap (bucket key log)

theorem flatMap_grouping (log : List α) :
    (grouping key log).flatMap Prod.snd = inGroups key log := by
  unfold grouping inGroups
  rw [List.flatMap_map]

/-! ## Keys and their entries -/

theorem mem_bucket {log : List α} {entry : α} {k : κ} :
    entry ∈ bucket key log k ↔ entry ∈ log ∧ key entry = k := by
  unfold bucket
  rw [List.mem_filter, decide_eq_true_iff]

theorem bucket_eq_nil_iff {log : List α} {k : κ} : bucket key log k = [] ↔ k ∉ log.map key := by
  simp [bucket, List.filter_eq_nil_iff]

theorem bucket_append (log : List α) (entry : α) (k : κ) :
    bucket key (log ++ [entry]) k = bucket key log k ++ if key entry = k then [entry] else [] := by
  unfold bucket
  rw [List.filter_append]
  by_cases same : key entry = k <;> simp [same]

/-- A key that comes last is new or has appeared. -/
theorem eraseDups_append_singleton (keys : List κ) (k : κ) :
    (keys ++ [k]).eraseDups = if k ∈ keys then keys.eraseDups else keys.eraseDups ++ [k] := by
  rw [List.eraseDups_append]
  by_cases mem : k ∈ keys <;> simp [List.removeAll, List.eraseDups_cons, mem]

theorem nodup_eraseDups (keys : List κ) : keys.eraseDups.Nodup := by
  induction keys using List.reverseRecOn with
  | nil => exact List.nodup_nil
  | append_singleton keys k ih =>
      rw [eraseDups_append_singleton]
      split
      · exact ih
      · next isNew =>
          refine List.nodup_append.mpr ⟨ih, List.nodup_singleton k, ?_⟩
          rintro other mem k' isLast rfl
          rw [List.mem_singleton.mp isLast, List.mem_eraseDups] at mem
          exact isNew mem

/-- A new entry goes behind the entries of its key, or comes last under a key of its own. -/
theorem grouping_append_singleton (log : List α) (entry : α) :
    grouping key (log ++ [entry]) =
      if key entry ∈ log.map key then
        (grouping key log).map fun (k, members) =>
          (k, if key entry = k then members ++ [entry] else members)
      else grouping key log ++ [(key entry, [entry])] := by
  unfold grouping
  rw [List.map_append, List.map_singleton, eraseDups_append_singleton]
  by_cases seen : key entry ∈ log.map key
  · rw [if_pos seen, if_pos seen, List.map_map]
    refine List.map_congr_left fun k _ => ?_
    rw [Function.comp_apply, bucket_append]
    by_cases same : key entry = k <;> simp [same]
  · rw [if_neg seen, if_neg seen, List.map_append, List.map_singleton, bucket_append,
      if_pos rfl, bucket_eq_nil_iff.mpr seen, List.nil_append]
    congr 1
    refine List.map_congr_left fun k mem => ?_
    have differs : key entry ≠ k := fun same => seen (same ▸ List.mem_eraseDups.mp mem)
    rw [bucket_append, if_neg differs, List.append_nil]

/-! ## Filling a list entry by entry -/

/-- An entry goes behind the last entry of its key, wherever that stands. -/
theorem insertGrouped_behind {entry last : α} (front back : List α) (same : key last = key entry)
    (isLast : ∀ other ∈ back, key other ≠ key entry) :
    insertGrouped key entry (front ++ last :: back) = front ++ last :: entry :: back := by
  induction front with
  | nil =>
      have whole : key last = key entry ∧ back.all (fun other => key other ≠ key entry) := by
        simpa [same] using isLast
      rw [List.nil_append, insertGrouped, if_pos whole, List.nil_append]
  | cons first front ih =>
      have later : ¬ (key first = key entry ∧
          (front ++ last :: back).all fun other => key other ≠ key entry) := by
        simp [same]
      rw [List.cons_append, insertGrouped, if_neg later, ih, List.cons_append]

/-- An entry of a new key goes to the end. -/
theorem insertGrouped_new {entry : α} {entries : List α}
    (isNew : ∀ other ∈ entries, key other ≠ key entry) :
    insertGrouped key entry entries = entries ++ [entry] := by
  induction entries with
  | nil => rfl
  | cons first rest ih =>
      have other := isNew first List.mem_cons_self
      rw [insertGrouped, if_neg fun whole => other whole.1,
        ih fun entry mem => isNew entry (List.mem_cons_of_mem first mem), List.cons_append]

/-- A new entry changes no bucket but that of its key. -/
theorem flatMap_bucket_append {keys : List κ} {entry : α} (log : List α)
    (isNew : key entry ∉ keys) :
    keys.flatMap (bucket key (log ++ [entry])) = keys.flatMap (bucket key log) := by
  refine List.flatMap_congr fun k mem => ?_
  have differs : key entry ≠ k := fun same => isNew (same ▸ mem)
  rw [bucket_append, if_neg differs, List.append_nil]

/-- The buckets of other keys hold no entry of a key. -/
theorem key_ne_of_mem_flatMap {keys : List κ} {log : List α} {k : κ} (isNew : k ∉ keys) :
    ∀ entry ∈ keys.flatMap (bucket key log), key entry ≠ k := by
  rintro entry mem rfl
  obtain ⟨k, inKeys, inBucket⟩ := List.mem_flatMap.mp mem
  rw [(mem_bucket.mp inBucket).2] at isNew
  exact isNew inKeys

/-- The bucket of a key that appears has a last entry. -/
theorem bucket_ends {log : List α} {k : κ} (seen : k ∈ log.map key) :
    ∃ init last, bucket key log k = init ++ [last] ∧ key last = k := by
  rcases List.eq_nil_or_concat (bucket key log k) with none | ⟨init, last, ends⟩
  · exact absurd seen (bucket_eq_nil_iff.mp none)
  · rw [List.concat_eq_append] at ends
    have mem : last ∈ bucket key log k := by
      rw [ends]
      exact List.mem_append_right init List.mem_cons_self
    exact ⟨init, last, ends, (mem_bucket.mp mem).2⟩

/-- The groups of a longer log are those of the log, with the new entry in its place. -/
theorem insertGrouped_inGroups (entry : α) (log : List α) :
    insertGrouped key entry (inGroups key log) = inGroups key (log ++ [entry]) := by
  unfold inGroups
  rw [List.map_append, List.map_singleton, eraseDups_append_singleton]
  by_cases seen : key entry ∈ log.map key
  · have distinct := nodup_eraseDups (log.map key)
    obtain ⟨front, back, split⟩ := List.append_of_mem (List.mem_eraseDups.mpr seen)
    rw [if_pos seen]
    rw [split] at distinct ⊢
    obtain ⟨-, tail, apart⟩ := List.nodup_append.mp distinct
    have newFront : key entry ∉ front := fun mem => apart _ mem _ List.mem_cons_self rfl
    have newBack : key entry ∉ back := (List.nodup_cons.mp tail).1
    obtain ⟨init, last, ends, same⟩ := bucket_ends seen
    have placed := insertGrouped_behind (front.flatMap (bucket key log) ++ init)
      (back.flatMap (bucket key log)) same (key_ne_of_mem_flatMap newBack)
    rw [List.flatMap_append, List.flatMap_append, List.flatMap_cons, List.flatMap_cons,
      flatMap_bucket_append log newFront, flatMap_bucket_append log newBack, bucket_append,
      if_pos rfl, ends]
    simpa using placed
  · have isNew : key entry ∉ (log.map key).eraseDups := fun mem => seen (List.mem_eraseDups.mp mem)
    rw [if_neg seen, List.flatMap_append, List.flatMap_singleton, bucket_append, if_pos rfl,
      bucket_eq_nil_iff.mpr seen, List.nil_append, flatMap_bucket_append log isNew]
    exact insertGrouped_new (key_ne_of_mem_flatMap isNew)

/-! ## Reading the groups back -/

/-- The first group is that of the first entry. -/
theorem groups_cons (key : α → κ) (first : α) (rest : List α) :
    ∃ members others, groups key (first :: rest) = (key first, members) :: others := by
  unfold groups
  split
  · next k members others _ =>
      split
      · next same => exact ⟨first :: members, others, by rw [same]⟩
      · exact ⟨[first], (k, members) :: others, rfl⟩
  · exact ⟨[first], [], rfl⟩

/-- Entries of one key in front of entries of other keys are a group. -/
theorem groups_append {k : κ} {members rest : List α} (filled : members ≠ [])
    (same : ∀ entry ∈ members, key entry = k) (others : ∀ entry ∈ rest, key entry ≠ k) :
    groups key (members ++ rest) = (k, members) :: groups key rest := by
  induction members with
  | nil => cases filled rfl
  | cons first members ih =>
      have isFirst : key first = k := same first List.mem_cons_self
      rw [List.cons_append, groups]
      cases members with
      | nil =>
          rw [List.nil_append]
          cases rest with
          | nil => rw [groups, isFirst]
          | cons next rest =>
              have differs : key next ≠ key first := by
                rw [isFirst]
                exact others next List.mem_cons_self
              obtain ⟨_, _, head⟩ := groups_cons key next rest
              rw [head]
              rw [isFirst] at differs
              simp only [if_neg differs, isFirst]
      | cons second members =>
          have inner := ih (List.cons_ne_nil second members) fun entry mem =>
            same entry (List.mem_cons_of_mem first mem)
          rw [inner]
          simp only [isFirst, if_true]

/-- Groups of different keys are read back as they are. -/
theorem groups_flatMap {keys : List κ} {members : κ → List α} (distinct : keys.Nodup)
    (filled : ∀ k ∈ keys, members k ≠ []) (same : ∀ k, ∀ entry ∈ members k, key entry = k) :
    groups key (keys.flatMap members) = keys.map fun k => (k, members k) := by
  induction keys with
  | nil => rfl
  | cons k keys ih =>
      obtain ⟨isNew, distinct⟩ := List.nodup_cons.mp distinct
      have others : ∀ entry ∈ keys.flatMap members, key entry ≠ k := by
        rintro entry mem rfl
        obtain ⟨k', inKeys, inGroup⟩ := List.mem_flatMap.mp mem
        rw [same k' entry inGroup] at isNew
        exact isNew inKeys
      rw [List.flatMap_cons, groups_append (filled k List.mem_cons_self) (same k) others,
        ih distinct fun other mem => filled other (List.mem_cons_of_mem k mem), List.map_cons]

/-- The groups of a log that stands in groups are its grouping. -/
theorem groups_inGroups (log : List α) : groups key (inGroups key log) = grouping key log := by
  refine groups_flatMap (nodup_eraseDups _) ?_ fun k entry mem => (mem_bucket.mp mem).2
  intro k mem none
  exact bucket_eq_nil_iff.mp none (List.mem_eraseDups.mp mem)

/-- A list whose groups are those of a log holds the log group by group. -/
theorem eq_inGroups {entries log : List α} (same : groups key entries = grouping key log) :
    entries = inGroups key log := by
  rw [← flatMap_groups key entries, same, flatMap_grouping]

/-- Entries that are stored one after the other are stored as the log is grouped. -/
theorem groups_foldl_insertGrouped {entries log : List α} (added : List α)
    (same : groups key entries = grouping key log) :
    groups key (added.foldl (fun stored entry => insertGrouped key entry stored) entries) =
      grouping key (log ++ added) := by
  induction added generalizing entries log with
  | nil => rwa [List.foldl_nil, List.append_nil]
  | cons entry added ih =>
      rw [List.foldl_cons, List.append_cons]
      apply ih
      rw [eq_inGroups same, insertGrouped_inGroups, groups_inGroups]

/-! ## What the groups hold -/

/-- Grouping loses no entry and adds none. -/
theorem perm_inGroups (log : List α) : (inGroups key log).Perm log := by
  induction log using List.reverseRecOn with
  | nil => exact .refl []
  | append_singleton log entry ih =>
      rw [← insertGrouped_inGroups]
      exact (perm_insertGrouped key entry _).trans (ih.append_right [entry])

/-- A new entry is the last one of its key. -/
theorem bucket_insertGrouped (entry : α) (entries : List α) (k : κ) :
    bucket key (insertGrouped key entry entries) k = bucket key (entries ++ [entry]) k := by
  induction entries with
  | nil => rfl
  | cons first rest ih =>
      unfold insertGrouped
      split
      · next whole =>
          have none : key entry ∉ rest.map key := by
            simpa using whole.2
          by_cases here : key entry = k
          · rw [here] at none
            have empty := bucket_eq_nil_iff.mpr none
            unfold bucket at empty ⊢
            simp [whole.1, here, empty]
          · simp [bucket, whole.1, here]
      · unfold bucket at ih ⊢
        rw [List.cons_append, List.filter_cons, List.filter_cons, ih]

/-- The entries of a key stand in the groups in the order of the log. -/
theorem bucket_inGroups (log : List α) (k : κ) :
    bucket key (inGroups key log) k = bucket key log k := by
  induction log using List.reverseRecOn with
  | nil => rfl
  | append_singleton log entry ih =>
      rw [← insertGrouped_inGroups, bucket_insertGrouped, bucket_append, bucket_append, ih]

/-- Among keys with their groups, a key is found with its group. -/
theorem lookup_map_keys (keys : List κ) (members : κ → List α) (k : κ) :
    (keys.map fun k => (k, members k)).lookup k = if k ∈ keys then some (members k) else none := by
  induction keys with
  | nil => rfl
  | cons first keys ih =>
      rw [List.map_cons, List.lookup_cons, ih]
      by_cases here : k = first
      · simp [here]
      · have differs : (k == first) = false := beq_false_of_ne here
        simp [here, differs]

/-- Under a key stand its entries, if there are any. -/
theorem lookup_grouping (log : List α) (k : κ) :
    (grouping key log).lookup k =
      if bucket key log k = [] then none else some (bucket key log k) := by
  unfold grouping
  rw [lookup_map_keys]
  by_cases seen : k ∈ log.map key
  · have filled : bucket key log k ≠ [] := fun none => bucket_eq_nil_iff.mp none seen
    rw [if_pos (List.mem_eraseDups.mpr seen), if_neg filled]
  · have isNew : k ∉ (log.map key).eraseDups := fun mem => seen (List.mem_eraseDups.mp mem)
    rw [if_neg isNew, if_pos (bucket_eq_nil_iff.mpr seen)]

end Keyed

end SqlBuilder
