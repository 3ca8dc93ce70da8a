/-!
# Lists ordered by first appearance

Entries with keys are kept in lists that remember when a key first appeared.
In a grouped list all entries of one key stand together; a new entry goes
behind the last entry of its key.  In a list of single entries a new entry
takes the place of the old entry of its key.
-/

namespace SqlBuilder

namespace Keyed

variable {κ α : Type} [DecidableEq κ]

/-- Put an entry behind the last entry of its key, at the end if there is none. -/
def insertGrouped (key : α → κ) (entry : α) : List α → List α
  | [] => [entry]
  | first :: rest =>
    if key first = key entry ∧ rest.all (fun other => key other ≠ key entry) then
      first :: entry :: rest
    else first :: insertGrouped key entry rest

/-- The groups of a list: neighbours of one key, under their key. -/
def groups (key : α → κ) : List α → List (κ × List α)
  | [] => []
  | first :: rest =>
    match groups key rest with
    | (k, members) :: others =>
      if k = key first then (k, first :: members) :: others
      else (key first, [first]) :: (k, members) :: others
    | [] => [(key first, [first])]

/-- Put an entry in the place of the entry of its key, at the end if there is none. -/
def upsert (key : α → κ) (entry : α) : List α → List α
  | [] => [entry]
  | first :: rest =>
    if key first = key entry then entry :: rest else first :: upsert key entry rest

/-- An entry is added and no other entry is lost. -/
theorem perm_insertGrouped (key : α → κ) (entry : α) (entries : List α) :
    (insertGrouped key entry entries).Perm (entries ++ [entry]) := by
  induction entries with
  | nil => exact .refl [entry]
  | cons first rest ih =>
      unfold insertGrouped
      split
      · exact (List.perm_append_singleton entry rest).symm.cons first
      · exact ih.cons first

/-- Entries are added one after the other and no other entry is lost. -/
theorem perm_foldl_insertGrouped (key : α → κ) (added entries : List α) :
    (added.foldl (fun stored entry => insertGrouped key entry stored) entries).Perm
      (entries ++ added) := by
  induction added generalizing entries with
  | nil => simp
  | cons entry added ih =>
      rw [List.foldl_cons]
      refine (ih (insertGrouped key entry entries)).trans ?_
      have stored := (perm_insertGrouped key entry entries).append_right added
      rwa [List.append_assoc] at stored

/-- The groups hold the entries of the list in their order. -/
theorem flatMap_groups (key : α → κ) (entries : List α) :
    (groups key entries).flatMap Prod.snd = entries := by
  induction entries with
  | nil => rfl
  | cons first rest ih =>
      unfold groups
      split
      · rename_i k members others found
        rw [found] at ih
        split <;> simpa using ih
      · rename_i found
        rw [found] at ih
        simpa using ih

/-- Under a key stands the entry that was put in last. -/
theorem find?_upsert (key : α → κ) (entry : α) (k : κ) (entries : List α) :
    (upsert key entry entries).find? (fun other => key other = k) =
      if key entry = k then some entry else entries.find? (fun other => key other = k) := by
  induction entries with
  | nil => by_cases h : key entry = k <;> simp [upsert, h]
  | cons first rest ih =>
      unfold upsert
      by_cases same : key first = key entry
      · by_cases h : key entry = k <;> simp [same, h]
      · rw [if_neg same]
        by_cases h : key first = k
        · have other : key entry ≠ k := fun e => same (h.trans e.symm)
          simp [h, other]
        · simp [h, ih]

/-- Keys keep their places, and a new key comes last. -/
theorem map_upsert (key : α → κ) (entry : α) (entries : List α) :
    (upsert key entry entries).map key =
      if key entry ∈ entries.map key then entries.map key
      else entries.map key ++ [key entry] := by
  induction entries with
  | nil => simp [upsert]
  | cons first rest ih =>
      unfold upsert
      by_cases same : key first = key entry
      · simp [same]
      · have other : key entry ≠ key first := fun e => same e.symm
        rw [if_neg same, List.map_cons, ih]
        by_cases h : key entry ∈ rest.map key <;> simp [h, other]

/-- A new entry comes in, and the old entry of its key goes out if there is one. -/
theorem perm_upsert (key : α → κ) (entry : α) (entries : List α) :
    (upsert key entry entries ++
        (entries.find? fun other => key other = key entry).toList).Perm (entries ++ [entry]) := by
  induction entries with
  | nil => exact .refl [entry]
  | cons first rest ih =>
      unfold upsert
      by_cases same : key first = key entry
      · rw [if_pos same, List.find?_cons_of_pos (by simpa using same)]
        have out : (entry :: (rest ++ [first])).Perm (entry :: first :: rest) :=
          (List.perm_append_singleton first rest).cons entry
        have back : (first :: entry :: rest).Perm (first :: (rest ++ [entry])) :=
          (List.perm_append_singleton entry rest).symm.cons first
        exact out.trans ((List.Perm.swap first entry rest).trans back)
      · rw [if_neg same, List.find?_cons_of_neg (by simpa using same)]
        exact ih.cons first

/-- Under a key stands one of the new entries or an old one. -/
theorem mem_foldl_upsert (key : α → κ) (other : α) (added entries : List α)
    (mem : other ∈ added.foldl (fun stored entry => upsert key entry stored) entries) :
    other ∈ added ∨ other ∈ entries := by
  induction added generalizing entries with
  | nil => exact Or.inr mem
  | cons entry added ih =>
      rcases ih (upsert key entry entries) mem with inAdded | inStored
      · exact Or.inl (List.mem_cons_of_mem entry inAdded)
      · have inBoth := (perm_upsert key entry entries).subset (List.mem_append_left _ inStored)
        rcases List.mem_append.mp inBoth with inEntries | isEntry
        · exact Or.inr inEntries
        · rw [List.mem_singleton.mp isEntry]
          exact Or.inl List.mem_cons_self

/-- The entries that new entries push out, each looked up in the old list. -/
def pushedOut (key : α → κ) (added entries : List α) : List α :=
  added.flatMap fun entry => (entries.find? fun other => key other = key entry).toList

/-- What is pushed out is the same in lists that agree on the keys. -/
theorem pushedOut_congr (key : α → κ) {added left right : List α}
    (agree : ∀ entry ∈ added, left.find? (fun other => key other = key entry) =
      right.find? fun other => key other = key entry) :
    pushedOut key added left = pushedOut key added right := by
  induction added with
  | nil => rfl
  | cons entry added ih =>
      have others := ih fun other mem => agree other (List.mem_cons_of_mem entry mem)
      unfold pushedOut at others ⊢
      rw [List.flatMap_cons, List.flatMap_cons, agree entry List.mem_cons_self, others]

/-- Entries of different keys push out different entries. -/
theorem perm_pushedOut (key : α → κ) {added : List α} (distinct : (added.map key).Nodup)
    (entries : List α) : ∃ kept, entries.Perm (pushedOut key added entries ++ kept) := by
  induction added generalizing entries with
  | nil => exact ⟨entries, .refl entries⟩
  | cons entry added ih =>
      obtain ⟨isNew, distinct⟩ := List.nodup_cons.mp distinct
      have first : pushedOut key (entry :: added) entries =
          (entries.find? fun other => key other = key entry).toList ++
            pushedOut key added entries := rfl
      rw [first]
      cases found : entries.find? fun other => key other = key entry with
      | none => exact ih distinct entries
      | some old =>
          obtain ⟨sameKey, front, back, split, -⟩ := List.find?_eq_some_iff_append.mp found
          -- the other keys are looked up beside the entry that goes out
          have agree : pushedOut key added (front ++ back) = pushedOut key added entries := by
            apply pushedOut_congr
            intro other mem
            have differs : key old ≠ key other := by
              intro same
              apply isNew
              rw [← of_decide_eq_true sameKey, same]
              exact List.mem_map_of_mem mem
            rw [split, List.find?_append, List.find?_append,
              List.find?_cons_of_neg (by simpa using differs)]
          obtain ⟨kept, others⟩ := ih distinct (front ++ back)
          rw [agree] at others
          refine ⟨kept, ?_⟩
          rw [split] at others ⊢
          exact List.perm_middle.trans (others.cons old)

/-- Two lists at the end may change places. -/
theorem perm_swap_last (front left right : List α) :
    (front ++ left ++ right).Perm (front ++ right ++ left) := by
  rw [List.append_assoc, List.append_assoc]
  exact List.perm_append_comm.append_left front

/-- The entries that new entries push out as they come in one after the other. -/
def pushedInTurn (key : α → κ) : List α → List α → List α
  | [], _ => []
  | entry :: added, entries =>
    (entries.find? fun other => key other = key entry).toList ++
      pushedInTurn key added (upsert key entry entries)

/-- An entry that is pushed out was in the old list, or is one of the new entries itself. -/
theorem mem_pushedInTurn (key : α → κ) {other : α} {added entries : List α}
    (mem : other ∈ pushedInTurn key added entries) :
    other ∈ pushedOut key added entries ∨ other ∈ added := by
  induction added generalizing entries with
  | nil => exact Or.inr mem
  | cons entry added ih =>
      rcases List.mem_append.mp mem with old | later
      · exact Or.inl (List.mem_append_left _ old)
      · rcases ih later with old | new
        · obtain ⟨pusher, inAdded, found⟩ := List.mem_flatMap.mp old
          rw [find?_upsert] at found
          split at found
          · rw [List.mem_singleton.mp found]
            exact Or.inr List.mem_cons_self
          · refine Or.inl (List.mem_flatMap.mpr ⟨pusher, List.mem_cons_of_mem entry inAdded, found⟩)
        · exact Or.inr (List.mem_cons_of_mem entry new)

/-- Entries of different keys push out the same in turn as each by itself. -/
theorem pushedInTurn_of_distinct (key : α → κ) {added : List α}
    (distinct : (added.map key).Nodup) (entries : List α) :
    pushedInTurn key added entries = pushedOut key added entries := by
  induction added generalizing entries with
  | nil => rfl
  | cons entry added ih =>
      obtain ⟨isNew, distinct⟩ := List.nodup_cons.mp distinct
      have agree : pushedOut key added (upsert key entry entries) =
          pushedOut key added entries := by
        apply pushedOut_congr
        intro other mem
        have differs : key entry ≠ key other := fun same =>
          isNew (same ▸ List.mem_map_of_mem mem)
        rw [find?_upsert, if_neg differs]
      rw [pushedInTurn, ih distinct, agree]
      rfl

/-- New entries come in, and what they push out in turn goes out. -/
theorem perm_foldl_upsert_inTurn (key : α → κ) (added entries : List α) :
    (added.foldl (fun stored entry => upsert key entry stored) entries ++
      pushedInTurn key added entries).Perm (entries ++ added) := by
  induction added generalizing entries with
  | nil => exact .of_eq rfl
  | cons entry added ih =>
      have rest := ih (upsert key entry entries)
      have once := perm_upsert key entry entries
      rw [List.foldl_cons, pushedInTurn, ← List.append_assoc, List.append_cons]
      generalize (entries.find? fun other => key other = key entry).toList = old at once ⊢
      have others := (perm_swap_last _ old _).trans (rest.append_right old)
      exact others.trans ((perm_swap_last _ added old).trans (once.append_right added))

/-- New entries of different keys come in, and what they push out goes out. -/
theorem perm_foldl_upsert (key : α → κ) {added : List α} (distinct : (added.map key).Nodup)
    (entries : List α) :
    (added.foldl (fun stored entry => upsert key entry stored) entries ++
      pushedOut key added entries).Perm (entries ++ added) := by
  have inTurn := perm_foldl_upsert_inTurn key added entries
  rwa [pushedInTurn_of_distinct key distinct] at inTurn

/-- An entry that takes the place of another that did so before leaves nothing of it. -/
theorem upsert_upsert (key : α → κ) {first second : α} (same : key first = key second)
    (entries : List α) :
    upsert key second (upsert key first entries) = upsert key second entries := by
  induction entries with
  | nil => simp [upsert, same]
  | cons entry entries ih =>
      by_cases here : key entry = key second
      · simp [upsert, here, same]
      · simp [upsert, here, same, ih]

end Keyed

end SqlBuilder
