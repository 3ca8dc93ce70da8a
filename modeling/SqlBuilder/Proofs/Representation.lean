import SqlBuilder.Proofs.Arrangement
import SqlBuilder.Proofs.ReadOnly

/-!
# The parts of a statement fit together

Whatever is called on a statement, in whatever order and whether it succeeds
or not, the parts that are stored agree with the kind of the statement, no
stored expression is blank, and every stored condition is valid.  The kind is
fixed once, and a call for another kind fails from then on.
-/

namespace SqlBuilder

namespace Keyed

variable {κ α : Type} [DecidableEq κ]

/-- What stands in a group stands in the list. -/
theorem mem_of_mem_groups {key : α → κ} {entries : List α} {bucket : κ × List α} {entry : α}
    (mem : bucket ∈ groups key entries) (inBucket : entry ∈ bucket.2) : entry ∈ entries := by
  rw [← flatMap_groups key entries]
  exact List.mem_flatMap.mpr ⟨bucket, mem, inBucket⟩

end Keyed

namespace Statement

/-- The expressions that a statement stores, clause by clause. -/
def expressions (s : Statement) : List Expression :=
  s.columns ++ s.tables ++ s.groups ++ s.target.toList ++ s.insertColumns ++ s.updateTables ++
    s.joins.map Join.table

/-- The conditions that a statement stores, those of joins included. -/
def allConditions (s : Statement) : List Predicate :=
  s.predicates ++ s.joins.flatMap Join.predicates

/-- The parts that a statement stores fit its kind, and are well formed themselves. -/
structure Sound (s : Statement) : Prop where
  rawText : s.kind = .raw ↔ s.rawText ≠ none
  deletes : s.kind = .delete ↔ s.deletes = true
  columns : s.columns ≠ [] → s.kind = .select ∨ s.kind = .random
  insertColumns : s.insertColumns ≠ [] → s.kind = .insert
  updateTables : s.updateTables ≠ [] → s.kind = .update
  filled : Expression.AllFilled s.expressions
  conditions : ∀ p ∈ s.allConditions, p.Valid

variable {s s' : Statement}

/-- The parts that a statement stores fit a kind. -/
structure Fits (s : Statement) (kind : StatementKind) : Prop where
  rawText : s.rawText ≠ none → kind = .raw
  deletes : s.deletes = true → kind = .delete
  columns : s.columns ≠ [] → kind = .select ∨ kind = .random
  insertColumns : s.insertColumns ≠ [] → kind = .insert
  updateTables : s.updateTables ≠ [] → kind = .update

/-- A kind that is admitted is the kind that was decided on. -/
theorem Admits.eq_of_decided {kind decided : StatementKind} (admits : s.Admits kind)
    (is : s.kind = decided) (known : decided ≠ .undecided) : kind = decided := by
  rcases admits with undecided | same
  · exact absurd (is.symm.trans undecided) known
  · exact same.symm.trans is

/-- The parts of a sound statement fit every kind that it admits. -/
theorem Sound.fits {kind : StatementKind} (sound : s.Sound) (admits : s.Admits kind) :
    s.Fits kind where
  rawText text := admits.eq_of_decided (sound.rawText.mpr text) (by decide)
  deletes set := admits.eq_of_decided (sound.deletes.mpr set) (by decide)
  columns some := (sound.columns some).imp (admits.eq_of_decided · (by decide))
    (admits.eq_of_decided · (by decide))
  insertColumns some := admits.eq_of_decided (sound.insertColumns some) (by decide)
  updateTables some := admits.eq_of_decided (sound.updateTables some) (by decide)

theorem sound_statement (config : Config) : config.statement.Sound := by
  constructor <;> simp [Config.statement, expressions, allConditions, Expression.AllFilled]

theorem sound_selection (config : Config) : config.selection.Sound := by
  constructor <;> simp [Config.selection, expressions, allConditions, Expression.AllFilled]

/-- The parts that depend on the kind are the same. -/
structure SameIntent (s s' : Statement) : Prop where
  kind : s'.kind = s.kind
  rawText : s'.rawText = s.rawText
  deletes : s'.deletes = s.deletes
  columns : s'.columns = s.columns
  insertColumns : s'.insertColumns = s.insertColumns
  updateTables : s'.updateTables = s.updateTables

/-- What does not touch the kind has to be well formed only. -/
theorem Sound.of_sameIntent (sound : s.Sound) (same : SameIntent s s')
    (filled : Expression.AllFilled s'.expressions) (conditions : ∀ p ∈ s'.allConditions, p.Valid) :
    s'.Sound := by
  obtain ⟨kind, rawText, deletes, columns, insertColumns, updateTables⟩ := same
  refine ⟨?_, ?_, ?_, ?_, ?_, filled, conditions⟩
  · rw [kind, rawText]
    exact sound.rawText
  · rw [kind, deletes]
    exact sound.deletes
  · rw [kind, columns]
    exact sound.columns
  · rw [kind, insertColumns]
    exact sound.insertColumns
  · rw [kind, updateTables]
    exact sound.updateTables

/-- Expressions are filled if those are that come in. -/
theorem allFilled_of_added {items : List Expression} (filled : Expression.AllFilled s.expressions)
    (added : Expression.AllFilled items)
    (from_ : ∀ item ∈ s'.expressions, item ∈ s.expressions ∨ item ∈ items) :
    Expression.AllFilled s'.expressions := by
  intro item mem
  rcases from_ item mem with old | new
  · exact filled item old
  · exact added item new

/-- Conditions are valid if those are that come in. -/
theorem valid_of_added {added : List Predicate} (valid : ∀ p ∈ s.allConditions, p.Valid)
    (addedValid : ∀ p ∈ added, p.Valid)
    (from_ : ∀ p ∈ s'.allConditions, p ∈ s.allConditions ∨ p ∈ added) :
    ∀ p ∈ s'.allConditions, p.Valid := by
  intro p mem
  rcases from_ p mem with old | new
  · exact valid p old
  · exact addedValid p new

theorem sound_addPredicates {predicates : List Predicate} (sound : s.Sound)
    (valid : ∀ p ∈ predicates, p.Valid) (done : s.addPredicates predicates = .ok s') :
    s'.Sound := by
  obtain ⟨names, taken, -, rfl⟩ := addPredicates_ok done
  refine sound.of_sameIntent ⟨rfl, rfl, rfl, rfl, rfl, rfl⟩ sound.filled ?_
  refine valid_of_added sound.conditions valid fun p mem => ?_
  rcases List.mem_append.mp mem with stored | joined
  · have stored := (Keyed.perm_foldl_insertGrouped Predicate.key predicates s.predicates).subset
      stored
    rcases List.mem_append.mp stored with old | new
    · exact Or.inl (List.mem_append_left _ old)
    · exact Or.inr new
  · exact Or.inl (List.mem_append_right _ joined)

/-- A condition of a join that was extended is an old one or the one that came in. -/
theorem mem_modify_join {joins : List Join} {index : Nat} {p q : Predicate}
    (mem : q ∈ (joins.modify index fun join =>
      { join with predicates := join.predicates ++ [p] }).flatMap Join.predicates) :
    q ∈ joins.flatMap Join.predicates ∨ q = p := by
  induction joins generalizing index with
  | nil =>
      rw [List.modify_nil] at mem
      exact Or.inl mem
  | cons join joins ih =>
      cases index with
      | zero =>
          simp only [List.modify_zero_cons, List.flatMap_cons, List.mem_append,
            List.mem_singleton] at mem ⊢
          tauto
      | succ index =>
          simp only [List.modify_succ_cons, List.flatMap_cons, List.mem_append] at mem ⊢
          rcases mem with here | behind
          · exact Or.inl (Or.inl here)
          · exact (ih behind).imp_left Or.inr

/-- To extend the conditions of a join keeps the joined tables. -/
theorem tables_modify_join (joins : List Join) (index : Nat) (p : Predicate) :
    (joins.modify index fun join => { join with predicates := join.predicates ++ [p] }).map
      Join.table = joins.map Join.table := by
  induction joins generalizing index with
  | nil => rw [List.modify_nil]
  | cons join joins ih =>
      cases index with
      | zero => rfl
      | succ index => rw [List.modify_succ_cons, List.map_cons, List.map_cons, ih]

theorem sound_attach {index : Nat} {p : Predicate} (sound : s.Sound) (valid : p.Valid)
    (done : s.attach index p = .ok s') : s'.Sound := by
  obtain ⟨names, taken, -, rfl⟩ := attach_ok done
  refine sound.of_sameIntent ⟨rfl, rfl, rfl, rfl, rfl, rfl⟩ ?_ ?_
  · unfold expressions
    rw [tables_modify_join]
    exact sound.filled
  · refine valid_of_added sound.conditions (List.forall_mem_singleton.mpr valid) fun q mem => ?_
    rcases List.mem_append.mp mem with stored | joined
    · exact Or.inl (List.mem_append_left _ stored)
    · rcases mem_modify_join joined with old | rfl
      · exact Or.inl (List.mem_append_right _ old)
      · exact Or.inr List.mem_cons_self

/-- Every step leaves a sound statement sound. -/
theorem Step.sound {Bound : Statement → List Binding → Prop} (sound : s.Sound)
    (step : Step Bound s s') : s'.Sound := by
  cases step with
  | claim kind plain admits =>
      have fits := sound.fits admits
      have raw : kind ≠ .raw := by
        rintro rfl
        exact absurd plain (by decide)
      have delete : kind ≠ .delete := by
        rintro rfl
        exact absurd plain (by decide)
      exact ⟨⟨fun is => absurd is raw, fits.rawText⟩, ⟨fun is => absurd is delete, fits.deletes⟩,
        fits.columns, fits.insertColumns, fits.updateTables, sound.filled, sound.conditions⟩
  | raw text admits =>
      have fits := sound.fits admits
      exact ⟨⟨fun _ => Option.some_ne_none text, fun _ => rfl⟩, ⟨nofun, fits.deletes⟩,
        fits.columns, fits.insertColumns, fits.updateTables, sound.filled, sound.conditions⟩
  | delete admits =>
      have fits := sound.fits admits
      exact ⟨⟨nofun, fits.rawText⟩, ⟨fun _ => rfl, fun _ => rfl⟩,
        fits.columns, fits.insertColumns, fits.updateTables, sound.filled, sound.conditions⟩
  | columns items filled selects =>
      refine ⟨sound.rawText, sound.deletes, fun _ => selects, sound.insertColumns,
        sound.updateTables, allFilled_of_added sound.filled filled ?_, sound.conditions⟩
      intro item mem
      simp only [expressions, List.mem_append] at mem ⊢
      tauto
  | insertColumns items filled inserts =>
      refine ⟨sound.rawText, sound.deletes, sound.columns, fun _ => inserts,
        sound.updateTables, allFilled_of_added sound.filled filled ?_, sound.conditions⟩
      intro item mem
      simp only [expressions, List.mem_append] at mem ⊢
      tauto
  | updateTables items filled updates =>
      refine ⟨sound.rawText, sound.deletes, sound.columns, sound.insertColumns,
        fun _ => updates, allFilled_of_added sound.filled filled ?_, sound.conditions⟩
      intro item mem
      simp only [expressions, List.mem_append] at mem ⊢
      tauto
  | tables items filled | groups items filled =>
      refine sound.of_sameIntent ⟨rfl, rfl, rfl, rfl, rfl, rfl⟩
        (allFilled_of_added sound.filled filled ?_) sound.conditions
      intro item mem
      simp only [expressions, List.mem_append] at mem ⊢
      tauto
  | target item filled =>
      refine sound.of_sameIntent ⟨rfl, rfl, rfl, rfl, rfl, rfl⟩
        (allFilled_of_added sound.filled (List.forall_mem_singleton.mpr filled) ?_)
        sound.conditions
      intro other mem
      simp only [expressions, List.mem_append, Option.toList_some] at mem ⊢
      tauto
  | join kind table filled =>
      refine sound.of_sameIntent ⟨rfl, rfl, rfl, rfl, rfl, rfl⟩
        (allFilled_of_added sound.filled (List.forall_mem_singleton.mpr filled) ?_) ?_
      · intro other mem
        simp only [expressions, List.map_append, List.mem_append, List.map_cons,
          List.map_nil] at mem ⊢
        tauto
      · refine valid_of_added sound.conditions (List.forall_mem_nil _) fun p mem => Or.inl ?_
        simpa [allConditions] using mem
  | settings distinct locked limit offset groupCount | orders columns | bind bindings bound =>
      exact sound.of_sameIntent ⟨rfl, rfl, rfl, rfl, rfl, rfl⟩ sound.filled sound.conditions
  | conditions predicates valid done => exact sound_addPredicates sound valid done
  | attach index p valid done => exact sound_attach sound valid done
  | row row done =>
      obtain ⟨names, taken, -, rfl⟩ := addRow_ok done
      exact sound.of_sameIntent ⟨rfl, rfl, rfl, rfl, rfl, rfl⟩ sound.filled sound.conditions
  | extend value done =>
      obtain ⟨last, replaced, names, taken, -, -, -, rfl⟩ := extendRow_ok done
      exact sound.of_sameIntent ⟨rfl, rfl, rfl, rfl, rfl, rfl⟩ sound.filled sound.conditions
  | assign assignments done =>
      obtain ⟨replaced, names, taken, -, -, rfl⟩ := assign_ok done
      exact sound.of_sameIntent ⟨rfl, rfl, rfl, rfl, rfl, rfl⟩ sound.filled sound.conditions
  | member all inner done =>
      obtain ⟨taken, -, rfl⟩ := addMember_ok done
      exact sound.of_sameIntent ⟨rfl, rfl, rfl, rfl, rfl, rfl⟩ sound.filled sound.conditions

/-- Every reachable statement is sound. -/
theorem ReachableBy.sound {rule : List Assignment → Prop} (reach : ReachableBy rule s) : s.Sound :=
  reach.keep sound_statement sound_selection fun _ _ => Step.sound

/-- No condition is kept under a blank key. -/
theorem Sound.visibleKeys (sound : s.Sound) (arranged : s.Arranged) :
    ∀ bucket ∈ s.predicateGroups, Text.isBlank bucket.1 = false := by
  intro bucket mem
  have buckets := arranged.bucketMap_predicates
  obtain ⟨first, others, members⟩ := List.exists_cons_of_ne_nil (buckets.filled bucket mem)
  have inBucket : first ∈ bucket.2 := by rw [members]; exact List.mem_cons_self
  have stored : first ∈ s.allConditions :=
    List.mem_append_left _ (Keyed.mem_of_mem_groups mem inBucket)
  rw [← buckets.keyed bucket mem first inBucket]
  exact (sound.conditions first stored).keyed

end Statement

end SqlBuilder
