import SqlBuilder.Proofs.Reachable

/-!
# Bindings of nested statements

A list of bindings covers another if it binds every name of the other, and to
a value that agrees with the first one there.  Taking over the bindings of
nested statements yields lists that cover theirs.  Lists of bindings only
grow at their end, so a name that is bound keeps its position.
-/

namespace SqlBuilder

namespace Value

/-- Two values are one, or compare as equal; a NaN agrees with itself only as the one value. -/
def Agrees (left right : Value) : Prop :=
  left = right ∨ left.same right = true

end Value

/-- Numbers are equal if neither is a NaN and they have one encoding or are both zero. -/
theorem Double.equal_iff {x y : Double} :
    x.equal y = true ↔
      x.isNaN = false ∧ y.isNaN = false ∧ (x = y ∨ x.isZero = true ∧ y.isZero = true) := by
  obtain ⟨xBits⟩ := x
  obtain ⟨yBits⟩ := y
  unfold Double.equal
  split
  · next nan =>
      rw [Bool.or_eq_true] at nan
      constructor
      · intro impossible
        cases impossible
      · rintro ⟨left, right, -⟩
        rcases nan with nan | nan
        · rw [left] at nan
          cases nan
        · rw [right] at nan
          cases nan
  · next numbers =>
      rw [Bool.or_eq_true, not_or, Bool.not_eq_true, Bool.not_eq_true] at numbers
      simp only [Bool.or_eq_true, beq_iff_eq, Bool.and_eq_true, Double.mk.injEq]
      exact ⟨fun same => ⟨numbers.1, numbers.2, same⟩, fun parts => parts.2.2⟩

/-- Equality of numbers is transitive although a NaN is not equal to itself. -/
theorem Double.equal_trans {x y z : Double} (left : x.equal y = true) (right : y.equal z = true) :
    x.equal z = true := by
  rw [Double.equal_iff] at left right ⊢
  obtain ⟨xNumber, _, xy⟩ := left
  obtain ⟨_, zNumber, yz⟩ := right
  refine ⟨xNumber, zNumber, ?_⟩
  rcases xy with rfl | ⟨xZero, yZero⟩
  · exact yz
  · rcases yz with rfl | ⟨_, zZero⟩
    · exact Or.inr ⟨xZero, yZero⟩
    · exact Or.inr ⟨xZero, zZero⟩

theorem Column.same_trans {x y z : Column} (left : x.same y = true) (right : y.same z = true) :
    x.same z = true := by
  cases x <;> cases y <;> cases z <;> simp_all [Column.same, Deferred.same]

namespace Value

mutual

/-- Equality of values is transitive. -/
theorem same_trans : ∀ {u v w : Value}, u.same v = true → v.same w = true → u.same w = true
  | .null, v, w, left, right => by
      cases v <;> simp only [same, Bool.false_eq_true] at left
      cases w <;> simp only [same, Bool.false_eq_true] at right
      rfl
  | .float _, v, w, left, right => by
      cases v <;> simp only [same, Bool.false_eq_true] at left
      cases w <;> simp only [same, Bool.false_eq_true] at right
      exact Double.equal_trans left right
  | .column _, v, w, left, right => by
      cases v <;> simp only [same, Bool.false_eq_true] at left
      cases w <;> simp only [same, Bool.false_eq_true] at right
      exact Column.same_trans left right
  | .list _, v, w, left, right => by
      cases v <;> simp only [same, Bool.false_eq_true] at left
      cases w <;> simp only [same, Bool.false_eq_true] at right
      exact sameAll_trans left right
  -- the other kinds are compared by equality of what they hold
  | .bool _, v, w, left, right | .int _, v, w, left, right | .text _, v, w, left, right
  | .date _, v, w, left, right | .dateTime _, v, w, left, right
  | .parameter _, v, w, left, right | .query _ _, v, w, left, right
  | .group _ _, v, w, left, right => by
      cases v <;> simp only [same, Bool.false_eq_true] at left
      cases w <;> simp only [same, Bool.false_eq_true] at right
      simp only [same, beq_iff_eq] at left right ⊢
      exact left.trans right
termination_by structural value => value

/-- Equality of lists of values is transitive. -/
theorem sameAll_trans : ∀ {us vs ws : List Value},
    sameAll us vs = true → sameAll vs ws = true → sameAll us ws = true
  | [], vs, ws, left, right => by
      cases vs <;> simp only [sameAll, Bool.false_eq_true] at left
      cases ws <;> simp only [sameAll, Bool.false_eq_true] at right
      rfl
  | u :: us, vs, ws, left, right => by
      cases vs <;> simp only [sameAll, Bool.false_eq_true, Bool.and_eq_true] at left
      cases ws <;> simp only [sameAll, Bool.false_eq_true, Bool.and_eq_true] at right
      rw [sameAll, Bool.and_eq_true]
      exact ⟨same_trans left.1 right.1, sameAll_trans left.2 right.2⟩
termination_by structural values => values

end

theorem Agrees.refl (value : Value) : value.Agrees value :=
  Or.inl rfl

/-- What agrees with a value agrees with all that the value agrees with. -/
theorem Agrees.trans {u v w : Value} (left : u.Agrees v) (right : v.Agrees w) : u.Agrees w := by
  rcases left with rfl | left
  · exact right
  · rcases right with rfl | right
    · exact Or.inr left
    · exact Or.inr (same_trans left right)

end Value

namespace Binding

/-- The first list binds every name of the second, to values that agree with the first ones. -/
def Covers (own others : List Binding) : Prop :=
  ∀ name b, find? name others = some b →
    ∃ b', find? name own = some b' ∧ b'.value.Agrees b.value

/-- What is found first is among the bindings and has the name. -/
theorem mem_of_find? {name : String} {bindings : List Binding} {b : Binding}
    (found : find? name bindings = some b) : b ∈ bindings ∧ b.name = some name := by
  refine ⟨List.mem_of_find?_eq_some found, ?_⟩
  simpa using List.find?_some found

/-- Bindings that are added behind do not hide a binding. -/
theorem find?_append_left {name : String} {own : List Binding} {b : Binding}
    (more : List Binding) (found : find? name own = some b) :
    find? name (own ++ more) = some b := by
  unfold find? at found ⊢
  rw [List.find?_append, found]
  rfl

/-- A name that was unbound is bound by a binding that is added behind. -/
theorem find?_append_singleton {name : String} {own : List Binding} {b : Binding}
    (unbound : find? name own = none) (named : b.name = some name) :
    find? name (own ++ [b]) = some b := by
  unfold find? at unbound ⊢
  rw [List.find?_append, unbound]
  simp [named]

theorem Covers.trans {first second third : List Binding} (left : Covers first second)
    (right : Covers second third) : Covers first third := by
  intro name b found
  obtain ⟨b', found', agrees'⟩ := right name b found
  obtain ⟨b'', found'', agrees''⟩ := left name b' found'
  exact ⟨b'', found'', agrees''.trans agrees'⟩

/-- A list goes on covering when it grows. -/
theorem Covers.append {own others : List Binding} (more : List Binding)
    (covers : Covers own others) : Covers (own ++ more) others := by
  intro name b found
  obtain ⟨b', found', agrees⟩ := covers name b found
  exact ⟨b', find?_append_left more found', agrees⟩

/-! ## Taking over -/

/-- A binding that is taken over is bound afterwards, to a value that agrees with its own. -/
theorem takeOver_binds {own taken taken' : List Binding} {binding : Binding} {name : String}
    (done : takeOver own taken binding = .ok taken') (named : binding.name = some name) :
    ∃ b, find? name (own ++ taken') = some b ∧ b.value.Agrees binding.value := by
  unfold takeOver at done
  rw [named] at done
  cases earlier : find? name (own ++ taken) with
  | none =>
      simp only [earlier, Except.ok.injEq] at done
      subst done
      refine ⟨binding, ?_, .refl _⟩
      rw [← List.append_assoc]
      exact find?_append_singleton earlier named
  | some b =>
      simp only [earlier] at done
      split at done
      · next same =>
          cases done
          exact ⟨b, earlier, Or.inr same⟩
      · cases done

/-- Bindings are taken over at the end. -/
theorem takeOver_grows {own taken taken' : List Binding} {binding : Binding}
    (done : takeOver own taken binding = .ok taken') : taken <+: taken' := by
  unfold takeOver at done
  split at done
  · cases done
    exact List.prefix_append taken [binding]
  · split at done
    · cases done
      exact List.prefix_append taken [binding]
    · split at done
      · cases done
        exact List.prefix_rfl
      · cases done

/-- All bindings that are taken over one after the other are bound in the end. -/
theorem foldlM_takeOver_binds {own : List Binding} {bindings taken taken' : List Binding}
    (done : bindings.foldlM (takeOver own) taken = .ok taken') :
    taken <+: taken' ∧ ∀ binding ∈ bindings, ∀ name, binding.name = some name →
      ∃ b, find? name (own ++ taken') = some b ∧ b.value.Agrees binding.value := by
  induction bindings generalizing taken with
  | nil =>
      cases done
      exact ⟨List.prefix_rfl, fun binding mem => by cases mem⟩
  | cons first rest ih =>
      rw [List.foldlM_cons] at done
      obtain ⟨between, head, tail⟩ := Outcome.except_bind_ok done
      obtain ⟨grows, binds⟩ := ih tail
      refine ⟨(takeOver_grows head).trans grows, ?_⟩
      intro binding mem name named
      rcases List.mem_cons.mp mem with rfl | mem
      · obtain ⟨b, found, agrees⟩ := takeOver_binds head named
        obtain ⟨more, rfl⟩ := grows
        refine ⟨b, ?_, agrees⟩
        rw [← List.append_assoc]
        exact find?_append_left more found
      · exact binds binding mem name named

/-- Own bindings with those taken over cover the bindings of every nested statement. -/
theorem merge_covers {own taken : List Binding} {nested : List Statement} {inner : Statement}
    (done : merge own nested = .ok taken) (mem : inner ∈ nested) :
    Covers (own ++ taken) inner.bindings := by
  intro name b found
  obtain ⟨inBindings, named⟩ := mem_of_find? found
  exact (foldlM_takeOver_binds done).2 b
    (List.mem_flatMap.mpr ⟨inner, mem, inBindings⟩) name named

end Binding

/-! ## Statements that cover what they nest -/

namespace Statement

variable {rule : List Assignment → Prop} {Given : Statement → Prop} {s s' : Statement}

theorem mem_values_of_row {row : List Value} {value : Value} (inRows : row ∈ s.rows)
    (mem : value ∈ row) : value ∈ s.values := by
  have flat : value ∈ s.rows.flatten := List.mem_flatten.mpr ⟨row, inRows, mem⟩
  simp [values, flat]

/-- What a change does to bindings and to what is stored directly. -/
def Nests (Given : Statement → Prop) (s s' : Statement) : Prop :=
  s.bindings <+: s'.bindings ∧ ∀ inner, s'.Stores inner →
    s.Stores inner ∨ Given inner ∧ Binding.Covers s'.bindings inner.bindings

/-- A change that leaves values and members alone nests nothing. -/
theorem nests_of_values_eq (bindings : s.bindings <+: s'.bindings) (values : s'.values = s.values)
    (members : s'.memberStatements = s.memberStatements) : Nests Given s s' := by
  refine ⟨bindings, fun inner stores => Or.inl ?_⟩
  unfold Stores at stores ⊢
  rwa [values, members] at stores

/-- What is nested by tracked values is given, and its bindings are taken over. -/
theorem nests_of_tracks {added : List Value} {names : List String} {taken : List Binding}
    (tracks : s.Tracks added names taken) (given : ∀ value ∈ added, value.HoldsOnly Given)
    (bindings : s'.bindings = s.bindings ++ taken)
    (members : s'.memberStatements = s.memberStatements)
    (stored : ∀ value ∈ s'.values, value ∈ s.values ∨
      ∃ source ∈ added, ∀ inner, value.Holds inner → source.Holds inner) : Nests Given s s' := by
  refine ⟨bindings ▸ List.prefix_append _ _, fun inner stores => ?_⟩
  rcases stores with ⟨value, mem, holds⟩ | mem
  · rcases stored value mem with old | ⟨source, inAdded, kept⟩
    · exact Or.inl (Or.inl ⟨value, old, holds⟩)
    · have held := kept inner holds
      refine Or.inr ⟨given source inAdded inner held, ?_⟩
      rw [bindings]
      exact Binding.merge_covers tracks.taken
        ((Value.mem_nestedInAll added).mpr ⟨source, inAdded, held⟩)
  · rw [members] at mem
    exact Or.inl (Or.inr mem)

/-- Values that come in behind the old ones are their own sources. -/
theorem sources_of_perm {added : List Value} (stored : s'.values.Perm (s.values ++ added)) :
    ∀ value ∈ s'.values, value ∈ s.values ∨
      ∃ source ∈ added, ∀ inner, value.Holds inner → source.Holds inner := by
  intro value mem
  rcases List.mem_append.mp (stored.subset mem) with old | new
  · exact Or.inl old
  · exact Or.inr ⟨value, new, fun _ holds => holds⟩

theorem nests_extendRow {value : Value} (given : value.HoldsOnly Given)
    (done : s.extendRow value = .ok s') : Nests Given s s' := by
  obtain ⟨last, replaced, names, taken, found, -, tracks, result⟩ := extendRow_ok done
  have stored := values_extendRow found done
  have lastInRows : last ∈ s.rows := List.mem_of_getLast? found
  subst result
  refine nests_of_tracks tracks (by simpa using given) rfl rfl fun v mem => ?_
  rcases List.mem_append.mp (stored.subset (List.mem_append_left last mem)) with old | new
  · exact Or.inl old
  · cases value with
    | list fields =>
        exact Or.inr ⟨.list fields, List.mem_singleton_self _, fun _ holds => .item new holds⟩
    | _ =>
        rcases List.mem_append.mp new with kept | isValue
        · exact Or.inl (mem_values_of_row lastInRows kept)
        · refine Or.inr ⟨_, List.mem_singleton_self _, fun inner holds => ?_⟩
          rwa [List.mem_singleton.mp isValue] at holds

theorem nests_assign {assignments : List Assignment}
    (given : ∀ a ∈ assignments, a.value.HoldsOnly Given)
    (done : s.assign assignments = .ok s') : Nests Given s s' := by
  obtain ⟨replaced, names, taken, -, tracks, rfl⟩ := assign_ok done
  refine nests_of_tracks tracks ?_ rfl rfl fun v mem => ?_
  · intro value mem
    obtain ⟨a, inAssignments, rfl⟩ := List.mem_map.mp mem
    exact given a inAssignments
  · rcases List.mem_append.mp mem with other | assigned
    · exact Or.inl (List.mem_append_left _ other)
    · obtain ⟨a, inStored, rfl⟩ := List.mem_map.mp assigned
      rcases Keyed.mem_foldl_upsert Assignment.key a assignments s.assignments inStored with
        new | old
      · exact Or.inr ⟨a.value, List.mem_map_of_mem new, fun _ holds => holds⟩
      · exact Or.inl (List.mem_append_right _ (List.mem_map_of_mem old))

/-- Every change keeps the bindings and covers what it nests. -/
theorem Change.nests (change : Change rule Given s s') : Nests Given s s' := by
  cases change with
  | header h config markers => exact nests_of_values_eq List.prefix_rfl rfl rfl
  | bind bindings => exact nests_of_values_eq (List.prefix_append _ _) rfl rfl
  | conditions predicates given done =>
      have stored := values_addPredicates done
      obtain ⟨names, taken, tracks, result⟩ := addPredicates_ok done
      subst result
      refine nests_of_tracks tracks ?_ rfl rfl (sources_of_perm stored)
      intro value mem
      obtain ⟨p, inPredicates, rfl⟩ := List.mem_map.mp mem
      exact given p inPredicates
  | join kind table done =>
      have values := values_addJoin done
      have result := addJoin_ok done
      subst result
      exact nests_of_values_eq List.prefix_rfl values rfl
  | attach index p valid given done =>
      have stored := values_attach valid done
      obtain ⟨names, taken, tracks, result⟩ := attach_ok done
      subst result
      exact nests_of_tracks tracks (by simpa using given) rfl rfl (sources_of_perm stored)
  | row row given done =>
      have stored := values_addRow done
      obtain ⟨names, taken, tracks, result⟩ := addRow_ok done
      subst result
      exact nests_of_tracks tracks given rfl rfl (sources_of_perm stored)
  | extend value given done => exact nests_extendRow given done
  | assign assignments obeys given done => exact nests_assign given done
  | member all inner given done =>
      obtain ⟨values, members⟩ := memberStatements_addMember done
      obtain ⟨taken, merged, result⟩ := addMember_ok done
      have bindings : s'.bindings = s.bindings ++ taken := by rw [result]
      refine ⟨bindings ▸ List.prefix_append _ _, fun other stores => ?_⟩
      unfold Stores at stores ⊢
      rw [values, members] at stores
      rcases stores with old | mem
      · exact Or.inl (Or.inl old)
      · rcases List.mem_append.mp mem with old | new
        · exact Or.inl (Or.inr old)
        · refine Or.inr ?_
          rw [List.mem_singleton.mp new, bindings]
          exact ⟨given, Binding.merge_covers merged (List.mem_singleton_self inner)⟩

/-- A reachable statement covers the bindings of what it stores, which is reachable too. -/
theorem ReachableBy.covers_stored (reach : ReachableBy rule s) :
    ∀ inner, s.Stores inner →
      ReachableBy rule inner ∧ Binding.Covers s.bindings inner.bindings := by
  refine invariant (P := fun s => ∀ inner, s.Stores inner →
    ReachableBy rule inner ∧ Binding.Covers s.bindings inner.bindings) ?_ ?_ ?_ reach
  · intro config inner stores
    exact absurd stores (not_stores_statement config inner)
  · intro config inner stores
    exact absurd stores (not_stores_selection config inner)
  · intro s s' covered change inner stores
    obtain ⟨grows, nests⟩ := change.nests
    rcases nests inner stores with old | ⟨⟨reach, -⟩, covers⟩
    · obtain ⟨reach, covers⟩ := covered inner old
      obtain ⟨more, bindings⟩ := grows
      rw [← bindings]
      exact ⟨reach, covers.append more⟩
    · exact ⟨reach, covers⟩

/-- The same holds at every depth. -/
theorem ReachableBy.covers_within (reach : ReachableBy rule s) {inner : Statement}
    (within : inner.Within s) :
    ReachableBy rule inner ∧ Binding.Covers s.bindings inner.bindings := by
  induction within with
  | single stores => exact covers_stored reach _ stores
  | tail _ stores ih =>
      obtain ⟨reachInner, covers⟩ := covers_stored ih.1 _ stores
      exact ⟨reachInner, ih.2.trans covers⟩

/-- Changes one after the other add bindings at the end only. -/
theorem Changes.bindings_grow (changes : Changes rule Given s s') :
    s.bindings <+: s'.bindings := by
  induction changes with
  | refl => exact List.prefix_rfl
  | tail _ change ih => exact ih.trans change.nests.1

end Statement

/-! ## Bindings along runs of calls -/

namespace Call

/-- A call adds bindings at the end only, whatever becomes of it. -/
theorem bindings_grow (c : Call) : c.run.Moves fun s s' => s.bindings <+: s'.bindings := by
  intro session
  by_cases plain : c.isGroup = false
  · have obeys : c.Obeys (fun _ => True) session := by
      cases c <;> simp [Obeys]
    have changes : Statement.Changes (fun _ => True) (fun _ => True) session.statement
        (c.run.after session).statement :=
      changes_run plain obeys (fun _ _ _ _ => trivial) fun _ _ => trivial
    exact changes.bindings_grow
  · cases c with
    | group tag connective tolerant body =>
        unfold run Build.done
        rw [Build.after_bind_pure]
        rcases Build.after_groupOf tag connective (runAll tolerant body) session with
          same | ⟨built, -, went⟩
        · exact ⟨[], by rw [same, List.append_nil]⟩
        · have goes : Build.Goes (fun _ => True) (fun _ => True)
              (Build.group tag connective built.statement) := Build.goes_group trivial
          rw [went]
          exact (goes { session with trace := built.trace }).bindings_grow
    | _ => exact absurd rfl plain

/-- A run of calls adds bindings at the end only. -/
theorem bindings_grow_runAll (tolerant : Bool) (cs : List Call) :
    (runAll tolerant cs).Moves fun s s' => s.bindings <+: s'.bindings :=
  moves_runAll (R := fun s s' => s.bindings <+: s'.bindings) (fun _ => List.prefix_rfl)
    List.IsPrefix.trans tolerant fun c _ => bindings_grow c

end Call

end SqlBuilder
