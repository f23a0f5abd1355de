import VersionStore.Query.Dsl.Reading

/-! What a query means to an engine that knows only its body.

A filter and the condition made from it hold of the same documents, however the filter is
nested and whatever its fields and values are called (`holds?_toDsl`). And a body says all that
its query says, so no two queries have one body (`toDsl_faithful`). -/
namespace VersionStore

open Json (Value)

/-- At least one condition holds where some condition does. -/
theorem Dsl.clause?_should (answers : List Bool) :
    clause? (some 1) "should" answers = some (answers.any id) := by
  have hcount : decide (1 ≤ answers.countP id) = answers.any id := by
    rw [Bool.eq_iff_iff, decide_eq_true_iff, Nat.one_le_iff_ne_zero, ← Nat.pos_iff_ne_zero,
      List.countP_pos_iff, List.any_eq_true]
  simp only [clause?, Option.map_some, hcount]
  rfl

namespace Filter

variable (document : Value)

mutual

/-- A condition holds of the documents that its filter accepts. -/
theorem holds?_toDsl : (f : Filter) → Dsl.holds? document f.toDsl = some (f.accepts document)
  | .term field value => by
    simp only [toDsl, Dsl.holds?, Dsl.term?, accepts, if_true]
    cases document.member? field <;> rfl
  | .start field text => by
    simp [toDsl, Dsl.holds?, Dsl.prefixed?, accepts]
    cases (document.member? field).bind Value.string? <;> rfl
  | .all [] => by simp [toDsl, Dsl.holds?, accepts, acceptsAll]
  | .all (f :: rest) => by
    have hanswers := answersFrom?_toDsls (f :: rest)
    rw [toDsls] at hanswers
    simp [toDsl, Dsl.holds?, Dsl.allClauses?, Dsl.clausesFrom?, Dsl.answers?, hanswers,
      Dsl.clause?, accepts, acceptsAll_eq]
  | .any [] => by simp [toDsl, Dsl.holds?, accepts, acceptsAny]
  | .any (f :: rest) => by
    have hanswers := answersFrom?_toDsls (f :: rest)
    rw [toDsls] at hanswers
    simp [toDsl, Dsl.holds?, Dsl.allClauses?, Dsl.clausesFrom?, Dsl.answers?, hanswers,
      Dsl.clause?_should, Dsl.least?, Table.get?, accepts, acceptsAny_eq, Value.integer]
  | .not f => by
    have hanswer := holds?_toDsl f
    simp [toDsl, Dsl.holds?, Dsl.allClauses?, Dsl.clausesFrom?, Dsl.answers?, Dsl.answersFrom?,
      hanswer, Dsl.clause?, accepts]

theorem answersFrom?_toDsls :
    (filters : List Filter) →
      Dsl.answersFrom? document (toDsls filters) = some (filters.map (accepts document))
  | [] => rfl
  | f :: rest => by
    simp [toDsls, Dsl.answersFrom?, holds?_toDsl f, answersFrom?_toDsls rest]

end

mutual

/-- A condition says which filter it was made from. -/
theorem ofDsl?_toDsl : (f : Filter) → ofDsl? f.toDsl = some f
  | .term field value => by simp [toDsl, ofDsl?, ofTerm?]
  | .start field text => by simp [toDsl, ofDsl?, ofPrefix?]
  | .all [] => by simp [toDsl, ofDsl?]
  | .all (f :: rest) => by
    have hfilters := ofDsls?_toDsls (f :: rest)
    rw [toDsls] at hfilters
    simp [toDsl, ofDsl?, ofClauses?, ofConditions?, hfilters]
  | .any [] => by simp [toDsl, ofDsl?]
  | .any (f :: rest) => by
    have hfilters := ofDsls?_toDsls (f :: rest)
    rw [toDsls] at hfilters
    simp [toDsl, ofDsl?, ofClauses?, ofConditions?, hfilters]
  | .not f => by
    simp [toDsl, ofDsl?, ofClauses?, ofConditions?, ofDsls?, ofDsl?_toDsl f]

theorem ofDsls?_toDsls : (filters : List Filter) → ofDsls? (toDsls filters) = some filters
  | [] => rfl
  | f :: rest => by simp [toDsls, ofDsls?, ofDsl?_toDsl f, ofDsls?_toDsls rest]

end

end Filter

/-- The name of a direction says which direction it is. -/
theorem SortOrder.ofDsl?_name (order : SortOrder) : ofDsl? (.string order.name) = some order := by
  cases order <;> rfl

/-- A part of the sort says which key it was made from. -/
theorem SortKey.ofDsl?_toDsl (key : SortKey) : ofDsl? key.toDsl = some key := by
  simp [toDsl, ofDsl?, Value.member?, Table.get?, SortOrder.ofDsl?_name]

/-- The sort says which keys it was made from, and in which order. -/
theorem SortKey.ofDsls?_toDsl (keys : List SortKey) :
    ofDsls? (.array (keys.map toDsl)) = some keys := by
  induction keys with
  | nil => rfl
  | cons key rest ih =>
    rw [ofDsls?] at ih ⊢
    rw [List.map_cons, List.mapM_cons, ofDsl?_toDsl, ih]
    rfl

namespace Query

theorem filter_toDsl (query : Query) :
    query.toDsl.member? "query" = some query.filter.toDsl := by
  simp [toDsl, Value.member?, Table.get?]

theorem sort_toDsl (query : Query) :
    (query.toDsl.member? "sort").bind SortKey.ofDsls? = some query.sort := by
  have hsort : query.toDsl.member? "sort" = some (.array (query.sort.map SortKey.toDsl)) := by
    simp [toDsl, Value.member?, Table.get?]
  rw [hsort, Option.bind_some, SortKey.ofDsls?_toDsl]

theorem size_toDsl (query : Query) :
    (query.toDsl.member? "size").bind Dsl.size? = some query.limit.toNat := by
  have hsize : query.toDsl.member? "size" = some (.integer query.limit.toNat) := by
    simp [toDsl, Value.member?, Table.get?]
  rw [hsize]
  rfl

/-- A body says which query it was made from. -/
theorem ofDsl?_toDsl (query : Query) : ofDsl? query.toDsl = some query := by
  simp [ofDsl?, filter_toDsl, sort_toDsl, size_toDsl, Filter.ofDsl?_toDsl]

/-- The translation of queries keeps their meaning: an engine finds a document through the
condition made from a filter where the filter accepts it, and filter, sort keys and limit can
all be read off the body, whatever characters stand in fields and values. -/
theorem toDsl_faithful :
    (∀ (filter : Filter) (document : Value),
      Dsl.holds? document filter.toDsl = some (filter.accepts document)) ∧
    (∀ query : Query, ofDsl? query.toDsl = some query) ∧
    (∀ first second : Query, first.toDsl = second.toDsl → first = second) := by
  refine ⟨fun filter document => filter.holds?_toDsl document, ofDsl?_toDsl, ?_⟩
  intro first second hbody
  have hread : some first = some second := by
    rw [← ofDsl?_toDsl first, hbody, ofDsl?_toDsl]
  exact Option.some.inj hread

end Query

end VersionStore
