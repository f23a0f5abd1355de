import VersionStore.Proofs.Json.Layout
import VersionStore.Engine.Memory
import VersionStore.Query.Dsl

/-! Which values are read as queries.

`Filter.Spells` and `Query.Spells` say how a value spells a filter or a query, whether its
structures are objects or arrays. Exactly these values are read (`Query.ofForm_eq_ok_iff`),
and the form that a query is written in is one of them. -/
namespace VersionStore

open Json (Value Pair)

namespace Filter

mutual

/-- Whether a value spells a filter; `positional` allows arrays for the fields of tests. -/
inductive Spells (positional : Bool) : Value → Filter → Prop
  | term {body value : Value} {field : String}
    (test : Pair positional "field" "value" (.string field) value body) :
    Spells positional (.object [("term", body)]) (.term field value)
  | start {body : Value} {field text : String}
    (test : Pair positional "field" "value" (.string field) (.string text) body) :
    Spells positional (.object [("prefix", body)]) (.start field text)
  | all {items : List Value} {filters : List Filter} (each : SpellEach positional items filters) :
    Spells positional (.object [("and", .array items)]) (.all filters)
  | any {items : List Value} {filters : List Filter} (each : SpellEach positional items filters) :
    Spells positional (.object [("or", .array items)]) (.any filters)
  | not {body : Value} {filter : Filter} (spells : Spells positional body filter) :
    Spells positional (.object [("not", body)]) (.not filter)

/-- Whether values spell filters, one by one. -/
inductive SpellEach (positional : Bool) : List Value → List Filter → Prop
  | nil : SpellEach positional [] []
  | cons {v : Value} {filter : Filter} {items : List Value} {filters : List Filter}
    (first : Spells positional v filter) (rest : SpellEach positional items filters) :
    SpellEach positional (v :: items) (filter :: filters)

end

variable {positional : Bool}

/-! ### Tests -/

theorem readTest_eq_read {α : Type} {layout : Json.Layout α} {v : Value} {a : α} :
    readTest positional layout v = .ok a ↔
      layout.read false v = .ok a ∧ (positional = true ∨ ∃ members, v = .object members) := by
  cases v with
  | object members => simp [readTest]
  | _ => cases positional <;> simp [readTest]

/-- The fields of a term. -/
theorem readTest_term_iff {body value : Value} {field : String} (htidy : body.IsTidy) :
    readTest positional termLayout body = .ok (field, value) ↔
      Pair positional "field" "value" (.string field) value body := by
  rw [readTest_eq_read, Json.pair_iff, termLayout, Json.Layout.read_pair_iff htidy]
  simp [Value.asString_eq_ok_iff]

/-- The fields of a test for a beginning. -/
theorem readTest_start_iff {body : Value} {field text : String} (htidy : body.IsTidy) :
    readTest positional startLayout body = .ok (field, text) ↔
      Pair positional "field" "value" (.string field) (.string text) body := by
  rw [readTest_eq_read, Json.pair_iff, startLayout, Json.Layout.read_pair_iff htidy]
  simp [Value.asString_eq_ok_iff]

/-! ### Filters -/

mutual

/-- What is read as a filter spells it. -/
theorem spells_of_ofForm {filter : Filter} :
    (v : Value) → v.IsOrdered → ofForm positional v = .ok filter → Spells positional v filter
  | .object [(kind, body)], hordered, h => by
    have hbody : body.IsOrdered := hordered.2.1
    unfold ofForm at h
    split at h
    · next hkind =>
      obtain ⟨⟨field, value⟩, hread, rfl⟩ := Json.map_eq_ok_iff.mp h
      rw [hkind]
      exact .term ((readTest_term_iff hbody.isTidy).mp hread)
    split at h
    · next hkind =>
      obtain ⟨⟨field, text⟩, hread, rfl⟩ := Json.map_eq_ok_iff.mp h
      rw [hkind]
      exact .start ((readTest_start_iff hbody.isTidy).mp hread)
    split at h
    · next hkind =>
      obtain ⟨filters, hread, rfl⟩ := Json.map_eq_ok_iff.mp h
      obtain ⟨items, rfl, heach⟩ := spellEach_of_ofArray body hbody hread
      rw [hkind]
      exact .all heach
    split at h
    · next hkind =>
      obtain ⟨filters, hread, rfl⟩ := Json.map_eq_ok_iff.mp h
      obtain ⟨items, rfl, heach⟩ := spellEach_of_ofArray body hbody hread
      rw [hkind]
      exact .any heach
    split at h
    · next hkind =>
      obtain ⟨inner, hread, rfl⟩ := Json.map_eq_ok_iff.mp h
      rw [hkind]
      exact .not (spells_of_ofForm body hbody hread)
    · cases h

theorem spellEach_of_ofArray {filters : List Filter} :
    (v : Value) → v.IsOrdered → ofArray positional v = .ok filters →
      ∃ items, v = .array items ∧ SpellEach positional items filters
  | .array items, hordered, h => ⟨items, rfl, spellEach_of_ofForms items hordered h⟩

theorem spellEach_of_ofForms {filters : List Filter} :
    (items : List Value) → Value.AreOrdered items → ofForms positional items = .ok filters →
      SpellEach positional items filters
  | [], _, h => by
    cases h
    exact .nil
  | v :: rest, hordered, h => by
    obtain ⟨filter, hfilter, h⟩ := Json.Fields.exists_of_bind h
    obtain ⟨others, hothers, h⟩ := Json.Fields.exists_of_bind h
    cases h
    exact .cons (spells_of_ofForm v hordered.1 hfilter)
      (spellEach_of_ofForms rest hordered.2 hothers)

end

mutual

/-- What spells a filter is read as that filter. -/
theorem ofForm_of_spells {v : Value} :
    (filter : Filter) → Spells positional v filter → ofForm positional v = .ok filter
  | .term field value, .term test => by
    rw [ofForm, if_pos rfl, (readTest_term_iff test.isTidy).mpr test]
    rfl
  | .start field text, .start test => by
    rw [ofForm, if_neg (by decide), if_pos rfl, (readTest_start_iff test.isTidy).mpr test]
    rfl
  | .all filters, .all each => by
    rw [ofForm, if_neg (by decide), if_neg (by decide), if_pos rfl, ofArray,
      ofForms_of_spellEach filters each]
    rfl
  | .any filters, .any each => by
    rw [ofForm, if_neg (by decide), if_neg (by decide), if_neg (by decide), if_pos rfl, ofArray,
      ofForms_of_spellEach filters each]
    rfl
  | .not filter, .not spells => by
    rw [ofForm, if_neg (by decide), if_neg (by decide), if_neg (by decide), if_neg (by decide),
      if_pos rfl, ofForm_of_spells filter spells]
    rfl

theorem ofForms_of_spellEach {items : List Value} :
    (filters : List Filter) → SpellEach positional items filters →
      ofForms positional items = .ok filters
  | [], .nil => rfl
  | filter :: rest, .cons hfirst hrest => by
    rw [ofForms, ofForm_of_spells filter hfirst, ofForms_of_spellEach rest hrest]
    rfl

end

mutual

/-- The form of a filter spells it. -/
theorem spells_toValue (positional : Bool) :
    (filter : Filter) → Spells positional filter.toValue filter
  | .term field value => .term (Pair.of_object positional _ _ (by decide))
  | .start field text => .start (Pair.of_object positional _ _ (by decide))
  | .all filters => .all (spellEach_toValues positional filters)
  | .any filters => .any (spellEach_toValues positional filters)
  | .not filter => .not (spells_toValue positional filter)

theorem spellEach_toValues (positional : Bool) :
    (filters : List Filter) → SpellEach positional (toValues filters) filters
  | [] => .nil
  | filter :: rest => .cons (spells_toValue positional filter) (spellEach_toValues positional rest)

end

/-- A filter is read back as it was written. -/
theorem ofForm_toValue (positional : Bool) (filter : Filter) :
    ofForm positional filter.toValue = .ok filter :=
  ofForm_of_spells filter (spells_toValue positional filter)

end Filter

/-! ### Sort keys -/

/-- Whether a value spells a direction: by its name, alone or as the key of a null. -/
inductive SortOrder.Spells : Value → SortOrder → Prop
  | name {order : SortOrder} : Spells (.string order.name) order
  | key {order : SortOrder} : Spells (.object [(order.name, .null)]) order

/-- Whether a value spells a sort key. -/
inductive SortKey.Spells : Value → SortKey → Prop
  | fields {v direction : Value} {key : SortKey}
    (fields : Pair true "field" "order" (.string key.field) direction v)
    (order : key.order.Spells direction) : Spells v key

namespace SortOrder

theorem ofName_eq_ok_iff {name : String} {order : SortOrder} :
    ofName name = .ok order ↔ name = order.name := by
  unfold ofName
  split
  · next h => cases order <;> simp [h, SortOrder.name]
  · split
    · next h => cases order <;> simp [h, SortOrder.name]
    · next hasc hdesc => cases order <;> simp [hasc, hdesc, SortOrder.name]

theorem ofValue_eq_ok_iff {v : Value} {order : SortOrder} :
    ofValue v = .ok order ↔ order.Spells v := by
  constructor
  · intro h
    unfold ofValue at h
    split at h
    · obtain rfl := ofName_eq_ok_iff.mp h
      exact .name
    · next name body =>
      obtain ⟨found, hname, hbody⟩ := Json.Fields.exists_of_bind h
      obtain rfl := ofName_eq_ok_iff.mp hname
      cases body with
      | null =>
        cases hbody
        exact .key
      | _ => cases hbody
    · cases h
    · cases h
  · have hname : ofName order.name = .ok order := ofName_eq_ok_iff.mpr rfl
    rintro (_ | _)
    · exact hname
    · rw [ofValue, hname]
      rfl

end SortOrder

namespace SortKey

theorem ofValue_eq_ok_iff {v : Value} {key : SortKey} (htidy : v.IsTidy) :
    ofValue v = .ok key ↔ key.Spells v := by
  unfold ofValue
  rw [Json.map_eq_ok_iff]
  constructor
  · rintro ⟨⟨field, order⟩, hread, rfl⟩
    obtain ⟨x, direction, hfields, hfield, horder⟩ := (Json.Layout.read_pair_iff htidy).mp hread
    obtain rfl := Value.asString_eq_ok_iff.mp hfield
    exact ⟨hfields, SortOrder.ofValue_eq_ok_iff.mp horder⟩
  · rintro ⟨hfields, horder⟩
    refine ⟨(key.field, key.order), (Json.Layout.read_pair_iff htidy).mpr ?_, rfl⟩
    exact ⟨_, _, hfields, rfl, SortOrder.ofValue_eq_ok_iff.mpr horder⟩

theorem Spells.isTidy {v : Value} {key : SortKey} (h : key.Spells v) : v.IsTidy := by
  obtain ⟨hfields, -⟩ := h
  exact hfields.isTidy

theorem spells_toValue (key : SortKey) : key.Spells key.toValue :=
  .fields (Pair.of_object true _ _ (by decide)) .name

end SortKey

/-! ### Queries -/

namespace Query

/-- Whether three values spell the parts of a query. -/
structure SpellParts (positional : Bool) (filter sort limit : Value) (query : Query) : Prop where
  filter : Filter.Spells positional filter query.filter
  sort : ∃ keys, sort = .array keys ∧ List.Forall₂ SortKey.Spells keys query.sort
  limit : limit = .integer query.limit.toNat

/-- Whether a value spells a query; `positional` is for its filter. -/
inductive Spells (positional : Bool) : Value → Query → Prop
  | members {members : Table Value} {filter sort limit : Value} {query : Query}
    (sorted : Table.Sorted members) (atFilter : members.get? "filter" = some filter)
    (atSort : members.get? "sort" = some sort) (atLimit : members.get? "limit" = some limit)
    (parts : SpellParts positional filter sort limit query) :
    Spells positional (.object members) query
  | items {filter sort limit : Value} {query : Query}
    (parts : SpellParts positional filter sort limit query) :
    Spells positional (.array [filter, sort, limit]) query

variable {positional : Bool} {query : Query}

/-- Values that are read as sort keys spell them. -/
theorem spells_of_read {keys : List Value} {sort : List SortKey} (hordered : Value.AreOrdered keys)
    (h : List.Forall₂ (fun v key => SortKey.ofValue v = .ok key) keys sort) :
    List.Forall₂ SortKey.Spells keys sort := by
  induction h with
  | nil => exact .nil
  | cons hfirst _ ih =>
    exact .cons ((SortKey.ofValue_eq_ok_iff hordered.1.isTidy).mp hfirst) (ih hordered.2)

/-- The parts of a query are read one by one. -/
theorem SpellParts.read {filter sort limit : Value}
    (h : SpellParts positional filter sort limit query) :
    Filter.ofForm positional filter = .ok query.filter ∧
      sort.asList SortKey.ofValue = .ok query.sort ∧
        limit.asUnsigned "usize" = .ok query.limit := by
  obtain ⟨hfilter, ⟨keys, hsort, hkeys⟩, hlimit⟩ := h
  refine ⟨Filter.ofForm_of_spells _ hfilter, Value.asList_eq_ok_iff.mpr ⟨keys, hsort, ?_⟩,
    Value.asUnsigned_eq_ok_iff.mpr hlimit⟩
  exact hkeys.imp fun v key hkey => (SortKey.ofValue_eq_ok_iff hkey.isTidy).mpr hkey

theorem spellParts_of_read {filter sort limit : Value} (hfilter : filter.IsOrdered)
    (hsort : sort.IsOrdered) (hreadFilter : Filter.ofForm positional filter = .ok query.filter)
    (hreadSort : sort.asList SortKey.ofValue = .ok query.sort)
    (hreadLimit : limit.asUnsigned "usize" = .ok query.limit) :
    SpellParts positional filter sort limit query := by
  obtain ⟨keys, rfl, hkeys⟩ := Value.asList_eq_ok_iff.mp hreadSort
  exact ⟨Filter.spells_of_ofForm filter hfilter hreadFilter, ⟨keys, rfl, spells_of_read hsort hkeys⟩,
    Value.asUnsigned_eq_ok_iff.mp hreadLimit⟩

/-- What the layout of a query finds is the query. -/
theorem ofForm_eq_ok_iff_read {v : Value} :
    ofForm positional v = .ok query ↔
      (layout positional).read false v = .ok (query.filter, query.sort, query.limit) := by
  unfold ofForm
  rw [Json.map_eq_ok_iff]
  constructor
  · rintro ⟨⟨filter, sort, limit⟩, hread, rfl⟩
    exact hread
  · exact fun hread => ⟨_, hread, rfl⟩

/-- What is read as a query spells it. -/
theorem spells_of_ofForm {v : Value} (hordered : v.IsOrdered)
    (h : ofForm positional v = .ok query) : Spells positional v query := by
  rw [ofForm_eq_ok_iff_read] at h
  cases v with
  | object members =>
    obtain ⟨hsorted, hmembers⟩ := hordered
    rw [Json.Layout.read_object_iff rfl hsorted] at h
    simp only [layout, Json.Fields.collect_cons_eq_ok_iff, Json.Fields.collect_one,
      Json.Fields.pick_eq_ok_iff] at h
    obtain ⟨⟨filter, hfilter, hf⟩, ⟨sort, hsort, hs⟩, limit, hlimit, hl⟩ := h
    refine .members hsorted hfilter hsort hlimit (spellParts_of_read ?_ ?_ hf hs hl)
    · exact hmembers.of_mem (Table.mem_of_get? hfilter)
    · exact hmembers.of_mem (Table.mem_of_get? hsort)
  | array items =>
    rw [Json.Layout.read_array_iff] at h
    simp only [layout, Json.Fields.ofItems_cons_eq_ok_iff, Json.Fields.ofItems_one_eq_ok_iff] at h
    obtain ⟨filter, _, rfl, hf, sort, _, rfl, hs, limit, rfl, hl⟩ := h
    exact .items (spellParts_of_read hordered.1 hordered.2.1 hf hs hl)
  | null | boolean | number | string => cases h

/-- What spells a query is read as that query. -/
theorem ofForm_of_spells {v : Value} (h : Spells positional v query) :
    ofForm positional v = .ok query := by
  rw [ofForm_eq_ok_iff_read]
  cases h with
  | members sorted atFilter atSort atLimit parts =>
    obtain ⟨hfilter, hsort, hlimit⟩ := parts.read
    rw [Json.Layout.read_object_iff rfl sorted]
    simp only [layout, Json.Fields.collect_cons_eq_ok_iff, Json.Fields.collect_one,
      Json.Fields.pick_eq_ok_iff]
    exact ⟨⟨_, atFilter, hfilter⟩, ⟨_, atSort, hsort⟩, _, atLimit, hlimit⟩
  | items parts =>
    obtain ⟨hfilter, hsort, hlimit⟩ := parts.read
    rw [Json.Layout.read_array_iff]
    simp only [layout, Json.Fields.ofItems_cons_eq_ok_iff, Json.Fields.ofItems_one_eq_ok_iff]
    exact ⟨_, _, rfl, hfilter, _, _, rfl, hsort, _, rfl, hlimit⟩

/-- A value is read as a query exactly if it spells it. -/
theorem ofForm_eq_ok_iff {v : Value} (hordered : v.IsOrdered) :
    ofForm positional v = .ok query ↔ Spells positional v query :=
  ⟨spells_of_ofForm hordered, ofForm_of_spells⟩

/-- The form of a query spells it. -/
theorem spells_toValue (positional : Bool) (query : Query) :
    Spells positional query.toValue query := by
  have hkeys : ["filter", "limit", "sort"].Pairwise (· < ·) := by decide
  refine .members (List.pairwise_map.mp hkeys) rfl rfl rfl
    ⟨Filter.spells_toValue positional query.filter, ⟨_, rfl, ?_⟩, rfl⟩
  exact List.forall₂_map_left_iff.mpr
    (List.forall₂_same.mpr fun key _ => key.spells_toValue)

/-- A query is read back as it was written. -/
theorem ofForm_toValue (positional : Bool) (query : Query) :
    ofForm positional query.toValue = .ok query :=
  ofForm_of_spells (query.spells_toValue positional)

/-- The form in which a query is written that a value spells in any form. -/
def canonical? (positional : Bool) (v : Value) : Json.Decoded Value :=
  (ofForm positional v).map toValue

/-- Filters and queries survive being written and read. A value is read as a query exactly if
it spells it, be it by objects or by arrays; what it is then written as is read as the same
query, so it selects the same documents and has the same body, and is written as it stands.
Two queries are never written alike. -/
theorem form_read_back :
    (∀ (positional : Bool) (filter : Filter),
      Filter.ofForm positional filter.toValue = .ok filter) ∧
    (∀ (positional : Bool) (query : Query), ofForm positional query.toValue = .ok query) ∧
    (∀ (positional : Bool) (v : Value) (query : Query), v.IsOrdered →
      (ofForm positional v = .ok query ↔ Spells positional v query)) ∧
    (∀ (positional : Bool) (v w : Value), canonical? positional v = .ok w →
      canonical? false w = .ok w ∧
        ∃ query again : Query, ofForm positional v = .ok query ∧ ofForm false w = .ok again ∧
          again = query ∧ again.toDsl = query.toDsl ∧
            ∀ documents, again.select documents = query.select documents) ∧
    (∀ first second : Query, first.toValue = second.toValue → first = second) := by
  refine ⟨Filter.ofForm_toValue, ofForm_toValue, ?_, ?_, ?_⟩
  · exact fun positional v query hordered => ofForm_eq_ok_iff hordered
  · intro positional v w h
    obtain ⟨query, hread, rfl⟩ := Json.map_eq_ok_iff.mp h
    have hagain := query.ofForm_toValue false
    exact ⟨Json.map_eq_ok_iff.mpr ⟨query, hagain, rfl⟩, query, query, hread, hagain, rfl, rfl,
      fun _ => rfl⟩
  · intro first second hform
    have hread := first.ofForm_toValue false
    rw [hform, second.ofForm_toValue] at hread
    exact (Except.ok.inj hread).symm

/-- A query that is given by arrays throughout, and compares a field with what looks like a
filter. -/
theorem form_read_back_of_arrays :
    let looksLikeFilter : Value := .object [("or", .array [])]
    let v : Value := .array
      [.object [("and", .array [.object [("term", .array [.string "path", looksLikeFilter])]])],
        .array [.array [.string "timestamp", .object [("desc", .null)]]], .integer 3]
    let query : Query := ⟨.all [.term "path" looksLikeFilter], [⟨"timestamp", .descending⟩], 3⟩
    v.IsOrdered ∧ ofForm true v = .ok query ∧ canonical? true v = .ok query.toValue ∧
      canonical? false query.toValue = .ok query.toValue := by
  intro looksLikeFilter v query
  have hordered : v.IsOrdered := by
    simp [v, looksLikeFilter, Value.IsOrdered, Value.AreOrdered, Value.AreMembersOrdered,
      Table.Sorted, Value.integer]
  have hkey : SortKey.Spells (.array [.string "timestamp", .object [("desc", .null)]])
      ⟨"timestamp", .descending⟩ := .fields (.items rfl) (@SortOrder.Spells.key .descending)
  have hspells : Spells true v query :=
    .items ⟨.all (.cons (.term (.items rfl)) .nil), ⟨_, rfl, .cons hkey .nil⟩, rfl⟩
  have hread : ofForm true v = .ok query :=
    (form_read_back.2.2.1 true v query hordered).mpr hspells
  have hcanonical : canonical? true v = .ok query.toValue :=
    Json.map_eq_ok_iff.mpr ⟨query, hread, rfl⟩
  exact ⟨hordered, hread, hcanonical, (form_read_back.2.2.2.1 true v _ hcanonical).1⟩

end Query

end VersionStore
