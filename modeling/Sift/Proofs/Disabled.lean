import Sift.Proofs.Containers

/-!
# Properties that are switched off

A property can say of itself that it is not indexed or not enabled. Then no condition can be put on
it. What it says is not passed on: a field below a property that is not enabled can be searched
unless it is switched off itself.

* `Mapping.lookup_node`: what a catalog answers about a property.
* `Condition.acceptable_of_lower`: the leaves of a tree that can be lowered.
* `searchable_by_own_flags`: **a property is searchable by what it says itself.**
* `disabled_container_passes_nothing_on`: a field that can be searched below a property that is not
  enabled.
-/

namespace Sift

namespace Mapping

variable {index : String} {body : Json} {es : List (String × FieldEntry)} {n : Node}

/-- In a document of one index whose names have no dots, the catalog answers about a path with what
its property
says. -/
theorem lookup_node (hordered : (Json.obj [(index, body)]).Ordered)
    (hnames : NamesUndotted [(index, body)])
    (h : entriesOfIndices [(index, body)] = .ok es) (hn : n.IsIn [(index, body)]) :
    ((catalogOf es).lookup.contains n.path = true ↔ Declares n.value) ∧
      (Declares n.value → (catalogOf es).lookup.declared n.path = typeOf? n.value ∧
        ((catalogOf es).lookup.indexed n.path = false ↔ IsDisabled n.value)) := by
  obtain ⟨nodes, hmem, hsorted, -⟩ := exists_nodes hordered h
  have honly : ∀ m : Node, m.IsIn [(index, body)] → m.path = n.path → m = n := by
    intro m hm hpath
    exact Node.eq_of_path hmem hsorted hnames hm hn hpath
  obtain ⟨hcontains, hanswers⟩ := lookup_catalogOf hordered h n.path
  constructor
  · rw [hcontains]
    constructor
    · rintro ⟨m, hm, hpath, hdeclares⟩
      rwa [← honly m hm hpath]
    · intro hdeclares
      exact ⟨n, hn, rfl, hdeclares⟩
  · intro hdeclares
    obtain ⟨m, hm, hanswer⟩ := hanswers (hcontains.2 ⟨n, hn, rfl, hdeclares⟩)
    rwa [honly m hm.isIn hm.gives.1] at hanswer

end Mapping

theorem Catalog.not_indexed_of_not_contains {c : Catalog} {path : String}
    (h : ¬c.lookup.contains path = true) :
    c.lookup.indexed path = false := by
  have hnone : c.get? path = none := by simpa [lookup] using h
  simp [lookup, hnone]

/-- The leaves of a tree that can be lowered are acceptable. -/
theorem Condition.acceptable_of_lower {lookup : Lookup} {c : Condition} {q : Clause}
    (h : c.lower lookup = .ok q) :
    c.EveryLeaf (Leaf.Acceptable lookup) := by
  intro l hl
  rw [← map_placed 0] at hl
  obtain ⟨⟨depth, _⟩, hp, rfl⟩ := List.mem_map.1 hl
  exact (c.decided lookup 0).1.1 ⟨q, h⟩ _ hp

open Mapping

/-- **A property is searchable by what it says itself**: if it declares something and is switched
off neither by `index` nor by `enabled`. No condition on a property that is switched off compiles,
and if it has a type, the error is that it is not indexed. What the properties around it say does
not count. -/
theorem searchable_by_own_flags {text index : String} {body : Json}
    (h : Json.read? text = some (.obj [(index, body)])) (hnames : NamesUndotted [(index, body)])
    {c : Catalog} (hc : Mapping.ofText text = .ok c) {n : Node} (hn : n.IsIn [(index, body)]) :
    (c.lookup.indexed n.path = true ↔ Declares n.value ∧ ¬IsDisabled n.value) ∧
    (IsDisabled n.value →
      (∀ type op isList, typeOf? n.value = some type →
        c.lookup.check n.path op isList = .error (.unindexedField n.path)) ∧
      (∀ (tree : Condition) (q : Clause), tree.lower c.lookup = .ok q →
        tree.EveryLeaf fun l => l.field ≠ n.path) ∧
      ∀ (defaults : Options) (now : Time.Instant) (input : String) (r : Compiled),
        Engine.compile ⟨c.lookup, defaults⟩ now input = .ok r →
          r.tree.EveryLeaf fun l => l.field ≠ n.path) := by
  have hordered : (Json.obj [(index, body)]).Ordered := Json.ordered_of_read? h
  obtain ⟨es, hes, rfl⟩ := exists_entries h hc
  obtain ⟨hcontains, hanswers⟩ := lookup_node hordered hnames hes hn
  have hindexed : (catalogOf es).lookup.indexed n.path = true ↔
      Declares n.value ∧ ¬IsDisabled n.value := by
    by_cases hdeclares : Declares n.value
    · rw [← (hanswers hdeclares).2, Bool.not_eq_false]
      exact ⟨fun hi => ⟨hdeclares, hi⟩, fun hi => hi.2⟩
    · have hfalse := Catalog.not_indexed_of_not_contains (mt hcontains.1 hdeclares)
      rw [hfalse]
      exact iff_of_false Bool.false_ne_true fun hi => hdeclares hi.1
  refine ⟨hindexed, fun hdisabled => ?_⟩
  have hlower : ∀ (tree : Condition) (q : Clause), tree.lower (catalogOf es).lookup = .ok q →
      tree.EveryLeaf fun l => l.field ≠ n.path := by
    intro tree q hq l hl hfield
    obtain ⟨⟨type, hchecked⟩, -⟩ := Condition.acceptable_of_lower hq l hl
    have hsearched : (catalogOf es).lookup.indexed l.field = true := hchecked.1.indexed
    rw [hfield] at hsearched
    exact (hindexed.1 hsearched).2 hdisabled
  refine ⟨?_, hlower, ?_⟩
  · intro type op isList htype
    have hdeclares : Declares n.value := .inl ⟨type, typeOf?_eq_some_iff.1 htype⟩
    obtain ⟨hdeclared, hflag⟩ := hanswers hdeclares
    refine Lookup.check_eq_error.2 (.inr ⟨hcontains.2 hdeclares, ?_⟩)
    exact .unindexed (hdeclared.trans htype) (hflag.2 hdisabled)
  · intro defaults now input r hr
    obtain ⟨options, -, hdocument⟩ := Engine.reads_of_compile hr
    obtain ⟨-, hq, -⟩ := Document.ofCondition_eq_ok.1 hdocument
    exact hlower r.tree r.document.query hq

/-! ### A field below a property that is not enabled -/

theorem shelvedRaw_isIn : Node.IsIn ⟨"i", ["raw"], shelvedRaw⟩ [("i", shelvedBody)] := by
  refine ⟨shelvedBody, List.mem_singleton.2 rfl, List.cons_ne_nil _ _, _, rfl, ?_⟩
  exact .through (List.mem_cons_of_mem _ List.mem_cons_self) (.here _)

theorem shelvedField_isIn :
    Node.IsIn ⟨"i", ["raw", "y"], .obj [("type", .str "keyword")]⟩ [("i", shelvedBody)] := by
  refine ⟨shelvedBody, List.mem_singleton.2 rfl, List.cons_ne_nil _ _, _, rfl, ?_⟩
  refine .through (List.mem_cons_of_mem _ List.mem_cons_self) ?_
  exact .through List.mem_cons_self (.here _)

/-- The property `raw` of `shelved` is refused, and the field `raw.y` below it is not. -/
theorem searchable_by_own_flags_shelved :
    Mapping.ofText shelved = .ok shelvedCatalog ∧ IsDisabled shelvedRaw ∧
      shelvedCatalog.lookup.check "raw" .eq false = .error (.unindexedField "raw") ∧
      shelvedCatalog.lookup.indexed "raw.y" = true := by
  have hraw : IsDisabled shelvedRaw := .inr rfl
  have hfield : Declares (.obj [("type", .str "keyword")]) := .inl ⟨"keyword", rfl⟩
  have hon : ¬IsDisabled (.obj [("type", .str "keyword")]) := by
    rintro (hindex | henabled)
    · cases hindex
    · cases henabled
  obtain ⟨-, hrefused⟩ :=
    searchable_by_own_flags read?_shelved namesUndotted_shelved ofText_shelved shelvedRaw_isIn
  obtain ⟨hindexed, -⟩ :=
    searchable_by_own_flags read?_shelved namesUndotted_shelved ofText_shelved shelvedField_isIn
  exact ⟨ofText_shelved, hraw, (hrefused hraw).1 "object" .eq false rfl, hindexed.2 ⟨hfield, hon⟩⟩

/-- **What a property says is not passed on.** In a document of one index whose names have no dots,
`raw` is not enabled, but the field `raw.y` below it is indexed, and a condition on it compiles. -/
theorem disabled_container_passes_nothing_on :
    Json.read? shelved = some (.obj [("i", shelvedBody)]) ∧ NamesUndotted [("i", shelvedBody)] ∧
    Mapping.ofText shelved = .ok shelvedCatalog ∧
    (∃ n m : Node, n.IsIn [("i", shelvedBody)] ∧ n.value.get? "enabled" = some (.bool false) ∧
      m.IsIn [("i", shelvedBody)] ∧ n.names <+: m.names ∧ m.path = "raw.y" ∧
      shelvedCatalog.lookup.indexed m.path = true) ∧
    ∃ r, Engine.compile ⟨shelvedCatalog.lookup, .default⟩ ⟨0, 0⟩ "raw.y = a" = .ok r := by
  refine ⟨read?_shelved, namesUndotted_shelved, ofText_shelved, ?_, ?_⟩
  · exact ⟨_, _, shelvedRaw_isIn, rfl, shelvedField_isIn, ⟨["y"], rfl⟩, rfl, rfl⟩
  · have htokens : Token.ofText "raw.y = a" = [.word "raw.y", .operator .eq, .word "a"] := by
      decide +kernel
    have htree : Filter.ofText ⟨shelvedCatalog.lookup, .utc, ⟨0, 0⟩⟩ "raw.y = a" =
        .ok (.group .and [.leaf ⟨"raw.y", .eq, .single (.text "a")⟩]) := by
      unfold Filter.ofText
      rw [htokens]
      rfl
    have hreads : Engine.Reads ⟨shelvedCatalog.lookup, .default⟩ ⟨0, 0⟩ "raw.y = a" .default _ :=
      ⟨"raw.y = a", "", .utc, rfl, rfl, Options.zone_utc rfl, htree⟩
    obtain ⟨r, hr, -⟩ := Engine.compile_ok_of_reads hreads (by decide) rfl
    exact ⟨r, hr⟩

end Sift
