import Sift.Proofs.MappingTree

/-!
# Mapping documents flattened

A catalog lists the properties of a mapping document under dotted paths. Where several properties
have one path, because of names with dots or in different indices, the catalog has the entry of the
last one, in the order of addresses.

* `Mapping.ownOf_cases`: the entry of one property.
* `Mapping.entriesOfIndices_cases`: which documents are refused.
* `Mapping.get?_catalogOf_cases`: **the last property of a path decides its entry.**
* `mapping_flattened`: what the catalog of a document says.
-/

namespace Sift

namespace Mapping

/-! ### What a property declares -/

/-- The type that a property declares. -/
def typeOf? (v : Json) : Option String := (v.get? "type").bind Json.text?

/-- A property that has an entry: it has a type, or properties of its own. -/
def Declares (v : Json) : Prop :=
  (∃ type, v.get? "type" = some (.str type)) ∨
    ∃ properties, v.get? "properties" = some (.obj properties)

/-- A property that is not indexed or not enabled. -/
def IsDisabled (v : Json) : Prop :=
  v.get? "index" = some (.bool false) ∨ v.get? "enabled" = some (.bool false)

/-- An index with an object of properties. -/
def HasProperties (body : Json) : Prop :=
  ∃ mappings properties, body.get? "mappings" = some mappings ∧
    mappings.get? "properties" = some (.obj properties)

/-- **The first index without properties**, in the order of names. -/
def FirstWithout (indices : List (String × Json)) (index : String) : Prop :=
  (∃ body, (index, body) ∈ indices ∧ ¬HasProperties body) ∧
    ∀ p ∈ indices, p.1 < index → HasProperties p.2

namespace Node

/-- A property that has an entry under the path. -/
def Gives (n : Node) (path : String) : Prop := n.path = path ∧ Declares n.value

/-- **The last of the properties that have an entry under the path.** -/
structure Decides (n : Node) (indices : List (String × Json)) (path : String) : Prop where
  isIn : n.IsIn indices
  gives : n.Gives path
  last : ∀ m : Node, m.IsIn indices → m.Gives path → m = n ∨ m.Before n

end Node

theorem isOff_iff {key : String} {property : List (String × Json)} :
    isOff key property = true ↔ (Json.obj property).get? key = some (.bool false) := by
  show isOff key property = true ↔ property.lookup key = some (.bool false)
  unfold isOff
  split
  · next h => simp [h]
  · next h => simpa using h

theorem typeOf?_eq_some_iff {v : Json} {type : String} :
    typeOf? v = some type ↔ v.get? "type" = some (.str type) := by
  unfold typeOf?
  cases v.get? "type" with
  | none => simp
  | some w => cases w <;> simp [Json.text?]

/-- What the entry of a property says. -/
structure Entered (v : Json) (e : FieldEntry) : Prop where
  declared : e.declared = typeOf? v
  indexed : e.indexed = false ↔ IsDisabled v

theorem entry?_eq_some {property : List (String × Json)} {e : FieldEntry}
    (h : entry? property = some e) :
    Declares (.obj property) ∧ Entered (.obj property) e := by
  have hindexed : (!isOff "index" property && !isOff "enabled" property) = false ↔
      IsDisabled (.obj property) := by
    rw [IsDisabled, ← isOff_iff, ← isOff_iff, Bool.and_eq_false_iff, Bool.not_eq_false',
      Bool.not_eq_false']
  unfold entry? at h
  split at h
  · next type htype =>
    obtain rfl := Option.some.inj h
    have hsome : typeOf? (.obj property) = some type := typeOf?_eq_some_iff.2 htype
    exact ⟨.inl ⟨type, htype⟩, hsome.symm, hindexed⟩
  · next properties hproperties htype =>
    obtain rfl := Option.some.inj h
    have hnone : typeOf? (.obj property) = none :=
      Option.eq_none_iff_forall_ne_some.2 fun type h => htype type (typeOf?_eq_some_iff.1 h)
    exact ⟨.inr ⟨properties, hproperties⟩, hnone.symm, hindexed⟩
  · cases h

theorem not_declares_of_entry? {property : List (String × Json)} (h : entry? property = none) :
    ¬Declares (.obj property) := by
  unfold entry? at h
  split at h
  · cases h
  · cases h
  · next htype hproperties =>
    rintro (⟨type, hdeclared⟩ | ⟨properties, howned⟩)
    · exact htype type hdeclared
    · exact hproperties properties howned

/-- A property has one entry, under its path, if it declares something, and none otherwise. -/
theorem ownOf_cases (path : String) (v : Json) :
    (∃ e, ownOf path v = [(path, e)] ∧ Declares v ∧ Entered v e) ∨ ownOf path v = [] ∧
      ¬Declares v := by
  cases v with
  | obj property =>
    rw [ownOf, ownEntries]
    cases h : entry? property with
    | none => exact .inr ⟨rfl, not_declares_of_entry? h⟩
    | some e => exact .inl ⟨e, rfl, entry?_eq_some h⟩
  | null | bool | int | float | str | arr => exact .inr ⟨rfl, by simp [Declares, Json.get?]⟩

/-! ### Documents that are refused -/

theorem hasProperties_iff {body : Json} :
    HasProperties body ↔ ∃ properties, properties? body = some properties := by
  simp only [properties?_eq_some_iff]
  exact exists_comm

/-- **The entries of a document are refused for the first index without properties**, and for
nothing else. -/
theorem entriesOfIndices_cases {indices : List (String × Json)} (hsorted : SortedKeys indices) :
    (∃ es, entriesOfIndices indices = .ok es ∧ ∀ p ∈ indices, HasProperties p.2) ∨
      ∃ index, entriesOfIndices indices = .error (.noProperties index) ∧
        FirstWithout indices index := by
  induction indices with
  | nil => exact .inl ⟨[], rfl, by simp⟩
  | cons p rest ih =>
    obtain ⟨name, body⟩ := p
    obtain ⟨hlt, hsorted⟩ := List.pairwise_cons.1 hsorted
    cases hbody : properties? body with
    | none =>
      have hnot : ¬HasProperties body := by simp [hasProperties_iff, hbody]
      refine .inr ⟨name, by rw [entriesOfIndices, hbody], ⟨body, List.mem_cons_self, hnot⟩,
        fun p hp hless => ?_⟩
      rcases List.mem_cons.1 hp with rfl | hp
      · exact absurd hless (String.lt_irrefl name)
      · exact absurd hless (String.lt_asymm (hlt p hp))
    | some properties =>
      have hhas : HasProperties body := hasProperties_iff.2 ⟨properties, hbody⟩
      rcases ih hsorted with ⟨es, hes, hall⟩ | ⟨index, herror, ⟨body', hmem, hnot⟩, hbefore⟩
      · refine .inl ⟨_, by rw [entriesOfIndices, hbody, hes]; rfl,
          List.forall_mem_cons.2 ⟨hhas, hall⟩⟩
      · refine .inr ⟨index, by rw [entriesOfIndices, hbody, herror]; rfl,
          ⟨body', List.mem_cons_of_mem _ hmem, hnot⟩,
          List.forall_mem_cons.2 ⟨fun _ => hhas, hbefore⟩⟩

theorem ofText_of_read? {text : String} {indices : List (String × Json)}
    (h : Json.read? text = some (.obj indices)) :
    ofText text = (entriesOfIndices indices).map catalogOf := by
  rw [ofText, h]
  rfl

/-! ### The catalog of a document -/

theorem exists_gives_of_mem {nodes : List Node} {f : String × FieldEntry}
    (h : f ∈ entriesOfNodes nodes) :
    ∃ n ∈ nodes, n.Gives f.1 := by
  obtain ⟨n, hn, hf⟩ := List.mem_flatMap.1 h
  rcases ownOf_cases n.path n.value with ⟨e, hown, hdeclares, -⟩ | ⟨hown, -⟩
  · rw [hown, List.mem_singleton] at hf
    exact ⟨n, hn, by rw [hf], hdeclares⟩
  · simp [hown] at hf

theorem get?_catalogOf_of_not_gives {nodes : List Node} {path : String}
    (h : ∀ n ∈ nodes, ¬n.Gives path) :
    (catalogOf (entriesOfNodes nodes)).get? path = none := by
  refine Catalog.get?_insertAll_of_not_mem (c := .empty) fun f hf hpath => ?_
  obtain ⟨n, hn, hgives⟩ := exists_gives_of_mem hf
  exact h n hn (hpath ▸ hgives)

/-- **The last property with an entry under a path decides.** -/
theorem get?_catalogOf_of_last (before : List Node) {after : List Node} {n : Node} {path : String}
    (hn : n.Gives path) (hafter : ∀ m ∈ after, ¬m.Gives path) :
    ∃ e, (catalogOf (entriesOfNodes (before ++ n :: after))).get? path = some e ∧
      Entered n.value e := by
  obtain ⟨rfl, hdeclares⟩ := hn
  rcases ownOf_cases n.path n.value with ⟨e, hown, -, hentered⟩ | ⟨-, hnot⟩
  · refine ⟨e, ?_, hentered⟩
    have hsplit : entriesOfNodes (before ++ n :: after) =
        entriesOfNodes before ++ (n.path, e) :: entriesOfNodes after := by
      simp [entriesOfNodes, hown]
    rw [hsplit]
    refine Catalog.get?_insertAll_last (c := .empty) fun f hf hpath => ?_
    obtain ⟨m, hm, hgives⟩ := exists_gives_of_mem hf
    exact hafter m hm (hpath ▸ hgives)
  · exact absurd hdeclares hnot

/-- A path has an entry if some property gives it one, and then the last such property decides what
it is. -/
theorem get?_catalogOf_cases {indices : List (String × Json)} {es : List (String × FieldEntry)}
    (hordered : (Json.obj indices).Ordered) (h : entriesOfIndices indices = .ok es)
    (path : String) :
    (∃ n e, Node.Decides n indices path ∧ (catalogOf es).get? path = some e ∧ Entered n.value e) ∨
      (catalogOf es).get? path = none ∧ ∀ n : Node, n.IsIn indices → ¬n.Gives path := by
  obtain ⟨nodes, hmem, hsorted, rfl⟩ := exists_nodes hordered h
  by_cases hgives : ∃ n ∈ nodes, n.Gives path
  · obtain ⟨before, n, after, rfl, hn, hafter⟩ := exists_last hgives
    obtain ⟨e, hget, hentered⟩ := get?_catalogOf_of_last before hn hafter
    refine .inl ⟨n, e, ⟨(hmem n).1 (by simp), hn, fun m hm hgives => ?_⟩, hget, hentered⟩
    rcases List.mem_append.1 ((hmem m).2 hm) with hbefore | hrest
    · exact .inr ((List.pairwise_append.1 hsorted).2.2 m hbefore n List.mem_cons_self)
    · rcases List.mem_cons.1 hrest with rfl | hm
      · exact .inl rfl
      · exact absurd hgives (hafter m hm)
  · have hnone : ∀ n ∈ nodes, ¬n.Gives path := fun n hn hg => hgives ⟨n, hn, hg⟩
    exact .inr ⟨get?_catalogOf_of_not_gives hnone, fun n hn => hnone n ((hmem n).2 hn)⟩

/-- What a catalog answers about a path. -/
theorem lookup_catalogOf {indices : List (String × Json)} {es : List (String × FieldEntry)}
    (hordered : (Json.obj indices).Ordered) (h : entriesOfIndices indices = .ok es)
    (path : String) :
    ((catalogOf es).lookup.contains path = true ↔ ∃ n : Node, n.IsIn indices ∧ n.Gives path) ∧
      ((catalogOf es).lookup.contains path = true → ∃ n : Node, n.Decides indices path ∧
        (catalogOf es).lookup.declared path = typeOf? n.value ∧
        ((catalogOf es).lookup.indexed path = false ↔ IsDisabled n.value)) := by
  rcases get?_catalogOf_cases hordered h path with ⟨n, e, hn, hget, hentered⟩ | ⟨hget, hnone⟩
  · obtain ⟨hcontains, hdeclared, hindexed⟩ := Catalog.lookup_of_get? hget
    refine ⟨iff_of_true hcontains ⟨n, hn.isIn, hn.gives⟩, fun _ => ⟨n, hn, ?_, ?_⟩⟩
    · rw [hdeclared, hentered.declared]
    · rw [hindexed, hentered.indexed]
  · have hcontains : ¬(catalogOf es).lookup.contains path = true := by
      rw [Catalog.not_contains_of_get? hget]
      exact Bool.false_ne_true
    refine ⟨iff_of_false hcontains ?_, fun hc => absurd hc hcontains⟩
    rintro ⟨n, hn, hgives⟩
    exact hnone n hn hgives

end Mapping

open Mapping

/-- **A mapping document is flattened exactly.** It has a catalog if every index has properties, and
is refused for the first index without otherwise. A path is in the catalog if a property gives it an
entry, and its type and whether it is indexed are those of the last such property, also if the
properties are of different indices or their names have dots. -/
theorem mapping_flattened {text : String} {indices : List (String × Json)}
    (h : Json.read? text = some (.obj indices)) :
    ((∃ c, Mapping.ofText text = .ok c) ↔
      ∀ index body, (index, body) ∈ indices → HasProperties body) ∧
      (∀ e, Mapping.ofText text = .error e → ∃ index, e = .noProperties index ∧
        FirstWithout indices index) ∧
      ∀ c, Mapping.ofText text = .ok c → ∀ path,
        (c.lookup.contains path = true ↔ ∃ n : Node, n.IsIn indices ∧ n.Gives path) ∧
        (c.lookup.contains path = true → ∃ n : Node, n.Decides indices path ∧
          c.lookup.declared path = typeOf? n.value ∧
            (c.lookup.indexed path = false ↔ IsDisabled n.value)) := by
  have hordered : (Json.obj indices).Ordered := Json.ordered_of_read? h
  rw [ofText_of_read? h]
  rcases entriesOfIndices_cases hordered.fields.1 with ⟨es, hes, hall⟩ | ⟨index, herror, hfirst⟩
  · rw [hes]
    refine ⟨iff_of_true ⟨_, rfl⟩ fun index body hmem => hall _ hmem, ?_, ?_⟩
    · intro e he
      cases he
    · intro c hc path
      obtain rfl := Except.ok.inj hc
      exact lookup_catalogOf hordered hes path
  · rw [herror]
    refine ⟨iff_of_false ?_ ?_, ?_, ?_⟩
    · rintro ⟨c, hc⟩
      cases hc
    · intro hall
      obtain ⟨⟨body, hmem, hnot⟩, -⟩ := hfirst
      exact hnot (hall index body hmem)
    · intro e he
      exact ⟨index, (Except.error.inj he).symm, hfirst⟩
    · intro c hc
      cases hc

/-- A document of two indices that give one path, `b` by nesting and `a` by a name with a dot. -/
def crossing : String :=
  "\x7b\"b\":\x7b\"mappings\":\x7b\"properties\":\x7b\"x\":\x7b\"properties\":" ++
    "\x7b\"y\":\x7b\"type\":\"long\",\"index\":false\x7d\x7d\x7d\x7d\x7d\x7d," ++
    "\"a\":\x7b\"mappings\":\x7b\"properties\":\x7b\"x.y\":\x7b\"type\":\"keyword\"\x7d\x7d\x7d\x7d\x7d"

/-- The indices of `crossing`, in the order of their names. -/
def crossingIndices : List (String × Json) :=
  [("a", .obj [("mappings", .obj [("properties",
      .obj [("x.y", .obj [("type", .str "keyword")])])])]),
    ("b", .obj [("mappings", .obj [("properties", .obj [("x", .obj [("properties",
      .obj [("y", .obj [("index", .bool false), ("type", .str "long")])])])])])])]

/-- Of the two properties with the path `x.y` the one of `b` comes last. Of two indices without
properties the first in the order of names is named. -/
theorem mapping_flattened_crossing :
    (Json.read? crossing = some (.obj crossingIndices) ∧ ∃ c, Mapping.ofText crossing = .ok c ∧
      ∃ n : Node, n.Decides crossingIndices "x.y" ∧ typeOf? n.value = some "long" ∧
        IsDisabled n.value) ∧
    Mapping.ofText "\x7b\"b\":0,\"a\":0\x7d" = .error (.noProperties "a") ∧
      FirstWithout [("a", .int 0), ("b", .int 0)] "a" := by
  constructor
  · have hread : Json.read? crossing = some (.obj crossingIndices) := by
      set_option maxRecDepth 4096 in rfl
    have hok := (ofText_of_read? hread).trans (c := Except.ok _) rfl
    obtain ⟨n, hn, hdeclared, hindexed⟩ := ((mapping_flattened hread).2.2 _ hok "x.y").2 (by decide)
    exact ⟨hread, _, hok, n, hn, by rw [← hdeclared]; decide, hindexed.1 (by decide)⟩
  · have hread : Json.read? "\x7b\"b\":0,\"a\":0\x7d" =
        some (.obj [("a", .int 0), ("b", .int 0)]) := rfl
    have herror := (ofText_of_read? hread).trans (c := Except.error (.noProperties "a")) rfl
    obtain ⟨index, heq, hfirst⟩ := (mapping_flattened hread).2.1 _ herror
    obtain rfl := MappingError.noProperties.inj heq
    exact ⟨herror, hfirst⟩

end Sift
