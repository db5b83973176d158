import Mathlib.Data.List.Basic
import Mathlib.Data.Set.List
import Sift.Field.Mapping
import Sift.Proofs.Catalog
import Sift.Proofs.JsonOrder

/-!
# The properties of a mapping document

The properties of a mapping document form a tree under each index. A property has an address: its
index and the names on the way to it. A walk in the order of keys, parents before their properties,
meets the addresses in lexicographic order.

* `Mapping.Reaches`: the values below a value, with the names on the way.
* `Mapping.Node`: a property and its address, and `Mapping.Node.IsIn`: the properties of a document.
* `Mapping.Lists`: all values with some property, in the order of their addresses.
* `Mapping.exists_listing`, `Mapping.exists_nodes`: **the entries of a document are those of its
  properties, one after the other.**
-/

namespace Sift.Mapping

/-! ### Properties and their addresses -/

/-- The properties that a value has of its own: those of the object under `properties`, if there is
one. -/
def owned (v : Json) : List (String × Json) := ((v.get? "properties").bind Json.fields?).getD []

/-- **The values reached from a value through properties**, by their names. -/
inductive Reaches : Json → List String → Json → Prop
  | here (v : Json) : Reaches v [] v
  | through {v child w : Json} {name : String} {names : List String}
      (hname : (name, child) ∈ owned v)
      (hchild : Reaches child names w) : Reaches v (name :: names) w

/-- The properties of an index: those reached from its `mappings`. -/
def Holds (body : Json) (names : List String) (v : Json) : Prop :=
  names ≠ [] ∧ ∃ mappings, body.get? "mappings" = some mappings ∧ Reaches mappings names v

/-- A property with its address. -/
structure Node where
  index : String
  names : List String
  value : Json

namespace Node

/-- The dotted path. -/
def path (n : Node) : String := String.intercalate "." n.names

/-- **The order of keys**, with parents before their properties. -/
def Before (m n : Node) : Prop := List.Lex (· < ·) (m.index :: m.names) (n.index :: n.names)

/-- **The properties of a document**: those of its indices. -/
def IsIn (n : Node) (indices : List (String × Json)) : Prop :=
  ∃ body, (n.index, body) ∈ indices ∧ Holds body n.names n.value

end Node

/-! ### Listings -/

/-- **All values with a property and their addresses**, in the order of the addresses. -/
structure Lists (P : List String → Json → Prop) (ns : List (List String × Json)) : Prop where
  mem : ∀ names v, (names, v) ∈ ns ↔ P names v
  sorted : ns.Pairwise fun a b => List.Lex (· < ·) a.1 b.1

/-- What is reached under the keys of several values. -/
def Under (P : Json → List String → Json → Prop) (items : List (String × Json))
    (names : List String)
    (v : Json) : Prop := ∃ key item rest, (key, item) ∈ items ∧ names = key :: rest ∧ P item rest v

/-- The listing under a key. -/
def prepend (key : String) (ns : List (List String × Json)) : List (List String × Json) :=
  ns.map fun n => (key :: n.1, n.2)

theorem lists_nil (P : Json → List String → Json → Prop) : Lists (Under P []) [] :=
  ⟨by simp [Under], List.Pairwise.nil⟩

/-- Listings under increasing keys, one after the other. -/
theorem Lists.cons {P : Json → List String → Json → Prop} {key : String} {item : Json}
    {items : List (String × Json)} {ns later : List (List String × Json)} (hns : Lists (P item) ns)
    (hlater : Lists (Under P items) later) (hlt : ∀ q ∈ items, key < q.1) :
    Lists (Under P ((key, item) :: items)) (prepend key ns ++ later) := by
  constructor
  · intro names v
    rw [List.mem_append, hlater.mem]
    constructor
    · rintro (h | ⟨key', item', rest, hmem, rfl, h⟩)
      · obtain ⟨n, hn, heq⟩ := List.mem_map.1 h
        obtain ⟨rfl, rfl⟩ := Prod.mk.inj heq
        exact ⟨key, item, n.1, List.mem_cons_self, rfl, (hns.mem _ _).1 hn⟩
      · exact ⟨key', item', rest, List.mem_cons_of_mem _ hmem, rfl, h⟩
    · rintro ⟨key', item', rest, hmem, rfl, h⟩
      rcases List.mem_cons.1 hmem with heq | hmem
      · obtain ⟨rfl, rfl⟩ := Prod.mk.inj heq
        exact .inl (List.mem_map.2 ⟨(rest, v), (hns.mem _ _).2 h, rfl⟩)
      · exact .inr ⟨key', item', rest, hmem, rfl, h⟩
  · refine List.pairwise_append.2 ⟨?_, hlater.sorted, ?_⟩
    · exact List.pairwise_map.2 (hns.sorted.imp fun h => .cons h)
    · rintro ⟨x, v⟩ hx ⟨y, w⟩ hy
      obtain ⟨n, -, heq⟩ := List.mem_map.1 hx
      obtain ⟨rfl, rfl⟩ := Prod.mk.inj heq
      obtain ⟨key', item', rest, hmem, rfl, -⟩ := (hlater.mem y w).1 hy
      exact .rel (hlt _ hmem)

/-! ### The walk through a tree of properties -/

/-- The entries of a value without those of the properties below it. -/
def ownOf (path : String) : Json → List (String × FieldEntry)
  | .obj property => ownEntries path property
  | _ => []

theorem reaches_iff {v w : Json} {names : List String} :
    Reaches v names w ↔ names = [] ∧ w = v ∨ Under Reaches (owned v) names w := by
  constructor
  · intro h
    cases h with
    | here => exact .inl ⟨rfl, rfl⟩
    | through hname hchild => exact .inr ⟨_, _, _, hname, rfl, hchild⟩
  · rintro (⟨rfl, rfl⟩ | ⟨name, child, rest, hname, rfl, hchild⟩)
    · exact .here _
    · exact .through hname hchild

theorem mem_owned {p : String × Json} {v : Json} :
    p ∈ owned v ↔ ∃ properties, v.get? "properties" = some (.obj properties) ∧ p ∈ properties := by
  unfold owned
  cases v.get? "properties" with
  | none => simp
  | some w => cases w <;> simp [Json.fields?]

theorem entriesOfProperties_eq (lead : String) (v : Json) :
    entriesOfProperties lead v = entriesOfAll lead (v.fields?.getD []) := by
  cases v <;> rfl

theorem entriesBelow_eq (path : String) (property : List (String × Json)) :
    entriesBelow path property = entriesOfAll (path ++ ".") (owned (.obj property)) := by
  induction property with
  | nil => rfl
  | cons f rest ih =>
    obtain ⟨key, v⟩ := f
    have howned : owned (.obj ((key, v) :: rest)) =
        if "properties" = key then v.fields?.getD [] else owned (.obj rest) := by
      unfold owned Json.get?
      simp only [lookup_cons_eq_ite]
      split <;> rfl
    rw [entriesBelow, howned]
    by_cases hkey : key = "properties"
    · rw [if_pos hkey, if_pos hkey.symm, entriesOfProperties_eq]
    · rw [if_neg hkey, if_neg (Ne.symm hkey), ih]

theorem entries_eq (path : String) (v : Json) :
    entries path v = ownOf path v ++ entriesOfAll (path ++ ".") (owned v) := by
  cases v with
  | obj property => rw [entries, entriesBelow_eq, ownOf]
  | null | bool | int | float | str | arr => rfl

/-- The properties of a value that has been read are in the order of their names. -/
theorem sortedKeys_owned {v : Json} (h : v.Ordered) : SortedKeys (owned v) := by
  by_cases hv : ∃ properties, v.get? "properties" = some (.obj properties)
  · obtain ⟨properties, hget⟩ := hv
    have howned : owned v = properties := by rw [owned, hget]; rfl
    rw [howned]
    exact (Json.ordered_of_get? h hget).fields.1
  · have howned : owned v = [] := List.eq_nil_iff_forall_not_mem.2 fun p hp =>
      have ⟨properties, hget, _⟩ := mem_owned.1 hp
      hv ⟨properties, hget⟩
    rw [howned]
    exact List.Pairwise.nil

/-- An induction over ordered values that passes from the properties of a value to the value. -/
@[elab_as_elim]
theorem owned_induction {motive : Json → Prop}
    (step : ∀ v : Json, v.Ordered → (∀ p ∈ owned v, motive p.2) → motive v) {v : Json}
    (h : v.Ordered) : motive v := by
  have hv := h
  -- the properties of an object are two levels below it, in the object under one of its keys
  suffices hboth : motive v ∧
    ∀ fields, v.fields? = some fields → ∀ f ∈ fields, motive f.2 from hboth.1
  induction h with
  | null | bool | int | float | str | arr =>
    exact ⟨step _ hv (by simp [owned, Json.get?]), by simp [Json.fields?]⟩
  | @obj fields sorted values_ordered ih =>
    refine ⟨step _ hv fun p hp => ?_, ?_⟩
    · obtain ⟨properties, hget, hp⟩ := mem_owned.1 hp
      obtain ⟨_, heq, hmem⟩ := Json.exists_mem_of_get? hget
      obtain rfl := Json.obj.inj heq
      exact (ih _ hmem (values_ordered _ hmem)).2 properties rfl p hp
    · intro fields' heq f hf
      obtain rfl := Option.some.inj heq
      exact (ih f hf (values_ordered f hf)).1

/-- The entries of a listing, with paths that begin with `lead`. -/
def listed (lead : String) (ns : List (List String × Json)) : List (String × FieldEntry) :=
  ns.flatMap fun n => ownOf (lead ++ String.intercalate "." n.1) n.2

theorem listed_prepend (lead name : String) (ns : List (List String × Json)) :
    listed lead (prepend name ns) = listed "" (prepend (lead ++ name) ns) := by
  unfold listed prepend
  rw [List.flatMap_map, List.flatMap_map]
  congr 1
  funext n
  rw [String.intercalate_cons_append, String.empty_append]

/-- Below a property the paths go on after a dot. -/
theorem listed_below (path : String) {ns : List (List String × Json)} (h : ∀ n ∈ ns, n.1 ≠ []) :
    listed (path ++ ".") ns = listed "" (prepend path ns) := by
  unfold listed prepend
  rw [List.flatMap_map]
  refine List.flatMap_congr fun n hn => ?_
  obtain ⟨name, names, heq⟩ := List.exists_cons_of_ne_nil (h n hn)
  rw [heq, String.intercalate_cons_cons, String.empty_append]

/-- The entries of several properties are listed, if those of each are. -/
theorem exists_listing_all {properties : List (String × Json)} (hsorted : SortedKeys properties)
    (heach : ∀ p ∈ properties,
      ∃ ns, Lists (Reaches p.2) ns ∧ ∀ path, entries path p.2 = listed "" (prepend path ns)) :
    ∃ ns, Lists (Under Reaches properties) ns ∧
      ∀ lead, entriesOfAll lead properties = listed lead ns := by
  induction properties with
  | nil => exact ⟨[], lists_nil _, fun lead => rfl⟩
  | cons p rest ih =>
    obtain ⟨name, v⟩ := p
    obtain ⟨hlt, hsorted⟩ := List.pairwise_cons.1 hsorted
    obtain ⟨hv, heach⟩ := List.forall_mem_cons.1 heach
    obtain ⟨ns, hns, hentries⟩ := hv
    obtain ⟨later, hlater, hrest⟩ := ih hsorted heach
    refine ⟨prepend name ns ++ later, hns.cons hlater hlt, fun lead => ?_⟩
    calc entriesOfAll lead ((name, v) :: rest)
        = entries (lead ++ name) v ++ entriesOfAll lead rest := by rw [entriesOfAll]
      _ = listed lead (prepend name ns) ++ listed lead later := by
        rw [hentries, hrest, listed_prepend lead]
      _ = listed lead (prepend name ns ++ later) := List.flatMap_append.symm

/-- **The walk lists all that is reached from a value**, in the order of addresses. -/
theorem exists_listing {v : Json} (h : v.Ordered) :
    ∃ ns, Lists (Reaches v) ns ∧ ∀ path, entries path v = listed "" (prepend path ns) := by
  refine owned_induction (fun v hv ih => ?_) h
  obtain ⟨ns, hns, hentries⟩ := exists_listing_all (sortedKeys_owned hv) ih
  have hbelow : ∀ n ∈ ns, n.1 ≠ [] := by
    rintro ⟨names, w⟩ hn
    obtain ⟨name, _, rest, -, rfl, -⟩ := (hns.mem names w).1 hn
    exact List.cons_ne_nil name rest
  refine ⟨([], v) :: ns, ⟨fun names w => ?_, ?_⟩, fun path => ?_⟩
  · rw [List.mem_cons, hns.mem, reaches_iff, Prod.mk.injEq]
  · refine List.pairwise_cons.2 ⟨fun n hn => ?_, hns.sorted⟩
    obtain ⟨name, rest, heq⟩ := List.exists_cons_of_ne_nil (hbelow n hn)
    rw [heq]
    exact .nil
  · rw [entries_eq, hentries, listed_below path hbelow]
    show _ = ownOf ("" ++ String.intercalate "." [path]) v ++ listed "" (prepend path ns)
    rw [String.intercalate_singleton, String.empty_append]

/-! ### The indices of a document -/

theorem properties?_eq_some_iff {body : Json} {properties : List (String × Json)} :
    properties? body = some properties ↔
      ∃ mappings, body.get? "mappings" = some mappings ∧
        mappings.get? "properties" = some (.obj properties) := by
  have hfields : ∀ v : Json, v.fields? = some properties ↔ v = .obj properties := by
    intro v
    cases v <;> simp [Json.fields?]
  unfold properties?
  simp only [Option.bind_eq_bind, Option.bind_eq_some_iff, hfields, exists_eq_right]

/-- The entries of an index are listed. -/
theorem exists_listing_index {body : Json} {properties : List (String × Json)}
    (hbody : body.Ordered) (h : properties? body = some properties) :
    ∃ ns, Lists (Holds body) ns ∧ entriesOfAll "" properties = listed "" ns := by
  obtain ⟨mappings, hmappings, hproperties⟩ := properties?_eq_some_iff.1 h
  have howned : owned mappings = properties := by rw [owned, hproperties]; rfl
  obtain ⟨hsorted, hchildren⟩ :=
    (Json.ordered_of_get? (Json.ordered_of_get? hbody hmappings) hproperties).fields
  obtain ⟨ns, hns, hentries⟩ :=
    exists_listing_all hsorted fun p hp => exists_listing (hchildren p hp)
  refine ⟨ns, ⟨fun names v => ?_, hns.sorted⟩, hentries ""⟩
  rw [hns.mem]
  constructor
  · rintro ⟨name, child, rest, hmem, rfl, hreach⟩
    exact ⟨List.cons_ne_nil name rest, mappings, hmappings, .through (howned ▸ hmem) hreach⟩
  · rintro ⟨hne, mappings', hmappings', hreach⟩
    obtain rfl := Option.some.inj (hmappings.symm.trans hmappings')
    rcases reaches_iff.1 hreach with ⟨hnil, -⟩ | hunder
    · exact absurd hnil hne
    · exact howned ▸ hunder

/-- The entries of a document are listed, index by index. -/
theorem exists_listing_indices {indices : List (String × Json)} {es : List (String × FieldEntry)}
    (hsorted : SortedKeys indices) (hordered : ∀ p ∈ indices, p.2.Ordered)
    (h : entriesOfIndices indices = .ok es) :
    ∃ ns, Lists (Under Holds indices) ns ∧
      es = ns.flatMap fun n => ownOf (String.intercalate "." n.1.tail) n.2 := by
  induction indices generalizing es with
  | nil =>
    obtain rfl := Except.ok.inj h
    exact ⟨[], lists_nil _, rfl⟩
  | cons p rest ih =>
    obtain ⟨name, body⟩ := p
    obtain ⟨hlt, hsorted⟩ := List.pairwise_cons.1 hsorted
    obtain ⟨hbody, hordered⟩ := List.forall_mem_cons.1 hordered
    rw [entriesOfIndices] at h
    split at h
    · cases h
    · next properties hproperties =>
      obtain ⟨ns, hns, hentries⟩ := exists_listing_index hbody hproperties
      cases hrest : entriesOfIndices rest with
      | error e => rw [hrest] at h; cases h
      | ok later =>
        rw [hrest] at h
        obtain rfl := Except.ok.inj h
        obtain ⟨ns', hns', rfl⟩ := ih hsorted hordered hrest
        refine ⟨prepend name ns ++ ns', hns.cons hns' hlt, ?_⟩
        rw [List.flatMap_append, hentries, listed, prepend, List.flatMap_map]
        simp only [String.empty_append, List.tail_cons]

/-- Where a property stands, and what it is. -/
def Node.located (n : Node) : List String × Json := (n.index :: n.names, n.value)

theorem Node.located_injective : Function.Injective Node.located := by
  rintro ⟨index, names, v⟩ ⟨index', names', v'⟩ h
  obtain ⟨haddress, rfl⟩ := Prod.mk.inj h
  obtain ⟨rfl, rfl⟩ := List.cons.inj haddress
  rfl

theorem under_holds_iff {indices : List (String × Json)} {n : Node} :
    Under Holds indices n.located.1 n.located.2 ↔ n.IsIn indices := by
  constructor
  · rintro ⟨index, body, rest, hmem, heq, hholds⟩
    obtain ⟨rfl, rfl⟩ := List.cons.inj heq
    exact ⟨body, hmem, hholds⟩
  · rintro ⟨body, hmem, hholds⟩
    exact ⟨n.index, body, n.names, hmem, rfl, hholds⟩

/-- The entries of several properties. -/
def entriesOfNodes (nodes : List Node) : List (String × FieldEntry) :=
  nodes.flatMap fun n => ownOf n.path n.value

/-- **The entries of a document are those of its properties, in their order.** -/
theorem exists_nodes {indices : List (String × Json)} {es : List (String × FieldEntry)}
    (hordered : (Json.obj indices).Ordered) (h : entriesOfIndices indices = .ok es) :
    ∃ nodes : List Node, (∀ n, n ∈ nodes ↔ n.IsIn indices) ∧ nodes.Pairwise Node.Before ∧
      es = entriesOfNodes nodes := by
  obtain ⟨hsorted, hvalues⟩ := hordered.fields
  obtain ⟨ns, hns, rfl⟩ := exists_listing_indices hsorted hvalues h
  -- every address begins with the name of an index, so each pair is one of a node
  have hrange : ns ∈ Set.range (List.map Node.located) := by
    rw [Set.range_list_map]
    rintro ⟨address, v⟩ hmem
    obtain ⟨index, body, names, -, rfl, -⟩ := (hns.mem address v).1 hmem
    exact ⟨⟨index, names, v⟩, rfl⟩
  obtain ⟨nodes, rfl⟩ := hrange
  refine ⟨nodes, fun n => ?_, (List.pairwise_map (f := Node.located)).1 hns.sorted,
    List.flatMap_map ..⟩
  rw [← under_holds_iff, ← hns.mem]
  exact (List.mem_map_of_injective Node.located_injective).symm

end Sift.Mapping
