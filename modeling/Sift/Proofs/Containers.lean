import Mathlib.Data.List.Nodup
import Sift.Proofs.Acceptance
import Sift.Proofs.Additions
import Sift.Proofs.Flattening
import Sift.Proofs.Scan

/-!
# Fields and their containers

In a mapping document of one index whose names have no dots, a path is read in one way only: the
names are what stands between its dots, and what stands in front of the last dot is the path of the
property that holds the field. So no two properties share a path, and with a field its containers
are in the catalog too, up to the top.

* `intercalate_undotted`, `splitPath?_eq_some_iff`: dotted paths, taken apart.
* `Mapping.exists_container`: the property that holds a property.
* `Mapping.Node.eq_of_path`, `Mapping.exists_declared`: one property for each path.
* `Clause.nestedPaths`, `Condition.lowerAt_nestedPaths`: the paths at which a clause asks for nested
  documents.
* `undotted_mapping_lossless`: **no field is lost, and the path of every nested clause is a field.**
-/

namespace Sift

/-! ### Dotted paths -/

/-- A name without dots. -/
def Undotted (name : String) : Prop := '.' ∉ name.toList

instance (name : String) : Decidable (Undotted name) :=
  inferInstanceAs (Decidable ('.' ∉ name.toList))

theorem splitLastDot?_eq_some_iff {cs before after : List Char} :
    splitLastDot? cs = some (before, after) ↔ cs = before ++ '.' :: after ∧ '.' ∉ after := by
  unfold splitLastDot?
  constructor
  · intro h
    split at h
    · cases h
    · next dot rest hdrop =>
      obtain ⟨rfl, rfl⟩ := Prod.mk.inj (Option.some.inj h)
      have hhead : dot ∈ (cs.reverse.dropWhile (· != '.')).head? := by simp [hdrop]
      have hdot : dot = '.' := by simpa using Token.head_dropWhile hhead
      have hcut : cs.reverse.takeWhile (· != '.') ++ dot :: rest = cs.reverse := by
        rw [← hdrop, List.takeWhile_append_dropWhile]
      rw [hdot] at hcut
      refine ⟨by simpa using (congrArg List.reverse hcut).symm, fun hmem => ?_⟩
      simpa using Token.mem_takeWhile (List.mem_reverse.1 hmem)
  · rintro ⟨rfl, hafter⟩
    have hreverse : (before ++ '.' :: after).reverse = after.reverse ++ '.' :: before.reverse := by
      simp
    have hrun : ∀ x ∈ after.reverse, (x != '.') = true := by
      intro x hx
      have hne : x ≠ '.' := fun h => hafter (h ▸ List.mem_reverse.1 hx)
      simpa using hne
    have hstop : Text.Stops (· != '.') ('.' :: before.reverse) := by simp [Text.Stops]
    rw [hreverse, Text.dropWhile_run hrun hstop, Text.takeWhile_run hrun hstop]
    simp

/-- **A dotted path is cut at its last dot.** -/
theorem splitPath?_eq_some_iff {path parent name : String} :
    splitPath? path = some (parent, name) ↔ path = parent ++ "." ++ name ∧ Undotted name := by
  have htoList : path = parent ++ "." ++ name ↔
      path.toList = parent.toList ++ '.' :: name.toList := by
    rw [← String.toList_inj]
    simp
  rw [htoList, Undotted, ← splitLastDot?_eq_some_iff, splitPath?, Option.map_eq_some_iff]
  constructor
  · rintro ⟨⟨before, after⟩, hcut, heq⟩
    obtain ⟨rfl, rfl⟩ := Prod.mk.inj heq
    rwa [String.toList_ofList, String.toList_ofList]
  · intro h
    exact ⟨_, h, by simp⟩

/-- **Names without dots can be told from the path.** -/
theorem intercalate_undotted {names names' : List String} (hne : names ≠ []) (hne' : names' ≠ [])
    (h : ∀ name ∈ names, Undotted name) (h' : ∀ name ∈ names', Undotted name)
    (heq : String.intercalate "." names = String.intercalate "." names') : names = names' := by
  have hlists : ['.'].intercalate (names.map String.toList) =
      ['.'].intercalate (names'.map String.toList) := by
    have htoList := congrArg String.toList heq
    rwa [String.toList_intercalate, String.toList_intercalate] at htoList
  have hsplit : ∀ ns : List String, ns ≠ [] → (∀ name ∈ ns, Undotted name) →
      (['.'].intercalate (ns.map String.toList)).splitOn '.' = ns.map String.toList := by
    intro ns hns hundotted
    refine List.splitOn_intercalate '.' ?_ (by simpa using hns)
    intro cs hcs
    obtain ⟨name, hname, rfl⟩ := List.mem_map.1 hcs
    exact hundotted name hname
  have hnames : names.map String.toList = names'.map String.toList := by
    rw [← hsplit names hne h, ← hsplit names' hne' h', hlists]
  exact List.map_injective_iff.2 (fun _ _ => String.toList_inj.1) hnames

namespace Mapping

/-! ### The property that holds a property -/

variable {indices : List (String × Json)} {index : String} {body : Json}

theorem Reaches.exists_last_step {v w : Json} {names : List String} {name : String}
    (h : Reaches v (names ++ [name]) w) : ∃ u, Reaches v names u ∧ (name, w) ∈ owned u := by
  induction names generalizing v with
  | nil =>
    cases h with
    | through hname hchild =>
      cases hchild
      exact ⟨v, .here v, hname⟩
  | cons first names ih =>
    cases h with
    | through hname hchild =>
      obtain ⟨u, hu, hmem⟩ := ih hchild
      exact ⟨u, .through hname hu, hmem⟩

theorem declares_of_mem_owned {v : Json} {p : String × Json} (h : p ∈ owned v) : Declares v := by
  obtain ⟨properties, hget, -⟩ := mem_owned.1 h
  exact .inr ⟨properties, hget⟩

/-- **A property below another one is held by a property that has an entry.** -/
theorem exists_container {n : Node} {names : List String} {name : String} (hn : n.IsIn indices)
    (hnames : n.names = names ++ [name]) (hne : names ≠ []) :
    ∃ m : Node, m.IsIn indices ∧ m.names = names ∧ Declares m.value := by
  obtain ⟨body, hbody, -, mappings, hmappings, hreach⟩ := hn
  rw [hnames] at hreach
  obtain ⟨u, hu, hmem⟩ := hreach.exists_last_step
  exact ⟨⟨n.index, names, u⟩, ⟨body, hbody, hne, mappings, hmappings, hu⟩, rfl,
    declares_of_mem_owned hmem⟩

theorem Reaches.every_name {P : String → Prop} {v : Json}
    (h : ∀ p ∈ owned v, P p.1 ∧ ∀ names w, Reaches p.2 names w → ∀ name ∈ names, P name) :
    ∀ names w, Reaches v names w → ∀ name ∈ names, P name := by
  intro names w hreach
  cases hreach with
  | here => simp
  | through hname hchild =>
    obtain ⟨hP, hbelow⟩ := h _ hname
    exact List.forall_mem_cons.2 ⟨hP, hbelow _ w hchild⟩

/-! ### One property for each path -/

/-- A document whose names have no dots. -/
def NamesUndotted (indices : List (String × Json)) : Prop :=
  ∀ n : Node, n.IsIn indices → ∀ name ∈ n.names, Undotted name

theorem Node.IsIn.names_ne_nil {n : Node} (h : n.IsIn indices) : n.names ≠ [] := by
  obtain ⟨-, -, hne, -⟩ := h
  exact hne

theorem Node.IsIn.index_eq {n : Node} (h : n.IsIn [(index, body)]) : n.index = index := by
  obtain ⟨_, hmem, -⟩ := h
  rw [List.mem_singleton] at hmem
  exact (Prod.mk.inj hmem).1

/-- Nodes in order are told apart by their addresses. -/
theorem Node.eq_of_address {nodes : List Node} (hsorted : nodes.Pairwise Node.Before) {m n : Node}
    (hm : m ∈ nodes)
    (hn : n ∈ nodes) (hindex : m.index = n.index) (hnames : m.names = n.names) : m = n := by
  have hnodup : (nodes.map fun n => n.index :: n.names).Nodup := by
    refine List.pairwise_map.2 (hsorted.imp fun {a b} hab heq => ?_)
    unfold Node.Before at hab
    rw [heq] at hab
    exact List.lex_irrefl String.lt_irrefl _ hab
  exact List.inj_on_of_nodup_map hnodup hm hn (by rw [hindex, hnames])

/-- The entries are those of the properties that declare something, each under its path. -/
theorem exists_declared (nodes : List Node) :
    ∃ declared : List Node, declared.Sublist nodes ∧
      (∀ n, n ∈ declared ↔ n ∈ nodes ∧ Declares n.value) ∧
      (entriesOfNodes nodes).map Prod.fst = declared.map Node.path := by
  induction nodes with
  | nil => exact ⟨[], .slnil, by simp, rfl⟩
  | cons n nodes ih =>
    obtain ⟨declared, hsub, hmem, hpaths⟩ := ih
    have hcons : entriesOfNodes (n :: nodes) = ownOf n.path n.value ++ entriesOfNodes nodes :=
      List.flatMap_cons
    rw [hcons, List.map_append, hpaths]
    rcases ownOf_cases n.path n.value with ⟨e, hown, hdeclares, -⟩ | ⟨hown, hnot⟩
    · refine ⟨n :: declared, hsub.cons_cons n, fun m => ?_, by rw [hown]; rfl⟩
      rw [List.mem_cons, List.mem_cons, hmem]
      constructor
      · rintro (rfl | ⟨hm, hd⟩)
        · exact ⟨.inl rfl, hdeclares⟩
        · exact ⟨.inr hm, hd⟩
      · rintro ⟨rfl | hm, hd⟩
        · exact .inl rfl
        · exact .inr ⟨hm, hd⟩
    · refine ⟨declared, hsub.cons n, fun m => ?_, by rw [hown]; rfl⟩
      rw [hmem, List.mem_cons]
      constructor
      · rintro ⟨hm, hd⟩
        exact ⟨.inr hm, hd⟩
      · rintro ⟨rfl | hm, hd⟩
        · exact absurd hd hnot
        · exact ⟨hm, hd⟩

/-- In one index, properties with the same path are the same. -/
theorem Node.eq_of_path {nodes : List Node} (hmem : ∀ n, n ∈ nodes ↔ n.IsIn [(index, body)])
    (hsorted : nodes.Pairwise Node.Before) (hnames : NamesUndotted [(index, body)]) {m n : Node}
    (hm : m.IsIn [(index, body)]) (hn : n.IsIn [(index, body)]) (hpath : m.path = n.path) :
    m = n := by
  have hindex : m.index = n.index := hm.index_eq.trans hn.index_eq.symm
  have haddress : m.names = n.names :=
    intercalate_undotted hm.names_ne_nil hn.names_ne_nil (hnames m hm) (hnames n hn) hpath
  exact Node.eq_of_address hsorted ((hmem m).2 hm) ((hmem n).2 hn) hindex haddress

/-! ### The catalog -/

variable {es : List (String × FieldEntry)}

theorem exists_entries {text : String} {c : Catalog} (h : Json.read? text = some (.obj indices))
    (hc : Mapping.ofText text = .ok c) :
    ∃ es, entriesOfIndices indices = .ok es ∧ c = catalogOf es := by
  rw [ofText_of_read? h] at hc
  cases hes : entriesOfIndices indices with
  | error e =>
    rw [hes] at hc
    cases hc
  | ok es =>
    rw [hes] at hc
    exact ⟨es, rfl, (Except.ok.inj hc).symm⟩

/-- **As many fields as properties that declare something.** -/
theorem exists_declared_size (hordered : (Json.obj [(index, body)]).Ordered)
    (hnames : NamesUndotted [(index, body)]) (h : entriesOfIndices [(index, body)] = .ok es) :
    ∃ declared : List Node, declared.Nodup ∧
      (∀ n, n ∈ declared ↔ n.IsIn [(index, body)] ∧ Declares n.value) ∧
      (catalogOf es).size = declared.length := by
  obtain ⟨nodes, hmem, hsorted, rfl⟩ := exists_nodes hordered h
  obtain ⟨declared, hsub, hdeclared, hpaths⟩ := exists_declared nodes
  have hnodup : nodes.Nodup := by
    refine hsorted.imp fun {a b} hab heq => ?_
    rw [heq] at hab
    exact List.lex_irrefl String.lt_irrefl _ hab
  have hdistinct : (declared.map Node.path).Nodup := by
    refine (hnodup.sublist hsub).map_on fun m hm n hn hpath => ?_
    exact Node.eq_of_path hmem hsorted hnames ((hmem m).1 (hsub.subset hm))
      ((hmem n).1 (hsub.subset hn)) hpath
  refine ⟨declared, hnodup.sublist hsub, fun n => by rw [hdeclared, hmem], ?_⟩
  calc (catalogOf (entriesOfNodes nodes)).size
      = ((entriesOfNodes nodes).map Prod.fst).dedup.length := Catalog.size_insertAll _
    _ = (declared.map Node.path).dedup.length := by rw [hpaths]
    _ = declared.length := by rw [hdistinct.dedup, List.length_map]

/-- **With a field its container is in the catalog.** -/
theorem contains_container (hordered : (Json.obj indices).Ordered) (hnames : NamesUndotted indices)
    (h : entriesOfIndices indices = .ok es) {parent name : String} (hname : Undotted name)
    (hfield : (catalogOf es).lookup.contains (parent ++ "." ++ name) = true) :
    (catalogOf es).lookup.contains parent = true := by
  obtain ⟨n, hn, hpath, -⟩ := (lookup_catalogOf hordered h _).1.1 hfield
  obtain ⟨names, last, hlast⟩ : ∃ names last, n.names = names ++ [last] := by
    rcases List.eq_nil_or_concat n.names with hnil | ⟨names, last, hlast⟩
    · exact absurd hnil hn.names_ne_nil
    · exact ⟨names, last, by rw [hlast, List.concat_eq_append]⟩
  have hundotted : Undotted last := hnames n hn last (by simp [hlast])
  unfold Node.path at hpath
  rw [hlast] at hpath
  have hne : names ≠ [] := by
    -- a single name has no dot, and the path has one
    rintro rfl
    rw [List.nil_append, String.intercalate_singleton] at hpath
    refine hundotted ?_
    rw [hpath]
    simp
  rw [String.intercalate_append_of_ne_nil hne (by simp), String.intercalate_singleton] at hpath
  have hcut : splitPath? (parent ++ "." ++ name) = some (String.intercalate "." names, last) :=
    splitPath?_eq_some_iff.2 ⟨hpath.symm, hundotted⟩
  rw [splitPath?_eq_some_iff.2 ⟨rfl, hname⟩] at hcut
  obtain ⟨rfl, -⟩ := Prod.mk.inj (Option.some.inj hcut)
  obtain ⟨m, hm, rfl, hdeclares⟩ := exists_container hn hlast hne
  exact (lookup_catalogOf hordered h _).1.2 ⟨m, hm, rfl, hdeclares⟩

end Mapping

/-! ### Nested clauses -/

namespace Clause

mutual

/-- **The paths of the nested clauses** in a clause, at any depth. -/
def nestedPaths : Clause → List String
  | .nested path query => path :: nestedPaths query
  | .bool _ parts => nestedPathsAll parts
  | .term .. | .terms .. | .range .. | .present .. => []

/-- The paths of the nested clauses in several clauses. -/
def nestedPathsAll : List Clause → List String
  | [] => []
  | q :: rest => nestedPaths q ++ nestedPathsAll rest

end

theorem mem_nestedPathsAll {path : String} {qs : List Clause} :
    path ∈ nestedPathsAll qs ↔ ∃ q ∈ qs, path ∈ q.nestedPaths := by
  induction qs with
  | nil => simp [nestedPathsAll]
  | cons q qs ih => simp [nestedPathsAll, ih]

end Clause

section NestedPaths

variable {lookup : Lookup} {q : Clause} {path : String}

theorem Leaf.equality_nestedPaths (l : Leaf) (type : FieldType) :
    (test.equality l type).nestedPaths = [] := by
  unfold test.equality
  split
  · split <;> rw [Clause.nestedPaths]
  · rw [Clause.nestedPaths]

theorem Leaf.test_nestedPaths {l : Leaf} {type : FieldType} {occur : Occur}
    (h : l.test type = .ok (occur, q)) :
    q.nestedPaths = [] := by
  obtain ⟨field, op, operand⟩ := l
  cases op with
  | eq | ne =>
    obtain ⟨-, rfl⟩ := Prod.mk.inj (Except.ok.inj h)
    exact equality_nestedPaths _ type
  | present =>
    obtain ⟨b, -, -, rfl⟩ := present_eq_ok h
    rw [Clause.nestedPaths]
  | gt | ge | lt | le =>
    obtain ⟨v, -, -, rfl⟩ := range_eq_ok h
    rw [Clause.nestedPaths]

theorem Leaf.lower_nestedPaths {l : Leaf} (h : l.lower lookup = .ok q)
    (hpath : path ∈ q.nestedPaths) :
    ∃ name, Undotted name ∧ lookup.contains (path ++ "." ++ name) = true := by
  obtain ⟨type, occur, test, hcheck, htest, rfl⟩ := lower_eq_ok.1 h
  have hknown : lookup.contains l.field = true := (Lookup.check_eq_ok.1 hcheck).1
  have hbool : (Clause.bool occur [test]).nestedPaths = [] := by
    simp [Clause.nestedPaths, Clause.nestedPathsAll, test_nestedPaths htest]
  unfold nest at hpath
  split at hpath
  · next parent name hsplit =>
    rw [Clause.nestedPaths, hbool, List.mem_singleton] at hpath
    obtain ⟨hfield, hname⟩ := splitPath?_eq_some_iff.1 hsplit
    exact ⟨name, hname, by rw [hpath, ← hfield, hknown]⟩
  · rw [hbool] at hpath
    cases hpath

/-- **A nested clause is at the container of a field**: what stands in front of the last dot of its
path. -/
theorem Condition.lowerAt_nestedPaths {c : Condition} : ∀ depth q, c.lowerAt lookup depth = .ok q →
    path ∈ q.nestedPaths → ∃ name, Undotted name ∧
      lookup.contains (path ++ "." ++ name) = true := by
  induction c using tree_induction with
  | leaf l =>
    intro depth q hq hpath
    rw [lowerAt] at hq
    exact Leaf.lower_nestedPaths hq hpath
  | group gate cs ih =>
    intro depth q hq hpath
    obtain ⟨-, qs, hqs, rfl⟩ := lowerAt_group_eq_ok.1 hq
    rw [Clause.nestedPaths] at hpath
    obtain ⟨q, hmem, hpath⟩ := Clause.mem_nestedPathsAll.1 hpath
    obtain ⟨c, hc, hcq⟩ := mem_lowerAll hqs hmem
    exact ih c hc _ q hcq hpath

end NestedPaths

open Mapping

/-- **Flattening loses nothing where names have no dots.** In the catalog of a mapping document of
one index, properties that declare something have different paths, each of them is a field, and
there are no other fields. With a dotted field the path in front of its last dot is a field as well.
So a tree that compiles has nested clauses only at paths that are fields. -/
theorem undotted_mapping_lossless {text index : String} {body : Json}
    (h : Json.read? text = some (.obj [(index, body)])) (hnames : NamesUndotted [(index, body)])
    {c : Catalog} (hc : Mapping.ofText text = .ok c) :
    (∀ m n : Node, m.IsIn [(index, body)] → n.IsIn [(index, body)] → Declares m.value →
      Declares n.value → m.path = n.path → m = n) ∧
    (∀ n : Node, n.IsIn [(index, body)] → Declares n.value → c.lookup.contains n.path = true) ∧
    (∃ declared : List Node, declared.Nodup ∧
      (∀ n, n ∈ declared ↔ n.IsIn [(index, body)] ∧ Declares n.value) ∧ c.size = declared.length) ∧
    (∀ parent name, Undotted name → c.lookup.contains (parent ++ "." ++ name) = true →
      c.lookup.contains parent = true) ∧
    (∀ (tree : Condition) (q : Clause), tree.lower c.lookup = .ok q →
      ∀ path ∈ q.nestedPaths, c.lookup.contains path = true) ∧
    ∀ (o : Options) (tree : Condition) (d : Document),
      Document.ofCondition c.lookup o tree = .ok d →
      ∀ path ∈ d.query.nestedPaths, c.lookup.contains path = true := by
  have hordered : (Json.obj [(index, body)]).Ordered := Json.ordered_of_read? h
  obtain ⟨es, hes, rfl⟩ := exists_entries h hc
  have hparent : ∀ parent name, Undotted name →
    (catalogOf es).lookup.contains (parent ++ "." ++ name) = true →
      (catalogOf es).lookup.contains parent = true := by
    intro parent name hname hfield
    exact contains_container hordered hnames hes hname hfield
  have hnested : ∀ (tree : Condition) (q : Clause), tree.lower (catalogOf es).lookup = .ok q →
      ∀ path ∈ q.nestedPaths, (catalogOf es).lookup.contains path = true := by
    intro tree q hq path hpath
    obtain ⟨name, hname, hfield⟩ := Condition.lowerAt_nestedPaths 0 q hq hpath
    exact hparent path name hname hfield
  refine ⟨?_, ?_, exists_declared_size hordered hnames hes, hparent, hnested, ?_⟩
  · intro m n hm hn _ _ hpath
    obtain ⟨nodes, hmem, hsorted, -⟩ := exists_nodes hordered hes
    exact Node.eq_of_path hmem hsorted hnames hm hn hpath
  · intro n hn hdeclares
    exact (lookup_catalogOf hordered hes _).1.2 ⟨n, hn, rfl, hdeclares⟩
  · intro o tree d hd
    obtain ⟨-, hq, -⟩ := Document.ofCondition_eq_ok.1 hd
    exact hnested tree d.query hq

/-! ### A property without a name -/

/-- A document with a field below a property whose name is empty, and one below a property that is
not enabled. -/
def shelved : String :=
  "\x7b\"i\":\x7b\"mappings\":\x7b\"properties\":\x7b" ++
    "\"\":\x7b\"properties\":\x7b\"x\":\x7b\"type\":\"keyword\"\x7d\x7d\x7d," ++
    "\"raw\":\x7b\"type\":\"object\",\"enabled\":false," ++
    "\"properties\":\x7b\"y\":\x7b\"type\":\"keyword\"\x7d\x7d\x7d\x7d\x7d\x7d\x7d"

/-- The property of `shelved` that is not enabled. -/
def shelvedRaw : Json :=
  .obj [("enabled", .bool false), ("properties", .obj [("y", .obj [("type", .str "keyword")])]),
    ("type", .str "object")]

/-- The one index of `shelved`. -/
def shelvedBody : Json :=
  .obj [("mappings", .obj [("properties", .obj
    [("", .obj [("properties", .obj [("x", .obj [("type", .str "keyword")])])]),
      ("raw", shelvedRaw)])])]

/-- The fields of `shelved`. -/
def shelvedCatalog : Catalog :=
  catalogOf [("", ⟨none, true⟩), (".x", ⟨some "keyword", true⟩), ("raw", ⟨some "object", false⟩),
    ("raw.y", ⟨some "keyword", true⟩)]

theorem read?_shelved : Json.read? shelved = some (.obj [("i", shelvedBody)]) := by
  set_option maxRecDepth 4096 in rfl

theorem ofText_shelved : Mapping.ofText shelved = .ok shelvedCatalog := by
  rw [ofText_of_read? read?_shelved]
  rfl

theorem namesUndotted_shelved : NamesUndotted [("i", shelvedBody)] := by
  have hleaf : ∀ names w, Reaches (.obj [("type", .str "keyword")]) names w →
      ∀ name ∈ names, Undotted name := by
    refine Reaches.every_name fun p hp => ?_
    cases hp
  have hheld : ∀ (held : String) (v : Json), owned v = [(held, .obj [("type", .str "keyword")])] →
      Undotted held → ∀ names w, Reaches v names w → ∀ name ∈ names, Undotted name := by
    intro held v howned hundotted
    refine Reaches.every_name fun p hp => ?_
    rw [howned, List.mem_singleton] at hp
    rw [hp]
    exact ⟨hundotted, hleaf⟩
  rintro n ⟨_, hbody, -, mappings, hmappings, hreach⟩
  obtain ⟨-, rfl⟩ := Prod.mk.inj (List.mem_singleton.1 hbody)
  obtain rfl := Option.some.inj hmappings
  refine Reaches.every_name ?_ _ _ hreach
  refine List.forall_mem_cons.2 ⟨⟨by decide, ?_⟩, List.forall_mem_singleton.2 ⟨by decide, ?_⟩⟩
  · exact hheld "x" _ rfl (by decide)
  · exact hheld "y" _ rfl (by decide)

/-- The four properties of `shelved` are four fields, and a condition on the field below the
property without a name asks for nested documents at the empty path, which is a field. -/
theorem undotted_mapping_lossless_unnamed :
    Json.read? shelved = some (.obj [("i", shelvedBody)]) ∧ NamesUndotted [("i", shelvedBody)] ∧
    Mapping.ofText shelved = .ok shelvedCatalog ∧
    (∃ declared : List Node, declared.Nodup ∧
      (∀ n, n ∈ declared ↔ n.IsIn [("i", shelvedBody)] ∧ Declares n.value) ∧ declared.length = 4) ∧
    ∃ q, (Condition.leaf ⟨".x", .eq, .single (.text "a")⟩).lower shelvedCatalog.lookup = .ok q ∧
      q.nestedPaths = [""] ∧ shelvedCatalog.lookup.contains "" = true := by
  obtain ⟨-, -, ⟨declared, hnodup, hmem, hsize⟩, -, hnested, -⟩ :=
    undotted_mapping_lossless read?_shelved namesUndotted_shelved ofText_shelved
  refine ⟨read?_shelved, namesUndotted_shelved, ofText_shelved, ⟨declared, hnodup, hmem, ?_⟩, _,
    rfl, rfl, ?_⟩
  · rw [← hsize]
    rfl
  · exact hnested (.leaf ⟨".x", .eq, .single (.text "a")⟩) _ rfl "" (List.mem_singleton.2 rfl)

end Sift
