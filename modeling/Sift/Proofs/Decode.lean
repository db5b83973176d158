import Sift.Clause.Reader
import Sift.Proofs.Invariant
import Sift.Proofs.Meaning

/-!
# Clauses show their trees

Leaves and groups both become boolean clauses, one value of an ordered type is written as a list is,
and a flag is left only in how a test counts. Still nothing is lost: the tree can be read off its
clause. The exceptions are numbers that are not finite, which JSON does not have, and lists of a
single item, which look like the item.

* `Clause.ofJson?_toJson`: a clause can be read off its JSON value.
* `Leaf.ofTest?_test`: a leaf can be read off its test and how it counts.
* `Condition.ofClause?_lowerAt`: a tree can be read off its clause.
* `clause_determines_tree`: **the clause determines the tree.**
-/

namespace Sift

/-! ### Clauses as JSON -/

/-- A value whose JSON form shows it: numbers that are not finite have none. -/
def Scalar.Finite : Scalar → Prop
  | .number x => x.isFinite = true
  | _ => True

theorem Scalar.ofJson?_toJson {v : Scalar} (h : v.Finite) : Scalar.ofJson? v.toJson = some v := by
  rw [Scalar.ofJson?_toJson_eq]
  cases v with
  | bool b => rfl
  | number x => exact if_pos h
  | text s => rfl

theorem Scalar.mapM_ofJson?_toJson {vs : List Scalar} (h : ∀ v ∈ vs, v.Finite) :
    (vs.map Scalar.toJson).mapM Scalar.ofJson? = some vs := by
  induction vs with
  | nil => rfl
  | cons v vs ih =>
    have hv := Scalar.ofJson?_toJson (h v List.mem_cons_self)
    have hvs := ih fun v hv => h v (List.mem_cons_of_mem _ hv)
    simp [hv, hvs]

theorem Bound.ofKey?_key (b : Bound) : Bound.ofKey? b.key = some b := by cases b <;> rfl

theorem Occur.ofKey?_key (o : Occur) : Occur.ofKey? o.key = some o := by cases o <;> rfl

namespace Clause

/-- **All numbers in a clause are finite.** -/
inductive Finite : Clause → Prop where
  | term {field : String} {v : Scalar} (value : v.Finite) : Finite (.term field v)
  | terms {field : String} {vs : List Scalar} (values : ∀ v ∈ vs, v.Finite) :
      Finite (.terms field vs)
  | range {field : String} {bound : Bound} {v : Scalar} (value : v.Finite) :
      Finite (.range field bound v)
  | present {field : String} : Finite (.present field)
  | nested {path : String} {q : Clause} (query : Finite q) : Finite (.nested path q)
  | bool {occur : Occur} {qs : List Clause} (parts : ∀ q ∈ qs, Finite q) : Finite (.bool occur qs)

theorem ofJsonAll?_toJsonAll {qs : List Clause} (h : ∀ q ∈ qs, ofJson? q.toJson = some q) :
    ofJsonAll? (toJsonAll qs) = some qs := by
  induction qs with
  | nil => rfl
  | cons q qs ih =>
    have hq := h q List.mem_cons_self
    have hqs := ih fun q hq => h q (List.mem_cons_of_mem _ hq)
    simp [toJsonAll, ofJsonAll?, hq, hqs]

/-- **A clause without infinite numbers is read back from JSON.** -/
theorem ofJson?_toJson {q : Clause} (h : q.Finite) : ofJson? q.toJson = some q := by
  induction h with
  | term value => simp [toJson, ofJson?, Scalar.ofJson?_toJson value]
  | terms values => simp [toJson, ofJson?, Scalar.mapM_ofJson?_toJson values]
  | range value => simp [toJson, ofJson?, Scalar.ofJson?_toJson value, Bound.ofKey?_key]
  | present => simp [toJson, ofJson?]
  | nested _ ih => simp [toJson, ofJson?, ih]
  | bool _ ih => simp [toJson, ofJson?, Occur.ofKey?_key, ofJsonAll?_toJsonAll ih]

end Clause

/-! ### Leaves -/

/-- **A leaf that its clause shows**: its numbers are finite, and its value is no list of a single
item, which would look like the item. -/
structure Leaf.Recoverable (l : Leaf) : Prop where
  finite : ∀ v ∈ l.operand.values, v.Finite
  several : ∀ v, l.operand ≠ .list [v]

namespace Leaf

variable {lookup : Lookup} {l : Leaf} {type : FieldType} {occur : Occur} {q : Clause}

theorem equality_cases (l : Leaf) (type : FieldType) :
    (∃ v, l.operand = .single v ∧ test.equality l type = .term l.field v) ∨
      test.equality l type = .terms l.field l.operand.values := by
  unfold test.equality
  split
  next v hv =>
    split
    · exact .inr (by rw [hv]; rfl)
    · exact .inl ⟨v, hv, rfl⟩
  next vs hv => exact .inr (by rw [hv]; rfl)

theorem ofValues_values {operand : Operand} (h : ∀ v, operand ≠ .list [v]) :
    Operand.ofValues operand.values = operand := by
  unfold Operand.ofValues
  split
  next v hv => exact (eq_single (h v) hv).symm
  next hne =>
    cases operand with
    | single v => exact absurd rfl (hne v)
    | list vs => rfl

/-- The two ways in which a test of equality counts are told apart. -/
theorem ofTest?_equality (h : ∀ v, l.operand ≠ .list [v]) :
    ofTest? .must (test.equality l type) = some ⟨l.field, .eq, l.operand⟩ ∧
      ofTest? .mustNot (test.equality l type) = some ⟨l.field, .ne, l.operand⟩ := by
  rcases equality_cases l type with ⟨v, hv, hq⟩ | hq
  · rw [hq, hv]
    exact ⟨rfl, rfl⟩
  · rw [hq, ofTest?, ofTest?, ofValues_values h]
    exact ⟨rfl, rfl⟩

/-- **The test of a leaf shows the leaf.** -/
theorem ofTest?_test (h : ∀ v, l.operand ≠ .list [v]) (htest : l.test type = .ok (occur, q)) :
    ofTest? occur q = some l := by
  obtain ⟨field, op, operand⟩ := l
  cases op with
  | eq =>
    obtain ⟨rfl, rfl⟩ := Prod.mk.inj (Except.ok.inj htest)
    exact (ofTest?_equality h).1
  | ne =>
    obtain ⟨rfl, rfl⟩ := Prod.mk.inj (Except.ok.inj htest)
    exact (ofTest?_equality h).2
  | present =>
    obtain ⟨b, hv, rfl, rfl⟩ := present_eq_ok htest
    obtain rfl := eq_single (h _) hv
    cases b <;> rfl
  | _ =>
    obtain ⟨v, rfl, rfl, rfl⟩ := range_eq_ok htest
    rfl

theorem equality_finite (h : ∀ v ∈ l.operand.values, v.Finite) : (test.equality l type).Finite := by
  rcases equality_cases l type with ⟨v, hv, hq⟩ | hq
  · rw [hq]
    exact .term (h v (by simp [hv, Operand.values]))
  · rw [hq]
    exact .terms h

theorem test_finite (h : ∀ v ∈ l.operand.values, v.Finite) (htest : l.test type = .ok (occur, q)) :
    q.Finite := by
  obtain ⟨field, op, operand⟩ := l
  cases op with
  | eq =>
    obtain ⟨rfl, rfl⟩ := Prod.mk.inj (Except.ok.inj htest)
    exact equality_finite h
  | ne =>
    obtain ⟨rfl, rfl⟩ := Prod.mk.inj (Except.ok.inj htest)
    exact equality_finite h
  | present =>
    obtain ⟨b, -, -, rfl⟩ := present_eq_ok htest
    exact .present
  | _ =>
    obtain ⟨v, hv, rfl, rfl⟩ := range_eq_ok htest
    exact .range (h v (by simp_all [Operand.values]))

theorem nest_cases (l : Leaf) (q : Clause) : l.nest q = q ∨ ∃ path, l.nest q = .nested path q := by
  unfold nest
  split
  · exact .inr ⟨_, rfl⟩
  · exact .inl rfl

end Leaf

/-! ### Trees -/

namespace Condition

variable {lookup : Lookup} {depth : Nat} {c : Condition} {cs : List Condition} {q : Clause}
  {qs : List Clause}

theorem lowerAt_finite (h : c.EveryLeaf Leaf.Recoverable) (hq : c.lowerAt lookup depth = .ok q) :
    q.Finite := by
  induction c using tree_induction generalizing depth q with
  | leaf l =>
    rw [lowerAt] at hq
    obtain ⟨type, occur, test, -, htest, rfl⟩ := Leaf.lower_eq_ok.1 hq
    have hbool : (Clause.bool occur [test]).Finite :=
      .bool (by simpa using Leaf.test_finite (everyLeaf_leaf.1 h).finite htest)
    rcases l.nest_cases (.bool occur [test]) with hn | ⟨path, hn⟩
    · rwa [hn]
    · rw [hn]
      exact .nested hbool
  | group gate cs ih =>
    obtain ⟨-, qs, hqs, rfl⟩ := lowerAt_group_eq_ok.1 hq
    refine .bool fun q hq => ?_
    obtain ⟨c, hc, hcq⟩ := mem_lowerAll hqs hq
    exact ih c hc (everyLeaf_group.1 h c hc) hcq

/-- The clause of a condition is never a test: it counts its tests first. -/
theorem ofTest?_lowerAt (hq : c.lowerAt lookup depth = .ok q) (occur : Occur) :
    Leaf.ofTest? occur q = none := by
  cases c with
  | leaf l =>
    rw [lowerAt] at hq
    obtain ⟨type, occur', test, -, -, rfl⟩ := Leaf.lower_eq_ok.1 hq
    rcases l.nest_cases (.bool occur' [test]) with hn | ⟨path, hn⟩ <;> rw [hn] <;> cases occur <;>
      rfl
  | group gate cs =>
    obtain ⟨-, qs, -, rfl⟩ := lowerAt_group_eq_ok.1 hq
    cases occur <;> rfl

theorem ofClause?_leaf {l : Leaf} (h : l.Recoverable) (hq : l.lower lookup = .ok q) :
    ofClause? q = some (.leaf l) := by
  obtain ⟨type, occur, test, -, htest, rfl⟩ := Leaf.lower_eq_ok.1 hq
  have htest' : Leaf.ofClause? (.bool occur [test]) = some l := Leaf.ofTest?_test h.several htest
  rcases l.nest_cases (.bool occur [test]) with hn | ⟨path, hn⟩
  · rw [hn, ofClause?, htest']
  · rw [hn, ofClause?, htest']
    rfl

/-- A group is not taken for a leaf, not even with a single condition in it. -/
theorem ofClause?_group (hqs : lowerAll lookup depth cs = .ok qs) (occur : Occur) :
    Leaf.ofClause? (.bool occur qs) = none := by
  unfold Leaf.ofClause?
  split
  next heq =>
    obtain ⟨rfl, rfl⟩ := Clause.bool.inj heq
    obtain ⟨c, -, hc⟩ := mem_lowerAll hqs List.mem_cons_self
    exact ofTest?_lowerAt hc _
  next => rfl

theorem ofClauses?_of_forall₂ (h : List.Forall₂ (fun c q => ofClause? q = some c) cs qs) :
    ofClauses? qs = some cs := by
  induction h with
  | nil => rfl
  | cons hc _ ih => simp [ofClauses?, hc, ih]

/-- **The clause of a tree shows the tree**, at any depth. -/
theorem ofClause?_lowerAt (h : c.EveryLeaf Leaf.Recoverable) (hq : c.lowerAt lookup depth = .ok q) :
    ofClause? q = some c := by
  induction c using tree_induction generalizing depth q with
  | leaf l =>
    rw [lowerAt] at hq
    exact ofClause?_leaf (everyLeaf_leaf.1 h) hq
  | group gate cs ih =>
    obtain ⟨-, qs, hqs, rfl⟩ := lowerAt_group_eq_ok.1 hq
    have hbelow := everyLeaf_group.1 h
    have hparts : List.Forall₂ (fun c q => ofClause? q = some c) cs qs :=
      lowerAll_forall₂ (fun c hc q hq => ih c hc (hbelow c hc) hq) hqs
    have hgate : gate.occur.gate? = some gate := by cases gate <;> rfl
    rw [ofClause?, ofClause?_group hqs, hgate]
    simp [ofClauses?_of_forall₂ hparts]

/-- The JSON value of the clause of a tree shows the tree. -/
theorem ofClauseJson?_lower (h : c.EveryLeaf Leaf.Recoverable) (hq : c.lower lookup = .ok q) :
    ofClauseJson? q.toJson = some c := by
  unfold ofClauseJson?
  rw [Clause.ofJson?_toJson (lowerAt_finite h hq)]
  exact ofClause?_lowerAt h hq

end Condition

/-! ### Trees that have been read -/

theorem Scalar.DenotedBy.finite {ctx : Context} {type : FieldType} {text : String} {v : Scalar}
    (h : Scalar.DenotedBy ctx type text v) : v.Finite := by
  cases h with
  | number _ _ finite => exact finite
  | date _ => trivial
  | text _ => trivial

/-- A leaf that has been read is shown by its clause. -/
theorem Leaf.Admissible.recoverable {ctx : Context} {type : FieldType} {l : Leaf}
    (h : l.Admissible ctx type) :
    l.Recoverable := by
  constructor
  · intro v hv
    by_cases hop : l.operator = .present
    · obtain ⟨b, hb⟩ := h.value.flag hop
      rw [hb] at hv
      obtain rfl := List.mem_singleton.1 hv
      trivial
    · obtain ⟨text, hdenoted⟩ := h.value.values hop v hv
      exact hdenoted.finite
  · intro v hv
    obtain ⟨-, hlength, -⟩ := h.value.list _ hv
    simp at hlength

theorem recoverable_of_ofTokens {ctx : Context} {ts : List Token} {t : Condition}
    (h : Filter.ofTokens ctx ts = .ok t) : t.EveryLeaf Leaf.Recoverable := by
  refine Filter.everyLeaf_of_ofTokens (fun field op text l known hleaf => ?_) h
  obtain ⟨type, hadmissible⟩ := Context.leaf_admissible known hleaf
  exact hadmissible.recoverable

/-- **The clause determines the tree.** Reading it back needs no fields: whichever fields a tree
with finite numbers and without lists of a single item was lowered against, its clause gives the
tree. Different trees that have been read never have the same clause. -/
theorem clause_determines_tree :
    (∀ (lookup : Lookup) (t : Condition) (q : Clause), t.EveryLeaf Leaf.Recoverable →
      t.lower lookup = .ok q → Condition.ofClauseJson? q.toJson = some t) ∧
    ∀ (ctx ctx' : Context) (ts ts' : List Token) (t t' : Condition) (lookup lookup' : Lookup)
      (q q' : Clause),
      Filter.ofTokens ctx ts = .ok t → Filter.ofTokens ctx' ts' = .ok t' → t.lower lookup = .ok q →
        t'.lower lookup' = .ok q' → t ≠ t' → q.toJson ≠ q'.toJson := by
  refine ⟨fun lookup t q h hq => Condition.ofClauseJson?_lower h hq, ?_⟩
  intro ctx ctx' ts ts' t t' lookup lookup' q q' ht ht' hq hq' hne hjson
  have hback := Condition.ofClauseJson?_lower (recoverable_of_ofTokens ht) hq
  have hback' := Condition.ofClauseJson?_lower (recoverable_of_ofTokens ht') hq'
  rw [hjson, hback'] at hback
  exact hne (Option.some.inj hback).symm

/-- A group of one number around a nested empty list and a missing field comes back from its clause;
a condition and the same condition in parentheses have different clauses. -/
theorem clause_determines_tree_mixed :
    let tree : Condition := .group .or [.group .and [.leaf ⟨"age", .eq, .single (.number 7.5)⟩],
      .leaf ⟨"a.b", .ne, .list []⟩, .leaf ⟨"c", .present, .single (.bool false)⟩]
    let clause : Clause := .bool .should [.bool .must [.bool .must [.terms "age" [.number 7.5]]],
      .nested "a" (.bool .mustNot [.terms "a.b" []]), .bool .mustNot [.present "c"]]
    let plain : Clause := .bool .must [.bool .must [.term "a" (.text "x")]]
    tree.EveryLeaf Leaf.Recoverable ∧ tree.lower .mixed = .ok clause ∧
      Condition.ofClauseJson? clause.toJson = some tree ∧
          plain.toJson ≠ (Clause.bool .must [plain]).toJson := by
  intro tree clause plain
  have hleaves : tree.EveryLeaf Leaf.Recoverable := by
    have hnumber : Leaf.Recoverable ⟨"age", .eq, .single (.number 7.5)⟩ :=
      ⟨fun v hv => by
        obtain rfl := List.mem_singleton.1 hv
        exact (rfl : Float.isFinite 7.5 = true), by simp⟩
    have hlist : Leaf.Recoverable ⟨"a.b", .ne, .list []⟩ := ⟨by simp [Operand.values], by simp⟩
    have hflag : Leaf.Recoverable ⟨"c", .present, .single (.bool false)⟩ :=
      ⟨fun v hv => by obtain rfl := List.mem_singleton.1 hv; trivial, by simp⟩
    simp [tree, hnumber, hlist, hflag]
  have hlower : tree.lower .mixed = .ok clause := by rfl
  let condition : Condition := .leaf ⟨"a", .eq, .single (.text "x")⟩
  have hread : Filter.ofTokens ⟨.allKeyword, .utc, ⟨0, 0⟩⟩ [.word "a", .operator .eq, .quoted "x"] =
      .ok (.group .and [condition]) := by rfl
  have hread' : Filter.ofTokens ⟨.allKeyword, .utc, ⟨0, 0⟩⟩
      [.openGroup, .word "a", .operator .eq, .quoted "x", .closeGroup] =
      .ok (.group .and [.group .and [condition]]) := by rfl
  exact ⟨hleaves, hlower, clause_determines_tree.1 _ _ _ hleaves hlower,
    clause_determines_tree.2 _ _ _ _ _ _ .allKeyword .allKeyword _ _ hread hread' rfl rfl
      (by simp [condition])⟩

end Sift
