import Sift.Proofs.Meaning

/-!
# Trees that can be lowered

Trees need not come from a filter text, so lowering checks them: each group for its depth, each leaf
against the fields. Which trees pass, and which error the others end with, is said here node by
node, in the order in which the nodes are met: a group in front of what is in it, and conditions
from left to right.

* `Condition.placed`: the nodes of a tree in this order, each with the number of groups around it.
* `Leaf.Acceptable`, `Leaf.Refused`: the leaves that pass, and why the others do not.
* `FirstOffence`: the error of the first node that does not pass.
* `Condition.decided`: lowering at any depth accepts a tree if all its nodes pass, and has the first
  error otherwise.
* `Condition.lowerAt_everyField`: a clause tests the fields of leaves only.
* `lower_decided_by_nodes`: **lowering accepts a tree exactly if each of its nodes passes, and
  otherwise ends with the error of the first that does not.**
-/

namespace Sift

/-! ### Leaves -/

theorem Operator.acceptsList_iff {op : Operator} : op.acceptsList = true ↔ op = .eq ∨ op = .ne := by
  cases op <;> simp [acceptsList]

/-- The field is known and indexed, and conditions can be put on its type. -/
structure Lookup.Filterable (lookup : Lookup) (field : String) (type : FieldType) : Prop where
  known : lookup.contains field = true
  indexed : lookup.indexed field = true
  typed : ∃ declared, lookup.declared field = some declared ∧ FieldType.ofName? declared = some type
  filterable : type.isFilterable = true

namespace Leaf

variable {lookup : Lookup} {l : Leaf} {type : FieldType} {e : QueryError}

/-- The field, the operator and the number of values fit together. -/
def Checked (lookup : Lookup) (l : Leaf) (type : FieldType) : Prop :=
  lookup.Filterable l.field type ∧ type.allows l.operator = true ∧
    (l.operand.isList = true → l.operator = .eq ∨ l.operator = .ne)

/-- **A leaf that can be lowered.** -/
def Acceptable (lookup : Lookup) (l : Leaf) : Prop :=
  (∃ type, l.Checked lookup type) ∧ (l.operator = .present → ∃ b, l.operand = .single (.bool b))

/-- **Why a leaf is refused**: its field is not known, or a condition on it is refused, or its value
does not tell presence. -/
inductive Refused (lookup : Lookup) (l : Leaf) : QueryError → Prop where
  | unknown (missing : lookup.contains l.field = false) : Refused lookup l (.unknownField l.field)
  | condition {e : QueryError} (known : lookup.contains l.field = true)
      (reason : lookup.Refuses l.field l.operator l.operand.isList e) : Refused lookup l e
  | flag {type : FieldType} (checked : l.Checked lookup type) (present : l.operator = .present)
      (missing : ∀ b, l.operand ≠ .single (.bool b)) : Refused lookup l l.notBoolean

theorem check_eq_ok_iff :
    lookup.check l.field l.operator l.operand.isList = .ok type ↔ l.Checked lookup type := by
  rw [Lookup.check_eq_ok, Lookup.Permits, Operator.acceptsList_iff]
  constructor
  · rintro ⟨known, declared, hdeclared, indexed, hfilterable, allows, list⟩
    obtain ⟨hname, filterable⟩ := Option.filter_eq_some_iff.1 hfilterable
    exact ⟨⟨known, indexed, ⟨declared, hdeclared, hname⟩, filterable⟩, allows, list⟩
  · rintro ⟨⟨known, indexed, ⟨declared, hdeclared, hname⟩, filterable⟩, allows, list⟩
    exact ⟨known, declared, hdeclared, indexed, Option.filter_eq_some_iff.2 ⟨hname, filterable⟩,
      allows, list⟩

theorem Checked.acceptsList (h : l.Checked lookup type) (hlist : l.operand.isList = true) :
    l.operator.acceptsList = true :=
  Operator.acceptsList_iff.2 (h.2.2 hlist)

theorem lower_ok_iff : (∃ q, l.lower lookup = .ok q) ↔ l.Acceptable lookup := by
  constructor
  · rintro ⟨q, hq⟩
    obtain ⟨type, occur, test, htype, htest, -⟩ := lower_eq_ok.1 hq
    have hcheck := check_eq_ok_iff.1 htype
    refine ⟨⟨type, hcheck⟩, fun hop => ?_⟩
    by_contra hflag
    have herror : l.test type = .error l.notBoolean :=
      (test_eq_error hcheck.acceptsList).2 ⟨hop, not_exists.1 hflag, rfl⟩
    rw [htest] at herror
    simp at herror
  · rintro ⟨⟨type, hcheck⟩, hflag⟩
    obtain ⟨r, hr⟩ := test_ok l type hcheck.acceptsList hflag
    exact ⟨_, lower_eq_ok.2 ⟨type, r.1, r.2, check_eq_ok_iff.2 hcheck, hr, rfl⟩⟩

theorem lower_eq_error : l.lower lookup = .error e ↔ l.Refused lookup e := by
  unfold lower
  rw [bind_eq_error, Lookup.check_eq_error]
  constructor
  · rintro ((⟨missing, rfl⟩ | ⟨known, reason⟩) | ⟨type, htype, h⟩)
    · exact .unknown missing
    · exact .condition known reason
    · have hcheck := check_eq_ok_iff.1 htype
      have htest := bind_pure_eq_error.1 h
      obtain ⟨hop, hnone, rfl⟩ := (test_eq_error hcheck.acceptsList).1 htest
      exact .flag hcheck hop hnone
  · intro h
    cases h with
    | unknown missing => exact .inl (.inl ⟨missing, rfl⟩)
    | condition known reason => exact .inl (.inr ⟨known, reason⟩)
    | flag checked present missing =>
      refine .inr ⟨_, check_eq_ok_iff.2 checked, bind_pure_eq_error.2 ?_⟩
      exact (test_eq_error checked.acceptsList).2 ⟨present, missing, rfl⟩

end Leaf

/-! ### Nodes in order -/

namespace Condition

mutual

/-- The conditions in a tree that lies in `depth` groups, each with the number of groups it lies in:
a group in front of its conditions, and these from left to right. -/
def placed (depth : Nat) : Condition → List (Nat × Condition)
  | .leaf l => [(depth, .leaf l)]
  | .group gate children => (depth, .group gate children) :: placedAll (depth + 1) children

/-- The conditions in several trees side by side. -/
def placedAll (depth : Nat) : List Condition → List (Nat × Condition)
  | [] => []
  | c :: rest => placed depth c ++ placedAll depth rest

end

variable {lookup : Lookup} {depth : Nat} {c : Condition} {cs : List Condition} {gate : Gate}
  {e : QueryError} {q : Clause} {ps qs : List (Nat × Condition)}

/-- The order is that of the nodes of a tree. -/
theorem map_placed : ∀ depth, (c.placed depth).map Prod.snd = c.nodes := by
  induction c using tree_induction with
  | leaf l => exact fun _ => rfl
  | group gate cs ih =>
    intro depth
    have hall : ∀ cs : List Condition, (∀ c ∈ cs, ∀ d, (c.placed d).map Prod.snd = c.nodes) →
        (placedAll (depth + 1) cs).map Prod.snd = nodesAll cs := by
      intro cs h
      induction cs with
      | nil => rfl
      | cons c cs ihs =>
        rw [placedAll, nodesAll, List.map_append, h c List.mem_cons_self,
          ihs fun c hc => h c (List.mem_cons_of_mem _ hc)]
    rw [placed, nodes, List.map_cons, hall cs ih]

/-- A node that passes: a leaf that can be lowered, or a group in at most 128 groups. -/
def Fits (lookup : Lookup) : Nat × Condition → Prop
  | (_, .leaf l) => l.Acceptable lookup
  | (depth, .group ..) => depth ≤ 128

/-- A node that does not pass, and its error. -/
def Offends (lookup : Lookup) (e : QueryError) : Nat × Condition → Prop
  | (_, .leaf l) => l.Refused lookup e
  | (depth, .group ..) => 128 < depth ∧ e = .tooDeep

/-- **The error of the first node that does not pass.** -/
def FirstOffence (lookup : Lookup) (e : QueryError) (ps : List (Nat × Condition)) : Prop :=
  ∃ before p after, ps = before ++ p :: after ∧ (∀ x ∈ before, Fits lookup x) ∧ Offends lookup e p

theorem not_firstOffence_nil : ¬FirstOffence lookup e [] := by simp [FirstOffence]

theorem firstOffence_cons {p : Nat × Condition} :
    FirstOffence lookup e (p :: ps) ↔
      Offends lookup e p ∨ Fits lookup p ∧ FirstOffence lookup e ps := by
  constructor
  · rintro ⟨before, x, after, h, hfits, hx⟩
    cases before with
    | nil =>
      obtain ⟨rfl, -⟩ := List.cons.inj h
      exact .inl hx
    | cons y before =>
      obtain ⟨rfl, rfl⟩ := List.cons.inj h
      obtain ⟨hp, hrest⟩ := List.forall_mem_cons.1 hfits
      exact .inr ⟨hp, before, x, after, rfl, hrest, hx⟩
  · rintro (hp | ⟨hp, before, x, after, rfl, hfits, hx⟩)
    · exact ⟨[], p, ps, rfl, by simp, hp⟩
    · exact ⟨p :: before, x, after, rfl, List.forall_mem_cons.2 ⟨hp, hfits⟩, hx⟩

theorem firstOffence_append : FirstOffence lookup e (ps ++ qs) ↔
    FirstOffence lookup e ps ∨ (∀ p ∈ ps, Fits lookup p) ∧ FirstOffence lookup e qs := by
  induction ps with
  | nil => simp [not_firstOffence_nil]
  | cons p ps ih =>
    rw [List.cons_append, firstOffence_cons, firstOffence_cons, ih, List.forall_mem_cons]
    tauto

/-! ### Lowering at a depth -/

/-- What lowering says of a tree, wherever it lies: it passes if all its nodes do, and else has the
first error. -/
def Decided (lookup : Lookup) (c : Condition) : Prop :=
  ∀ depth, ((∃ q, c.lowerAt lookup depth = .ok q) ↔ ∀ p ∈ c.placed depth, Fits lookup p) ∧
    ∀ e, c.lowerAt lookup depth = .error e ↔ FirstOffence lookup e (c.placed depth)

theorem decided_leaf (l : Leaf) : (leaf l).Decided lookup := by
  intro depth
  have hplaced : (leaf l).placed depth = [(depth, .leaf l)] := by rw [placed]
  have hlower : (leaf l).lowerAt lookup depth = l.lower lookup := by rw [lowerAt]
  rw [hplaced, hlower]
  refine ⟨by simp [Leaf.lower_ok_iff, Fits], fun e => ?_⟩
  simp [Leaf.lower_eq_error, firstOffence_cons, not_firstOffence_nil, Offends]

/-- Conditions side by side: the first error counts, whichever of them it is in. -/
theorem lowerAll_decided (depth : Nat) (h : ∀ c ∈ cs, c.Decided lookup) :
    ((∃ qs, lowerAll lookup depth cs = .ok qs) ↔ ∀ p ∈ placedAll depth cs, Fits lookup p) ∧
      ∀ e, lowerAll lookup depth cs = .error e ↔ FirstOffence lookup e (placedAll depth cs) := by
  induction cs with
  | nil => simp [lowerAll, placedAll, not_firstOffence_nil]
  | cons c cs ih =>
    obtain ⟨hok, herror⟩ := h c List.mem_cons_self depth
    obtain ⟨hoks, herrors⟩ := ih fun c hc => h c (List.mem_cons_of_mem _ hc)
    have hbind : lowerAll lookup depth (c :: cs) =
        (c.lowerAt lookup depth).bind fun q => (lowerAll lookup depth cs).map (q :: ·) := by
      rw [lowerAll]
      cases c.lowerAt lookup depth <;> cases lowerAll lookup depth cs <;> rfl
    -- all is said by now of the two results, so their cases decide it
    rw [hbind, placedAll, List.forall_mem_append, ← hok, ← hoks]
    simp only [firstOffence_append, ← hok, ← herror, ← herrors]
    cases c.lowerAt lookup depth <;> cases lowerAll lookup depth cs <;>
      simp [Except.bind, Except.map]

/-- A group that is too deep offends before anything in it. -/
theorem decided_group (h : ∀ c ∈ cs, c.Decided lookup) : (group gate cs).Decided lookup := by
  intro depth
  obtain ⟨hoks, herrors⟩ := lowerAll_decided (depth + 1) h
  have hlower : (group gate cs).lowerAt lookup depth =
      if depth ≤ 128 then (lowerAll lookup (depth + 1) cs).map (.bool gate.occur ·)
      else .error .tooDeep := by
    rw [lowerAt]
    cases lowerAll lookup (depth + 1) cs <;> rfl
  rw [hlower, placed, List.forall_mem_cons, ← hoks]
  simp only [firstOffence_cons, ← herrors, Fits, Offends]
  by_cases hdepth : depth ≤ 128
  · have hroom : ¬128 < depth := by omega
    cases lowerAll lookup (depth + 1) cs <;> simp [hdepth, hroom, Except.map]
  · have hdeep : 128 < depth := by omega
    simp [hdepth, hdeep, eq_comm]

theorem decided (lookup : Lookup) (c : Condition) : c.Decided lookup := by
  induction c using tree_induction with
  | leaf l => exact decided_leaf l
  | group gate cs ih => exact decided_group ih

end Condition

/-! ### The fields of a clause -/

/-- **All tests in a clause** are on fields with the property. -/
inductive Clause.EveryField (p : String → Prop) : Clause → Prop where
  | term {field : String} {v : Scalar} (on : p field) : EveryField p (.term field v)
  | terms {field : String} {vs : List Scalar} (on : p field) : EveryField p (.terms field vs)
  | range {field : String} {bound : Bound} {v : Scalar} (on : p field) :
      EveryField p (.range field bound v)
  | present {field : String} (on : p field) : EveryField p (.present field)
  | nested {path : String} {q : Clause} (query : EveryField p q) : EveryField p (.nested path q)
  | bool {occur : Occur} {qs : List Clause} (parts : ∀ q ∈ qs, EveryField p q) :
      EveryField p (.bool occur qs)

section EveryField

variable {lookup : Lookup} {p : String → Prop} {q : Clause}

theorem Leaf.equality_everyField {l : Leaf} (type : FieldType) (hp : p l.field) :
    (test.equality l type).EveryField p := by
  unfold test.equality
  split
  · split
    · exact .terms hp
    · exact .term hp
  · exact .terms hp

/-- A leaf is tested on its field. -/
theorem Leaf.test_everyField {l : Leaf} {type : FieldType} {occur : Occur}
    (h : l.test type = .ok (occur, q)) (hp : p l.field) : q.EveryField p := by
  obtain ⟨field, op, operand⟩ := l
  cases op with
  | eq =>
    obtain ⟨-, rfl⟩ := Prod.mk.inj (Except.ok.inj h)
    exact equality_everyField type hp
  | ne =>
    obtain ⟨-, rfl⟩ := Prod.mk.inj (Except.ok.inj h)
    exact equality_everyField type hp
  | present =>
    obtain ⟨b, -, -, rfl⟩ := present_eq_ok h
    exact .present hp
  | _ =>
    obtain ⟨v, -, -, rfl⟩ := range_eq_ok h
    exact .range hp

theorem Leaf.lower_everyField {l : Leaf} (h : l.lower lookup = .ok q) (hp : p l.field) :
    q.EveryField p := by
  obtain ⟨type, occur, test, -, htest, rfl⟩ := lower_eq_ok.1 h
  have hbool : (Clause.bool occur [test]).EveryField p := by
    refine .bool fun q hq => ?_
    rw [List.mem_singleton.1 hq]
    exact test_everyField htest hp
  unfold nest
  split
  · exact .nested hbool
  · exact hbool

/-- **The clause of a tree tests the fields of its leaves only.** -/
theorem Condition.lowerAt_everyField {c : Condition} (hp : c.EveryLeaf fun l => p l.field) :
    ∀ depth q, c.lowerAt lookup depth = .ok q → q.EveryField p := by
  induction c using tree_induction with
  | leaf l =>
    intro depth q hq
    rw [lowerAt] at hq
    exact Leaf.lower_everyField hq (everyLeaf_leaf.1 hp)
  | group gate cs ih =>
    intro depth q hq
    obtain ⟨-, qs, hqs, rfl⟩ := lowerAt_group_eq_ok.1 hq
    refine .bool fun q hq => ?_
    obtain ⟨c, hc, hcq⟩ := mem_lowerAll hqs hq
    exact ih c hc (everyLeaf_group.1 hp c hc) _ q hcq

end EveryField

/-- **Lowering is decided by the nodes of a tree.** A tree can be lowered exactly if each of its
groups lies in at most 128 groups and each of its leaves is acceptable. Otherwise the error is that
of the first node that does not pass, a group coming before what is in it. The clause of a tree that
passes tests only fields that are known, indexed, and of a type that conditions can be put on. -/
theorem lower_decided_by_nodes (lookup : Lookup) (c : Condition) :
    ((∃ q, c.lower lookup = .ok q) ↔ ∀ p ∈ c.placed 0, Condition.Fits lookup p) ∧
    (∀ e, c.lower lookup = .error e ↔ Condition.FirstOffence lookup e (c.placed 0)) ∧
    ∀ q, c.lower lookup = .ok q →
      q.EveryField fun field => ∃ type, lookup.Filterable field type := by
  obtain ⟨hok, herror⟩ := c.decided lookup 0
  refine ⟨hok, herror, fun q hq => Condition.lowerAt_everyField ?_ 0 q hq⟩
  intro l hl
  rw [← Condition.map_placed 0] at hl
  obtain ⟨⟨depth, _⟩, hp, rfl⟩ := List.mem_map.1 hl
  have hfits : l.Acceptable lookup := hok.1 ⟨q, hq⟩ _ hp
  obtain ⟨⟨type, hchecked⟩, -⟩ := hfits
  exact ⟨type, hchecked.1⟩

set_option maxRecDepth 2000 in
/-- A presence test of a text is refused where it stands in front of a group that is too deep, but
not inside that group, which is refused first. -/
theorem lower_decided_by_nodes_deep :
    let nested : Condition := .leaf ⟨"a.b", .ne, .list [.text "x"]⟩
    let bad : Leaf := ⟨"c", .present, .single (.text "x")⟩
    let deep : Condition := Nat.repeat (fun c => .group .and [c]) 129 (.leaf bad)
    (∃ q, (Condition.group .or [nested]).lower .allKeyword = .ok q ∧
      q.EveryField fun field => ∃ type, Lookup.allKeyword.Filterable field type) ∧
    Condition.FirstOffence .allKeyword bad.notBoolean
      ((Condition.group .or [nested, .leaf bad, deep]).placed 0) ∧
    Condition.FirstOffence .allKeyword .tooDeep ((Condition.group .or
        [nested, deep, .leaf bad]).placed 0) := by
  intro nested bad deep
  refine ⟨⟨_, rfl, (lower_decided_by_nodes _ (.group .or [nested])).2.2 _ rfl⟩, ?_, ?_⟩
  · exact ((lower_decided_by_nodes _ _).2.1 _).1 rfl
  · exact ((lower_decided_by_nodes _ _).2.1 _).1 rfl

end Sift
