import Sift.Condition.Operand
import Sift.Field.Check
import Sift.Proofs.Result

/-!
# Conditions that a field permits

A condition on a field is checked twice, each time by checks of its own: when it is read, and when
its leaf is lowered. Both come to the same: the field permits the condition, or refuses it for the
first requirement that is not met.

* `Lookup.Permits`, `Lookup.Refuses`: the conditions that a known field permits, and why it refuses
  others.
* `Lookup.check_eq_ok`, `Lookup.check_eq_error`: the check of a leaf, in these terms.
* `Context.leaf_of_permits`, `Context.leaf_of_refuses`: the reading of a condition, in the same
  terms.
* `Context.leaf_eq_ok`: the leaves that can be read.
* `Context.operand_isList`: a list is read exactly where the text has the form of one.
-/

namespace Sift

/-! ### Permission and refusal -/

namespace Lookup

variable {lookup : Lookup} {field : String} {op : Operator} {isList : Bool} {type : FieldType}
  {e : QueryError}

/-- **The conditions that a known field permits.** -/
def Permits (lookup : Lookup) (field : String) (op : Operator) (isList : Bool) (type : FieldType) :
    Prop :=
  ∃ declared, lookup.declared field = some declared ∧ lookup.indexed field = true ∧
    (FieldType.ofName? declared).filter FieldType.isFilterable = some type ∧
    type.allows op = true ∧ (isList = true → op.acceptsList = true)

theorem Permits.acceptsList (h : lookup.Permits field op isList type) :
    isList = true → op.acceptsList = true := by
  obtain ⟨-, -, -, -, -, hlist⟩ := h
  exact hlist

/-- **Why a condition on a known field is refused**: the first requirement that it does not meet. -/
inductive Refuses (lookup : Lookup) (field : String) (op : Operator) (isList : Bool) :
    QueryError → Prop where
  | untyped (missing : lookup.declared field = none) :
      Refuses lookup field op isList (.untypedField field)
  | unindexed {declared : String} (typed : lookup.declared field = some declared)
      (missing : lookup.indexed field = false) :
      Refuses lookup field op isList (.unindexedField field)
  | unfilterable {declared : String} (typed : lookup.declared field = some declared)
      (indexed : lookup.indexed field = true)
      (missing : (FieldType.ofName? declared).filter FieldType.isFilterable = none) :
      Refuses lookup field op isList (.unfilterableField declared field)
  | operator {declared : String} {type : FieldType}
      (typed : lookup.declared field = some declared) (indexed : lookup.indexed field = true)
      (filterable : (FieldType.ofName? declared).filter FieldType.isFilterable = some type)
      (missing : type.allows op = false) :
      Refuses lookup field op isList (.operatorNotAllowed op declared)
  | list {declared : String} {type : FieldType}
      (typed : lookup.declared field = some declared) (indexed : lookup.indexed field = true)
      (filterable : (FieldType.ofName? declared).filter FieldType.isFilterable = some type)
      (allowed : type.allows op = true) (several : isList = true)
      (missing : op.acceptsList = false) : Refuses lookup field op isList (.listNotAllowed op)

/-- A known field permits a condition or refuses it. -/
theorem permits_or_refuses (lookup : Lookup) (field : String) (op : Operator) (isList : Bool) :
    (∃ type, lookup.Permits field op isList type) ∨ ∃ e, lookup.Refuses field op isList e := by
  -- in the order of the checks: each reason needs the requirements before it to be met
  cases typed : lookup.declared field with
  | none => exact .inr ⟨_, .untyped typed⟩
  | some declared =>
    cases indexed : lookup.indexed field with
    | false => exact .inr ⟨_, .unindexed typed indexed⟩
    | true =>
      cases filterable : (FieldType.ofName? declared).filter FieldType.isFilterable with
      | none => exact .inr ⟨_, .unfilterable typed indexed filterable⟩
      | some type =>
        cases allowed : type.allows op with
        | false => exact .inr ⟨_, .operator typed indexed filterable allowed⟩
        | true =>
          by_cases hlist : isList = true → op.acceptsList = true
          · exact .inl ⟨type, declared, typed, indexed, filterable, allowed, hlist⟩
          · obtain ⟨several, missing⟩ := Classical.not_imp.1 hlist
            have hno : op.acceptsList = false := by simpa using missing
            exact .inr ⟨_, .list typed indexed filterable allowed several hno⟩

/-! ### The check of a leaf -/

theorem check_of_unknown (unknown : lookup.contains field = false) :
    lookup.check field op isList = .error (.unknownField field) := by
  unfold check
  rw [if_pos (by simp [unknown])]

theorem check_of_permits (known : lookup.contains field = true)
    (h : lookup.Permits field op isList type) : lookup.check field op isList = .ok type := by
  obtain ⟨declared, typed, indexed, filterable, allowed, hlist⟩ := h
  have hmany : ¬(isList = true ∧ ¬op.acceptsList = true) := fun ⟨h, hn⟩ => hn (hlist h)
  unfold check
  simp only [known, typed, indexed, filterable, allowed, hmany, not_true_eq_false, if_false]

theorem check_of_refuses (known : lookup.contains field = true)
    (h : lookup.Refuses field op isList e) : lookup.check field op isList = .error e := by
  unfold check
  cases h with
  | untyped typed => simp [known, typed]
  | unindexed typed indexed => simp [known, typed, indexed]
  | unfilterable typed indexed filterable => simp [known, typed, indexed, filterable]
  | operator typed indexed filterable allowed =>
    simp [known, typed, indexed, filterable, allowed]
  | list typed indexed filterable allowed several missing =>
    simp [known, typed, indexed, filterable, allowed, several, missing]

theorem check_eq_ok : lookup.check field op isList = .ok type ↔
    lookup.contains field = true ∧ lookup.Permits field op isList type := by
  constructor
  · intro h
    cases known : lookup.contains field with
    | false => cases h.symm.trans (check_of_unknown known)
    | true =>
      rcases lookup.permits_or_refuses field op isList with ⟨type', hpermits⟩ | ⟨e, hrefuses⟩
      · cases h.symm.trans (check_of_permits known hpermits)
        exact ⟨rfl, hpermits⟩
      · cases h.symm.trans (check_of_refuses known hrefuses)
  · rintro ⟨known, hpermits⟩
    exact check_of_permits known hpermits

theorem check_eq_error : lookup.check field op isList = .error e ↔
    lookup.contains field = false ∧ e = .unknownField field ∨
      lookup.contains field = true ∧ lookup.Refuses field op isList e := by
  constructor
  · intro h
    cases known : lookup.contains field with
    | false =>
      cases h.symm.trans (check_of_unknown known)
      exact .inl ⟨rfl, rfl⟩
    | true =>
      rcases lookup.permits_or_refuses field op isList with ⟨type, hpermits⟩ | ⟨e', hrefuses⟩
      · cases h.symm.trans (check_of_permits known hpermits)
      · cases h.symm.trans (check_of_refuses known hrefuses)
        exact .inr ⟨rfl, hrefuses⟩
  · rintro (⟨unknown, rfl⟩ | ⟨known, hrefuses⟩)
    · exact check_of_unknown unknown
    · exact check_of_refuses known hrefuses

end Lookup

/-! ### The reading of a condition -/

theorem orError_eq_ok {α : Type} {e : QueryError} {x : Option α} {a : α} :
    orError e x = .ok a ↔ x = some a := by
  cases x <;> simp [orError]

theorem require_eq_ok {e : QueryError} {met : Bool} : require e met = .ok () ↔ met = true := by
  cases met <;> simp [require]

namespace Context

variable {ctx : Context} {field text : String} {type : FieldType} {op : Operator} {v : Operand}
  {l : Leaf} {e : QueryError}

/-- **What the field permits is read by its value alone.** -/
theorem leaf_of_permits (h : ctx.lookup.Permits field op (isListText text) type) :
    ctx.leaf field op text = do return ⟨field, op, ← ctx.operand field type op text⟩ := by
  obtain ⟨declared, typed, indexed, filterable, allowed, -⟩ := h
  unfold leaf
  rw [typed, indexed]
  simp only [orError, ok_bind, filterable, allowed, require, if_true]

/-- **What the field refuses is not read**, for the same reason. -/
theorem leaf_of_refuses (h : ctx.lookup.Refuses field op (isListText text) e) :
    ctx.leaf field op text = .error e := by
  unfold leaf
  cases h with
  | untyped typed =>
    rw [typed]
    rfl
  | unindexed typed indexed =>
    rw [typed, indexed]
    rfl
  | unfilterable typed indexed filterable =>
    rw [typed, indexed]
    simp only [orError, ok_bind, filterable, require, if_true]
    rfl
  | operator typed indexed filterable allowed =>
    rw [typed, indexed]
    simp only [orError, ok_bind, filterable, allowed, require, if_true]
    rfl
  | list typed indexed filterable allowed several missing =>
    -- a list is refused where its items would be read
    have hoperand : ∀ type, ctx.operand field type op text = .error (.listNotAllowed op) := by
      intro type
      unfold operand
      rw [if_pos several, missing]
      rfl
    rw [typed, indexed]
    simp only [orError, ok_bind, filterable, allowed, require, if_true, hoperand]
    rfl

theorem leaf_eq_ok : ctx.leaf field op text = .ok l ↔
    ∃ type v, ctx.lookup.Permits field op (isListText text) type ∧
      ctx.operand field type op text = .ok v ∧ l = ⟨field, op, v⟩ := by
  constructor
  · intro h
    rcases ctx.lookup.permits_or_refuses field op (isListText text)
      with ⟨type, hpermits⟩ | ⟨e, hrefuses⟩
    · rw [leaf_of_permits hpermits] at h
      obtain ⟨v, hv, hl⟩ := bind_eq_ok.1 h
      exact ⟨type, v, hpermits, hv, (Except.ok.inj hl).symm⟩
    · cases h.symm.trans (leaf_of_refuses hrefuses)
  · rintro ⟨type, v, hpermits, hv, rfl⟩
    rw [leaf_of_permits hpermits, hv]
    rfl

theorem operand_single (hl : isListText text = false) (h : ctx.operand field type op text = .ok v) :
    ∃ x, ctx.scalar field type op text = .ok x ∧ v = .single x := by
  unfold operand at h
  rw [hl, if_neg Bool.false_ne_true, bind_eq_ok] at h
  obtain ⟨x, hx, hv⟩ := h
  exact ⟨x, hx, (Except.ok.inj hv).symm⟩

theorem operand_list (hl : isListText text = true) (h : ctx.operand field type op text = .ok v) :
    ∃ xs, (Text.splitOnChar '/' text.toList).mapM (ctx.item field type op text) = .ok xs ∧
      v = .list xs := by
  unfold operand at h
  rw [if_pos hl] at h
  obtain ⟨-, -, h⟩ := bind_eq_ok.1 h
  obtain ⟨xs, hxs, hv⟩ := bind_eq_ok.1 h
  exact ⟨xs, hxs, (Except.ok.inj hv).symm⟩

/-- A list is read exactly where the text has the form of one. -/
theorem operand_isList (h : ctx.operand field type op text = .ok v) :
    v.isList = isListText text := by
  cases hl : isListText text with
  | false =>
    obtain ⟨x, -, rfl⟩ := operand_single hl h
    rfl
  | true =>
    obtain ⟨xs, -, rfl⟩ := operand_list hl h
    rfl

/-- The presence operator takes a flag. -/
theorem scalar_present {x : Scalar} (h : ctx.scalar field type .present text = .ok x) :
    ∃ b, x = .bool b := by
  unfold scalar at h
  rw [if_pos rfl] at h
  cases hf : readFlag? text with
  | none => simp [hf, orError] at h
  | some b =>
    rw [hf] at h
    exact ⟨b, (Except.ok.inj h).symm⟩

end Context

end Sift
