import Sift.Proofs.Agreement

/-!
# Why a condition is refused

A condition is checked against the fields when it is read and again when its leaf is lowered, by two
chains of checks. Reading asks whether the field is known as soon as its name is there, about the
type at the value, and whether the operator takes a list only where the items are read; lowering
asks everything at once. The error is the same nonetheless. What the checks let pass can only be
refused for its value.

* `QueryError.OfValue`: the errors of values.
* `Context.leaf_error`: a condition on a known field is refused by the field or for its value.
* `Filter.ofTokens_unknown`, `Filter.ofTokens_condition`: reading a single condition.
* `check_decides_reading`: **reading refuses a condition with the error of the check, or for its
  value.**
-/

namespace Sift

variable {ctx : Context} {field text : String} {type : FieldType} {op : Operator} {v : Token}
  {e : QueryError}

/-! ### Errors of values -/

/-- **The errors of values**: no date, or a value that does not fit the field. -/
def QueryError.OfValue (field : String) (e : QueryError) : Prop :=
  e = .invalidDate ∨ ∃ value problem, e = .invalidValue value field problem

theorem orError_eq_error {α : Type} {x : Option α} {e' : QueryError} (h : orError e x = .error e') :
    e' = e := by
  cases x with
  | none => exact (Except.error.inj h).symm
  | some a => simp [orError] at h

namespace Context

theorem scalar_error (h : ctx.scalar field type op text = .error e) : e.OfValue field := by
  unfold scalar at h
  split at h
  · exact .inr ⟨_, _, orError_eq_error h⟩
  split at h
  · exact .inl (orError_eq_error h)
  split at h
  · exact .inr ⟨_, _, orError_eq_error h⟩
  · simp at h

theorem item_error {piece : List Char} (h : ctx.item field type op text piece = .error e) :
    e.OfValue field := by
  unfold item at h
  split at h
  · exact .inr ⟨_, _, (Except.error.inj h).symm⟩
  · exact scalar_error h

/-- A value that the operator takes and that cannot be read is refused as a value. -/
theorem operand_error (hlist : isListText text = true → op.acceptsList = true)
    (h : ctx.operand field type op text = .error e) : e.OfValue field := by
  unfold operand at h
  split at h
  next hl =>
    rw [require_eq_ok.2 (hlist hl), ok_bind] at h
    obtain ⟨piece, -, hpiece⟩ := of_mapM_error (bind_pure_eq_error.1 h)
    exact item_error hpiece
  · exact scalar_error (bind_pure_eq_error.1 h)

/-- **A condition on a known field is refused by the field or for its value.** -/
theorem leaf_error (h : ctx.leaf field op text = .error e) :
    ctx.lookup.Refuses field op (isListText text) e ∨ e.OfValue field := by
  rcases ctx.lookup.permits_or_refuses field op (isListText text)
    with ⟨type, hpermits⟩ | ⟨e', hrefuses⟩
  · rw [leaf_of_permits hpermits, bind_pure_eq_error] at h
    exact .inr (operand_error hpermits.acceptsList h)
  · cases h.symm.trans (leaf_of_refuses hrefuses)
    exact .inl hrefuses

end Context

/-! ### A single condition -/

namespace Filter

/-- A name that is no field is refused before anything else is looked at. -/
theorem step_unknown {cur : Level} {encl : List Level}
    (unknown : ctx.lookup.contains field = false) :
    step ctx ⟨cur, encl, .field⟩ (.word field) = .error (.unknownField field) :=
  if_neg (by simp [unknown])

/-- The value of a condition on a known field is read as the value of a leaf. -/
theorem step_value_eq {cur : Level} {encl : List Level} (value : v.value? = some text) :
    step ctx ⟨cur, encl, .value field op⟩ v =
      (ctx.leaf field op text).map fun l => ⟨cur.push (.leaf l), encl, .field⟩ := by
  simp only [step, stepValue, value]
  rfl

theorem ofTokens_unknown (unknown : ctx.lookup.contains field = false) (ts : List Token) :
    ofTokens ctx (.word field :: ts) = .error (.unknownField field) := by
  unfold ofTokens State.start
  rw [run_cons, step_unknown unknown]
  rfl

/-- Reading a single condition on a known field is reading its leaf. -/
theorem ofTokens_condition (known : ctx.lookup.contains field = true)
    (value : v.value? = some text) :
    ofTokens ctx [.word field, .operator op, v] =
      (ctx.leaf field op text).map fun l => .group .and [.leaf l] := by
  unfold ofTokens State.start
  rw [run_cons_ok (step_word known), run_cons_ok step_operator, run_cons, step_value_eq value]
  cases ctx.leaf field op text <;> rfl

end Filter

/-- **Reading refuses a condition with the error of the check, or for its value.** Take any fields,
a name, an operator, the token of a value, and a leaf with a list for its value where the text of
the token is one. If the check of that leaf fails, reading the three tokens fails with the same
error. If it passes, they are read as the group with one leaf, or refused for their value. -/
theorem check_decides_reading (ctx : Context) (field : String) (op : Operator) (v : Token)
    (text : String) (operand : Operand) (value : v.value? = some text)
    (shape : operand.isList = Context.isListText text) :
    (∀ e, ctx.lookup.check field op operand.isList = .error e →
      Filter.ofTokens ctx [.word field, .operator op, v] = .error e) ∧
    ∀ type, ctx.lookup.check field op operand.isList = .ok type →
      (∃ read, read.isList = operand.isList ∧
        Filter.ofTokens ctx [.word field, .operator op, v] =
          .ok (.group .and [.leaf ⟨field, op, read⟩])) ∨
      ∃ e, Filter.ofTokens ctx [.word field, .operator op, v] = .error e ∧ e.OfValue field := by
  rw [shape]
  constructor
  · intro e he
    -- an unknown field is refused at its name, everything else at the value
    rcases Lookup.check_eq_error.1 he with ⟨unknown, rfl⟩ | ⟨known, hrefuses⟩
    · exact Filter.ofTokens_unknown unknown _
    · rw [Filter.ofTokens_condition known value, Context.leaf_of_refuses hrefuses]
      rfl
  · intro type htype
    obtain ⟨known, hpermits⟩ := Lookup.check_eq_ok.1 htype
    rw [Filter.ofTokens_condition known value, Context.leaf_of_permits hpermits]
    cases hv : ctx.operand field type op text with
    | ok read => exact .inl ⟨read, Context.operand_isList hv, rfl⟩
    | error e => exact .inr ⟨e, rfl, Context.operand_error hpermits.acceptsList hv⟩

/-- A range of a list on a nested field that is not indexed: of three reasons to refuse it the first
one counts. On a keyword field a list passes the check, whether or not its items can be read. -/
theorem check_decides_reading_list :
    let nested : Context := ⟨⟨fun _ => true, fun _ => some "nested", fun _ => false⟩, .utc, ⟨0, 0⟩⟩
    let keyword : Context := ⟨.allKeyword, .utc, ⟨0, 0⟩⟩
    (Token.word "x/").value? = some "x/" ∧ (Operand.list []).isList = Context.isListText "x/" ∧
      nested.lookup.check "a.b" .gt true = .error (.unindexedField "a.b") ∧
      Filter.ofTokens nested [.word "a.b", .operator .gt, .word "x/"] =
        .error (.unindexedField "a.b") ∧
      keyword.lookup.check "a.b" .eq true = .ok .keyword ∧
      ((∃ read, read.isList = true ∧
        Filter.ofTokens keyword [.word "a.b", .operator .eq, .word "x/"] =
          .ok (.group .and [.leaf ⟨"a.b", .eq, read⟩])) ∨
        ∃ e, Filter.ofTokens keyword [.word "a.b", .operator .eq, .word "x/"] = .error e ∧
            e.OfValue "a.b") := by
  intro nested keyword
  have hvalue : (Token.word "x/").value? = some "x/" := by decide
  have hshape : (Operand.list []).isList = Context.isListText "x/" := by decide
  have hnested : nested.lookup.check "a.b" .gt true = .error (.unindexedField "a.b") := by rfl
  have hkeyword : keyword.lookup.check "a.b" .eq true = .ok .keyword := by rfl
  exact ⟨hvalue, hshape, hnested,
    (check_decides_reading nested _ _ _ _ _ hvalue hshape).1 _ hnested, hkeyword,
    (check_decides_reading keyword _ _ _ _ _ hvalue hshape).2 _ hkeyword⟩

end Sift
