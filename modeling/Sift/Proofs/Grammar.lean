import Sift.Condition.Filter

/-!
# The grammar of filters

A filter is a sequence of gates, conditions and groups in parentheses:

    expression := (gate | field operator value | '(' expression ')')*

`Expression` states this grammar apart from the machine that reads filters, together with what
stands directly in each group. The machine accepts exactly the expressions whose groups do not nest
too deep, and answers with the group that the grammar gives.

* `run_expression`: over an expression, the machine only adds its entries to the group it is in.
* `continues_of_complete`: tokens that the machine accepts from any state close all groups still
  open.
* `ofTokens_iff_expression`: **the machine accepts exactly the grammar.**
-/

namespace Sift.Filter

/-- What stands directly in a group: a gate or a condition. -/
inductive Entry where
  | gate (g : Gate)
  | condition (c : Condition)

/-- The gate, if the entry is one. -/
def Entry.gate? : Entry → Option Gate
  | .gate g => some g
  | .condition _ => none

/-- The condition, if the entry is one. -/
def Entry.condition? : Entry → Option Condition
  | .gate _ => none
  | .condition c => some c

/-- The last gate among the entries of a group, `and` if there is none. -/
def lastGate (es : List Entry) : Gate := (es.filterMap Entry.gate?).getLast?.getD .and

/-- The conditions among the entries of a group, in order. -/
def conditionsOf (es : List Entry) : List Condition := es.filterMap Entry.condition?

@[simp] theorem conditionsOf_nil : conditionsOf [] = [] := rfl

@[simp] theorem conditionsOf_gate (g : Gate) (es : List Entry) :
    conditionsOf (.gate g :: es) = conditionsOf es := rfl

@[simp] theorem conditionsOf_condition (c : Condition) (es : List Entry) :
    conditionsOf (.condition c :: es) = c :: conditionsOf es := rfl

/-- The group with the given entries. -/
def groupOf (es : List Entry) : Condition := .group (lastGate es) (conditionsOf es)

/-- **The grammar of filters.** `Expression ctx d ts es` says that the tokens `ts` are an expression
with the entries `es` in which parentheses nest at most `d` deep. -/
inductive Expression (ctx : Context) : Nat → List Token → List Entry → Prop where
  | empty (d : Nat) : Expression ctx d [] []
  | gate {d : Nat} {ts : List Token} {es : List Entry} (g : Gate) (rest : Expression ctx d ts es) :
      Expression ctx d (.gate g :: ts) (.gate g :: es)
  | comparison {d : Nat} {ts : List Token} {es : List Entry} {field : String} {op : Operator}
      {v : Token} {text : String} {l : Leaf} (known : ctx.lookup.contains field = true)
      (value : v.value? = some text)
      (leaf : ctx.leaf field op text = .ok l) (rest : Expression ctx d ts es) :
      Expression ctx d (.word field :: .operator op :: v :: ts) (.condition (.leaf l) :: es)
  | group {d : Nat} {inner ts : List Token} {within es : List Entry}
      (body : Expression ctx d inner within) (rest : Expression ctx (d + 1) ts es) :
      Expression ctx (d + 1) (.openGroup :: (inner ++ .closeGroup :: ts))
        (.condition (groupOf within) :: es)

/-- The tokens `front` are the entry `e`: in front of an expression they make one with `e` first. -/
def Prepends (ctx : Context) (d : Nat) (front : List Token) (e : Entry) : Prop :=
  ∀ ts es, Expression ctx d ts es → Expression ctx d (front ++ ts) (e :: es)

variable {ctx : Context} {d : Nat} {ts : List Token} {es : List Entry} {t : Condition}

/-! ### Entries added to a group -/

/-- The group with one more entry. -/
def Level.add (l : Level) : Entry → Level
  | .gate g => { l with gate := g }
  | .condition c => l.push c

/-- The group with several more entries. -/
def Level.addAll (l : Level) (es : List Entry) : Level := es.foldl Level.add l

@[simp] theorem addAll_nil (l : Level) : l.addAll [] = l := rfl

@[simp] theorem addAll_cons (l : Level) (e : Entry) (es : List Entry) :
    l.addAll (e :: es) = (l.add e).addAll es := rfl

theorem addAll_gate (l : Level) (es : List Entry) :
    (l.addAll es).gate = (es.filterMap Entry.gate?).getLast?.getD l.gate := by
  induction es generalizing l with
  | nil => rfl
  | cons e es ih =>
    rw [addAll_cons, ih]
    cases e with
    | gate g => simp [Entry.gate?, Level.add, List.getLast?_cons]
    | condition c => simp [Entry.gate?, Level.add, Level.push]

theorem addAll_reversed (l : Level) (es : List Entry) :
    (l.addAll es).reversed = (conditionsOf es).reverse ++ l.reversed := by
  induction es generalizing l with
  | nil => rfl
  | cons e es ih =>
    rw [addAll_cons, ih]
    cases e with
    | gate g => simp [Level.add]
    | condition c => simp [Level.add, Level.push]

/-- A new group with entries added to it is the group that the grammar gives. -/
theorem addAll_condition (es : List Entry) : (Level.empty.addAll es).condition = groupOf es := by
  unfold Level.condition groupOf lastGate
  rw [addAll_gate, addAll_reversed]
  simp [Level.empty]

/-! ### What one token does -/

section Step

variable {cur outer : Level} {encl : List Level} {s : State} {tok : Token} {field : String}
  {op : Operator}

theorem step_gate (g : Gate) :
    step ctx ⟨cur, encl, .field⟩ (.gate g) = .ok ⟨cur.add (.gate g), encl, .field⟩ := rfl

theorem step_open (h : encl.length < maxDepth) :
    step ctx ⟨cur, encl, .field⟩ .openGroup = .ok ⟨.empty, cur :: encl, .field⟩ := if_pos h

theorem step_close :
    step ctx ⟨cur, outer :: encl, .field⟩ .closeGroup =
      .ok ⟨outer.add (.condition cur.condition), encl, .field⟩ := rfl

theorem step_word (known : ctx.lookup.contains field = true) :
    step ctx ⟨cur, encl, .field⟩ (.word field) = .ok ⟨cur, encl, .operator field⟩ := if_pos known

theorem step_operator :
    step ctx ⟨cur, encl, .operator field⟩ (.operator op) = .ok ⟨cur, encl, .value field op⟩ := rfl

theorem step_value {text : String} {l : Leaf} (value : tok.value? = some text)
    (leaf : ctx.leaf field op text = .ok l) :
    step ctx ⟨cur, encl, .value field op⟩ tok =
      .ok ⟨cur.add (.condition (.leaf l)), encl, .field⟩ := by
  simp only [step, stepValue, value, leaf]
  rfl

/-- The tokens that may stand where a condition starts, and what each does. -/
theorem step_field_cases (h : step ctx ⟨cur, encl, .field⟩ tok = .ok s) :
    (∃ g, tok = .gate g ∧ s = ⟨cur.add (.gate g), encl, .field⟩) ∨
    (tok = .openGroup ∧ encl.length < maxDepth ∧ s = ⟨.empty, cur :: encl, .field⟩) ∨
    (∃ outer rest, tok = .closeGroup ∧ encl = outer :: rest ∧
      s = ⟨outer.add (.condition cur.condition), rest, .field⟩) ∨
    (∃ field, tok = .word field ∧ ctx.lookup.contains field = true ∧
      s = ⟨cur, encl, .operator field⟩) := by
  cases tok with
  | gate g => exact .inl ⟨g, rfl, (Except.ok.inj h).symm⟩
  | openGroup =>
    by_cases hd : encl.length < maxDepth
    · rw [step_open hd] at h
      exact .inr (.inl ⟨rfl, hd, (Except.ok.inj h).symm⟩)
    · exact absurd (h.symm.trans (if_neg hd)) (by simp)
  | closeGroup =>
    cases encl with
    | nil => simp [step, stepField] at h
    | cons outer rest => exact .inr (.inr (.inl ⟨outer, rest, rfl, rfl, (Except.ok.inj h).symm⟩))
  | word field =>
    by_cases hk : ctx.lookup.contains field = true
    · rw [step_word hk] at h
      exact .inr (.inr (.inr ⟨field, rfl, hk, (Except.ok.inj h).symm⟩))
    · exact absurd (h.symm.trans (if_neg hk)) (by simp)
  | operator op => simp [step, stepField] at h
  | quoted text => simp [step, stepField] at h

/-- Only an operator may follow a field. -/
theorem step_operator_cases (h : step ctx ⟨cur, encl, .operator field⟩ tok = .ok s) :
    ∃ op, tok = .operator op ∧ s = ⟨cur, encl, .value field op⟩ := by
  cases tok with
  | operator op => exact ⟨op, rfl, (Except.ok.inj h).symm⟩
  | _ => simp [step, stepOperator] at h

/-- Only a value that makes a leaf may follow an operator. -/
theorem step_value_cases (h : step ctx ⟨cur, encl, .value field op⟩ tok = .ok s) :
    ∃ text l, tok.value? = some text ∧ ctx.leaf field op text = .ok l ∧
      s = ⟨cur.add (.condition (.leaf l)), encl, .field⟩ := by
  cases hv : tok.value? with
  | none => simp [step, stepValue, hv] at h
  | some text =>
    cases hl : ctx.leaf field op text with
    | error e => simp [step, stepValue, hv, hl, Except.map] at h
    | ok l =>
      rw [step_value hv hl] at h
      exact ⟨text, l, rfl, hl, (Except.ok.inj h).symm⟩

end Step

/-! ### The machine over an expression -/

theorem run_cons (s : State) (tok : Token) (ts : List Token) :
    run ctx s (tok :: ts) = (step ctx s tok).bind fun s' => run ctx s' ts := rfl

theorem run_cons_ok {s s' : State} {tok : Token} (h : step ctx s tok = .ok s') (ts : List Token) :
    run ctx s (tok :: ts) = run ctx s' ts := by
  rw [run_cons, h]; rfl

/-- **One expression.** The machine reads it to its end and adds its entries to the current group,
as long as the groups in it stay within the limit. -/
theorem run_expression (h : Expression ctx d ts es) (cur : Level) (encl : List Level)
    (hd : encl.length + d ≤ maxDepth) (after : List Token) :
    run ctx ⟨cur, encl, .field⟩ (ts ++ after) = run ctx ⟨cur.addAll es, encl, .field⟩ after := by
  induction h generalizing cur encl after with
  | empty => rfl
  | gate g _ ih =>
    rw [List.cons_append, run_cons_ok (step_gate g), ih _ _ hd, addAll_cons]
  | comparison known value leaf _ ih =>
    rw [List.cons_append, run_cons_ok (step_word known), List.cons_append,
      run_cons_ok step_operator, List.cons_append, run_cons_ok (step_value value leaf), ih _ _ hd,
      addAll_cons]
  | group body rest ihb ih =>
    -- the group in parentheses is read one level further down, where one level less is left
    rw [List.cons_append, run_cons_ok (step_open (by omega)), List.append_assoc,
      ihb _ _ (by simp only [List.length_cons]; omega), List.cons_append, run_cons_ok step_close,
      addAll_condition, ih _ _ hd, addAll_cons]

/-! ### What the machine accepts -/

/-- The condition tree when the tokens left are read from a state. -/
def complete (ctx : Context) (s : State) (ts : List Token) : QueryResult Condition := do
  finish (← run ctx s ts)

theorem complete_cons (s : State) (tok : Token) (ts : List Token) :
    complete ctx s (tok :: ts) = (step ctx s tok).bind fun s' => complete ctx s' ts := by
  unfold complete
  rw [run_cons]
  cases step ctx s tok <;> rfl

/-- **The tokens left close every open group**: an expression for the current group, then for each
group around it a closing parenthesis and one more expression. The tree is the outermost group. -/
def Closes (ctx : Context) (t : Condition) : Level → List Level → List Token → Prop
  | cur, [], ts => ∃ es, Expression ctx maxDepth ts es ∧ t = (cur.addAll es).condition
  | cur, outer :: encl, ts => ∃ inner es after, ts = inner ++ .closeGroup :: after ∧
      Expression ctx (maxDepth - (encl.length + 1)) inner es ∧
      Closes ctx t (outer.add (.condition (cur.addAll es).condition)) encl after

/-- Tokens that are one entry of the current group can be put in front. -/
theorem Closes.prepend {cur : Level} {encl : List Level} {front : List Token} {e : Entry}
    (hfront : Prepends ctx (maxDepth - encl.length) front e)
    (h : Closes ctx t (cur.add e) encl ts) :
    Closes ctx t cur encl (front ++ ts) := by
  cases encl with
  | nil =>
    obtain ⟨es, hx, rfl⟩ := h
    exact ⟨e :: es, hfront _ _ hx, rfl⟩
  | cons outer encl =>
    obtain ⟨inner, es, after, rfl, hx, hc⟩ := h
    exact ⟨front ++ inner, e :: es, after, (List.append_assoc ..).symm, hfront _ _ hx, hc⟩

/-- A group that the tokens left close can be opened by them too. -/
theorem Closes.reopen {cur : Level} {encl : List Level} (hd : encl.length < maxDepth)
    (h : Closes ctx t .empty (cur :: encl) ts) : Closes ctx t cur encl (.openGroup :: ts) := by
  obtain ⟨inner, within, after, rfl, body, hc⟩ := h
  rw [addAll_condition] at hc
  have hlevel : maxDepth - encl.length = maxDepth - (encl.length + 1) + 1 := by omega
  have hgroup : Prepends ctx (maxDepth - encl.length) (.openGroup :: (inner ++ [.closeGroup]))
      (.condition (groupOf within)) := by
    intro ts es hx
    rw [hlevel] at hx ⊢
    simpa using Expression.group body hx
  simpa using hc.prepend hgroup

/-- What the tokens left have to be, by what is expected next. -/
def Continues (ctx : Context) (t : Condition) (cur : Level) (encl : List Level) (ts : List Token) :
    Expected → Prop
  | .field => Closes ctx t cur encl ts
  | .operator field => ∃ op v text l after, ts = .operator op :: v :: after ∧ v.value? = some text ∧
      ctx.leaf field op text = .ok l ∧ Closes ctx t (cur.add (.condition (.leaf l))) encl after
  | .value field op => ∃ v text l after, ts = v :: after ∧ v.value? = some text ∧
      ctx.leaf field op text = .ok l ∧ Closes ctx t (cur.add (.condition (.leaf l))) encl after

/-- At the end of the tokens no group is open and nothing is missing. -/
theorem continues_of_finish {cur : Level} {encl : List Level} {next : Expected}
    (h : finish ⟨cur, encl, next⟩ = .ok t) : Continues ctx t cur encl [] next := by
  cases next with
  | field =>
    cases encl with
    | nil => exact ⟨[], .empty _, (Except.ok.inj h).symm⟩
    | cons outer encl => simp [finish] at h
  | operator field => simp [finish] at h
  | value field op => simp [finish] at h

/-- **Tokens accepted from any state close every open group**, by induction on the tokens. -/
theorem continues_of_complete (cur : Level) (encl : List Level) (next : Expected)
    (h : complete ctx ⟨cur, encl, next⟩ ts = .ok t) : Continues ctx t cur encl ts next := by
  induction ts generalizing cur encl next with
  | nil => exact continues_of_finish h
  | cons tok ts ih =>
    rw [complete_cons] at h
    cases hs : step ctx ⟨cur, encl, next⟩ tok with
    | error e => rw [hs] at h; simp [Except.bind] at h
    | ok s =>
      rw [hs] at h
      replace h : complete ctx s ts = .ok t := h
      cases next with
      | field =>
        obtain ⟨g, rfl, rfl⟩ | ⟨rfl, hd, rfl⟩ | ⟨outer, rest, rfl, rfl, rfl⟩ |
            ⟨field, rfl, known, rfl⟩ := step_field_cases hs
        · have hc : Closes ctx t (cur.add (.gate g)) encl ts := ih _ _ _ h
          have hgate : Prepends ctx (maxDepth - encl.length) [.gate g] (.gate g) :=
            fun _ _ hx => .gate g hx
          exact hc.prepend hgate
        · exact Closes.reopen hd (ih _ _ _ h)
        · -- nothing is added to the current group before it is closed
          have hc : Closes ctx t (outer.add (.condition cur.condition)) rest ts := ih _ _ _ h
          exact ⟨[], [], ts, rfl, .empty _, hc⟩
        · obtain ⟨op, v, text, l, after, rfl, value, leaf, hc⟩ := ih _ _ _ h
          have hleaf : Prepends ctx (maxDepth - encl.length) [.word field, .operator op, v]
              (.condition (.leaf l)) := fun _ _ hx => .comparison known value leaf hx
          exact hc.prepend hleaf
      | operator field =>
        obtain ⟨op, rfl, rfl⟩ := step_operator_cases hs
        obtain ⟨v, text, l, after, rfl, value, leaf, hc⟩ := ih _ _ _ h
        exact ⟨op, v, text, l, after, rfl, value, leaf, hc⟩
      | value field op =>
        obtain ⟨text, l, value, leaf, rfl⟩ := step_value_cases hs
        exact ⟨tok, text, l, ts, rfl, value, leaf, ih _ _ _ h⟩

/-- Tokens that the machine accepts are an expression, and the tree is its group. -/
theorem expression_of_ofTokens (h : ofTokens ctx ts = .ok t) :
    ∃ es, Expression ctx maxDepth ts es ∧ t = groupOf es := by
  obtain ⟨es, hx, rfl⟩ : Closes ctx t .empty [] ts := continues_of_complete _ _ .field h
  exact ⟨es, hx, addAll_condition es⟩

/-- The machine accepts every expression and answers with its group. -/
theorem ofTokens_of_expression (h : Expression ctx maxDepth ts es) :
    ofTokens ctx ts = .ok (groupOf es) := by
  have hrun := run_expression h .empty [] (by simp) []
  rw [List.append_nil] at hrun
  unfold ofTokens State.start
  rw [hrun, ← addAll_condition]
  rfl

/-- **The machine accepts exactly the grammar.** Tokens are accepted if and only if all of them
together are an expression whose parentheses nest within the limit. The tree is then the group of
its entries: the leaves and groups in the order of the tokens, under the last gate that stands
directly among them. -/
theorem ofTokens_iff_expression (ctx : Context) (ts : List Token) (t : Condition) :
    ofTokens ctx ts = .ok t ↔ ∃ es, Expression ctx maxDepth ts es ∧ t = groupOf es := by
  constructor
  · exact expression_of_ofTokens
  · rintro ⟨es, hx, rfl⟩
    exact ofTokens_of_expression hx

end Sift.Filter
