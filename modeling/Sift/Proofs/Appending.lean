import Sift.Proofs.Refusal

/-!
# Reading tokens in two parts

Tokens are read one by one, so a filter can be cut anywhere. If the part in front of the cut is a
filter by itself, then the part behind it is read as if it stood alone, and only added to the group:
its errors are the errors of the whole. If the part in front is refused for one of its tokens,
nothing behind the cut can change that. Only a part that ends too early leaves the outcome open.

* `QueryError.AtEnd`: the errors of a filter that ends too early.
* `Token.OuterGate`: a gate outside parentheses, and `Expression.outerGate_iff`: the gates that the
  grammar sees.
* `Filter.Rejects`: why a token is refused, and `step_eq_error`: for no other reason. What has been
  read so far does not matter, only how many groups are open and what is expected.
* `complete_sameShape`: so states that agree on these refuse the same tokens.
* `error_final_iff`: an error stays, whatever is appended, exactly if the filter does not end too
  early.
* `ofTokens_append`: **reading is incremental and stops at the first error.**
-/

namespace Sift

/-- **The errors of a filter that ends too early**: in a condition, or in a group. -/
def QueryError.AtEnd : QueryError → Prop
  | .operatorMissing _ | .valueMissing .. | .unclosedGroup => True
  | _ => False

namespace Token

/-- **A gate outside parentheses**: in front of it as many groups are closed as are opened. -/
def OuterGate (ts : List Token) : Prop :=
  ∃ before g after, ts = before ++ .gate g :: after ∧
    before.count .openGroup = before.count .closeGroup

/-- Tokens whose parentheses pair up. -/
structure Balanced (ts : List Token) : Prop where
  closed : ts.count .openGroup = ts.count .closeGroup
  nested : ∀ before after, ts = before ++ after → before.count .closeGroup ≤ before.count .openGroup

/-- A token that is neither a parenthesis nor a gate. -/
def Inner (t : Token) : Prop := t ≠ .openGroup ∧ t ≠ .closeGroup ∧ ∀ g, t ≠ .gate g

variable {ts us front : List Token}

theorem inner_of_value? {t : Token} {text : String} (h : t.value? = some text) : t.Inner := by
  cases t with
  | word s => simp [Inner]
  | quoted s => simp [Inner]
  | _ => simp [value?] at h

theorem balanced_nil : Balanced [] := by
  refine ⟨rfl, fun before after h => ?_⟩
  obtain ⟨rfl, -⟩ := List.append_eq_nil_iff.1 h.symm
  exact Nat.le_refl _

theorem Balanced.append (ht : Balanced ts) (hu : Balanced us) : Balanced (ts ++ us) := by
  have hclosed := ht.closed
  refine ⟨by rw [List.count_append, List.count_append, hclosed, hu.closed],
    fun before after h => ?_⟩
  rcases List.append_eq_append_iff.1 h with ⟨middle, rfl, hus⟩ | ⟨middle, hts, -⟩
  · have hmiddle := hu.nested middle after hus
    rw [List.count_append, List.count_append]
    omega
  · exact ht.nested before middle hts

theorem Balanced.cons {t : Token} (ht : t ≠ .openGroup ∧ t ≠ .closeGroup) (hts : Balanced ts) :
    Balanced (t :: ts) := by
  refine ⟨by rw [List.count_cons_of_ne ht.1, List.count_cons_of_ne ht.2, hts.closed],
    fun before after h => ?_⟩
  cases before with
  | nil => exact Nat.le_refl _
  | cons x before =>
    obtain ⟨rfl, hrest⟩ := List.cons.inj h
    rw [List.count_cons_of_ne ht.1, List.count_cons_of_ne ht.2]
    exact hts.nested before after hrest

theorem Balanced.group (ht : Balanced ts) : Balanced (.openGroup :: (ts ++ [.closeGroup])) := by
  have hclosed := ht.closed
  refine ⟨by simp [hclosed], fun before after h => ?_⟩
  cases before with
  | nil => exact Nat.le_refl _
  | cons x before =>
    obtain ⟨rfl, hrest⟩ := List.cons.inj h
    rw [List.count_cons_self, List.count_cons_of_ne (by simp)]
    -- the group is closed by its last token only, for which the first one makes up
    rcases List.append_eq_append_iff.1 hrest with ⟨middle, rfl, hlast⟩ | ⟨middle, hts, -⟩
    · have hone := congrArg (List.count .closeGroup) hlast
      rw [List.count_singleton_self, List.count_append] at hone
      rw [List.count_append, List.count_append]
      omega
    · have hbefore := ht.nested before middle hts
      omega

/-! ### Gates outside parentheses -/

theorem not_outerGate_nil : ¬OuterGate [] := by simp [OuterGate]

theorem outerGate_append (hclosed : front.count .openGroup = front.count .closeGroup) :
    OuterGate (front ++ ts) ↔ OuterGate front ∨ OuterGate ts := by
  constructor
  · rintro ⟨before, g, after, h, hbefore⟩
    rcases List.append_eq_append_iff.1 h with ⟨middle, rfl, hts⟩ | ⟨middle, hfront, hrest⟩
    · refine .inr ⟨middle, g, after, hts, ?_⟩
      rw [List.count_append, List.count_append] at hbefore
      omega
    · cases middle with
      | nil => exact .inr ⟨[], g, after, hrest.symm, rfl⟩
      | cons x middle =>
        obtain ⟨rfl, -⟩ := List.cons.inj hrest
        exact .inl ⟨before, g, middle, hfront, hbefore⟩
  · rintro (⟨before, g, after, rfl, hbefore⟩ | ⟨before, g, after, rfl, hbefore⟩)
    · exact ⟨before, g, after ++ ts, by simp, hbefore⟩
    · refine ⟨front ++ before, g, after, by simp, ?_⟩
      rw [List.count_append, List.count_append, hclosed, hbefore]

theorem outerGate_cons {t : Token} (ht : t.Inner) : OuterGate (t :: ts) ↔ OuterGate ts := by
  have hclosed : [t].count .openGroup = [t].count .closeGroup := by
    rw [List.count_cons_of_ne ht.1, List.count_cons_of_ne ht.2.1, List.count_nil, List.count_nil]
  have hno : ¬OuterGate [t] := by
    rintro ⟨before, g, after, h, -⟩
    have hgate : .gate g ∈ [t] := by rw [h]; simp
    exact ht.2.2 g (List.mem_singleton.1 hgate).symm
  rw [← List.singleton_append, outerGate_append hclosed]
  simp only [hno, false_or]

/-- No gate in parentheses is outside of them. -/
theorem outerGate_group (ht : Balanced ts) :
    OuterGate (.openGroup :: (ts ++ .closeGroup :: us)) ↔ OuterGate us := by
  have hno : ¬OuterGate (.openGroup :: (ts ++ [.closeGroup])) := by
    rintro ⟨before, g, after, h, hbefore⟩
    cases before with
    | nil => simp at h
    | cons x before =>
      obtain ⟨rfl, hrest⟩ := List.cons.inj h
      rw [List.count_cons_self, List.count_cons_of_ne (by simp)] at hbefore
      rcases List.append_eq_append_iff.1 hrest with ⟨middle, rfl, hlast⟩ | ⟨middle, hts, -⟩
      · have hgate : .gate g ∈ [Token.closeGroup] := by rw [hlast]; simp
        simp at hgate
      · have hnested := ht.nested before middle hts
        omega
  have htokens : Token.openGroup :: (ts ++ .closeGroup :: us) =
      .openGroup :: (ts ++ [.closeGroup]) ++ us := by simp
  rw [htokens, outerGate_append ht.group.closed]
  simp only [hno, false_or]

end Token

namespace Filter

variable {ctx : Context} {d : Nat} {ts us : List Token} {es fs : List Entry} {t : Condition}
  {e : QueryError} {s s' : State}

/-! ### Expressions one after the other -/

theorem Expression.append (h : Expression ctx d ts es) (hu : Expression ctx d us fs) :
    Expression ctx d (ts ++ us) (es ++ fs) := by
  induction h with
  | empty => exact hu
  | gate g _ ih => exact .gate g (ih hu)
  | comparison known value leaf _ ih => exact .comparison known value leaf (ih hu)
  | group body _ _ ih => simpa using Expression.group body (ih hu)

theorem Expression.balanced (h : Expression ctx d ts es) : Token.Balanced ts := by
  induction h with
  | empty => exact Token.balanced_nil
  | gate g _ ih => exact ih.cons (by simp)
  | comparison _ value _ _ ih =>
    have hv := Token.inner_of_value? value
    exact ((ih.cons ⟨hv.1, hv.2.1⟩).cons (by simp)).cons (by simp)
  | group _ _ ihb ih => simpa using ihb.group.append ih

/-- **The gates of a group are the gates outside parentheses.** -/
theorem Expression.outerGate_iff (h : Expression ctx d ts es) :
    Token.OuterGate ts ↔ es.filterMap Entry.gate? ≠ [] := by
  induction h with
  | empty => simp [Token.not_outerGate_nil]
  | @gate d ts es g _ _ =>
    refine iff_of_true ⟨[], g, ts, rfl, rfl⟩ ?_
    simp [Entry.gate?]
  | comparison _ value _ _ ih =>
    rw [Token.outerGate_cons (by simp [Token.Inner]), Token.outerGate_cons (by simp [Token.Inner]),
      Token.outerGate_cons (Token.inner_of_value? value), ih]
    simp [Entry.gate?]
  | group body _ _ ih =>
    rw [Token.outerGate_group body.balanced, ih]
    simp [Entry.gate?]

theorem lastGate_append_of_gate (h : fs.filterMap Entry.gate? ≠ []) :
    lastGate (es ++ fs) = lastGate fs := by
  unfold lastGate
  rw [List.filterMap_append, List.getLast?_append, List.getLast?_eq_some_getLast h]
  rfl

theorem lastGate_append_of_no_gate (h : fs.filterMap Entry.gate? = []) :
    lastGate (es ++ fs) = lastGate es := by
  unfold lastGate
  rw [List.filterMap_append, h, List.append_nil]

theorem conditionsOf_append (es fs : List Entry) :
    conditionsOf (es ++ fs) = conditionsOf es ++ conditionsOf fs :=
  List.filterMap_append

/-! ### Why a token is refused -/

/-- **Why a token is refused** where `depth` groups are open and the given part of a condition is
expected. -/
inductive Rejects (ctx : Context) (depth : Nat) : Expected → Token → QueryError → Prop where
  | deep (full : maxDepth ≤ depth) : Rejects ctx depth .field .openGroup .tooDeep
  | unmatched (outermost : depth = 0) : Rejects ctx depth .field .closeGroup .unmatchedClose
  | sign (op : Operator) : Rejects ctx depth .field (.operator op) (.fieldMissing op)
  | unknown {field : String} (missing : ctx.lookup.contains field = false) :
      Rejects ctx depth .field (.word field) (.unknownField field)
  | quoted (text : String) :
      Rejects ctx depth .field (.quoted text) (.unknownField (Token.quoted text).shown)
  | valueFirst {field text : String} {tok : Token} (value : tok.value? = some text) :
      Rejects ctx depth (.operator field) tok .invalidOperator
  | noOperator {field : String} {tok : Token} (noValue : tok.value? = none)
      (noSign : ∀ op, tok ≠ .operator op) :
      Rejects ctx depth (.operator field) tok (.operatorExpected field tok)
  | noValue {field : String} {op : Operator} {tok : Token} (noValue : tok.value? = none) :
      Rejects ctx depth (.value field op) tok (.valueExpected field op tok)
  | value {field text : String} {op : Operator} {tok : Token} {e : QueryError}
      (value : tok.value? = some text)
      (leaf : ctx.leaf field op text = .error e) : Rejects ctx depth (.value field op) tok e

section Step

variable {cur : Level} {encl : List Level} {tok : Token} {field : String} {op : Operator}

theorem rejects_of_field (h : step ctx ⟨cur, encl, .field⟩ tok = .error e) :
    Rejects ctx encl.length .field tok e := by
  cases tok with
  | gate g => simp [step_gate] at h
  | openGroup =>
    by_cases hroom : encl.length < maxDepth
    · simp [step_open hroom] at h
    · have hdeep : step ctx ⟨cur, encl, .field⟩ .openGroup = .error .tooDeep := if_neg hroom
      exact Except.error.inj (hdeep.symm.trans h) ▸ .deep (by omega)
  | closeGroup =>
    cases encl with
    | nil => exact Except.error.inj h ▸ .unmatched rfl
    | cons outer rest => simp [step_close] at h
  | operator op => exact Except.error.inj h ▸ .sign op
  | word field =>
    cases known : ctx.lookup.contains field with
    | true => simp [step_word known] at h
    | false => exact Except.error.inj ((step_unknown known).symm.trans h) ▸ .unknown known
  | quoted text => exact Except.error.inj h ▸ .quoted text

theorem rejects_of_operator (h : step ctx ⟨cur, encl, .operator field⟩ tok = .error e) :
    Rejects ctx encl.length (.operator field) tok e := by
  cases tok with
  | operator op => simp [step_operator] at h
  | word text => exact Except.error.inj h ▸ .valueFirst rfl
  | quoted text => exact Except.error.inj h ▸ .valueFirst rfl
  | gate g => exact Except.error.inj h ▸ .noOperator rfl (by simp)
  | openGroup => exact Except.error.inj h ▸ .noOperator rfl (by simp)
  | closeGroup => exact Except.error.inj h ▸ .noOperator rfl (by simp)

theorem rejects_of_value (h : step ctx ⟨cur, encl, .value field op⟩ tok = .error e) :
    Rejects ctx encl.length (.value field op) tok e := by
  cases value : tok.value? with
  | none =>
    simp only [step, stepValue, value] at h
    exact Except.error.inj h ▸ .noValue value
  | some text =>
    rw [step_value_eq value] at h
    cases leaf : ctx.leaf field op text with
    | ok l => simp [leaf, Except.map] at h
    | error e' =>
      rw [leaf] at h
      exact .value value (Except.error.inj h ▸ leaf)

/-- **A token is refused for these reasons only**, whatever has been read so far. -/
theorem step_eq_error {next : Expected} :
    step ctx ⟨cur, encl, next⟩ tok = .error e ↔ Rejects ctx encl.length next tok e := by
  constructor
  · intro h
    cases next with
    | field => exact rejects_of_field h
    | operator field => exact rejects_of_operator h
    | value field op => exact rejects_of_value h
  · intro h
    cases h with
    | deep full => exact if_neg (Nat.not_lt.2 full)
    | unmatched outermost =>
      obtain rfl := List.length_eq_zero_iff.1 outermost
      rfl
    | sign op => rfl
    | unknown missing => exact step_unknown missing
    | quoted text => rfl
    | valueFirst value => cases tok <;> simp_all [step, stepOperator, Token.value?]
    | noOperator noValue noSign => cases tok <;> simp_all [step, stepOperator, Token.value?]
    | noValue noValue => simp only [step, stepValue, noValue]
    | value value leaf =>
      rw [step_value_eq value, leaf]
      rfl

end Step

/-- No token is refused because the filter ends. -/
theorem Rejects.not_atEnd {next : Expected} {tok : Token} (h : Rejects ctx d next tok e) :
    ¬e.AtEnd := by
  cases h with
  | value _ leaf =>
    rcases Context.leaf_error leaf with hrefuses | hvalue
    · cases hrefuses <;> exact id
    · rcases hvalue with rfl | ⟨_, _, rfl⟩ <;> exact id
  | _ => exact id

/-! ### States of one shape -/

/-- Two states are **of one shape**: as many groups are open, and the same is expected. -/
structure State.SameShape (s s' : State) : Prop where
  depth : s.enclosing.length = s'.enclosing.length
  expected : s.expected = s'.expected

theorem step_error_sameShape {tok : Token} (h : s.SameShape s') (hs : step ctx s tok = .error e) :
    step ctx s' tok = .error e := by
  have hrejects := step_eq_error.1 hs
  rw [h.depth, h.expected] at hrejects
  exact step_eq_error.2 hrejects

/-- A token that leads on does so in both states, to states of one shape again. -/
theorem step_ok_sameShape {r : State} {tok : Token} (h : s.SameShape s')
    (hs : step ctx s tok = .ok r) :
    ∃ r', step ctx s' tok = .ok r' ∧ r.SameShape r' := by
  obtain ⟨cur, encl, next⟩ := s
  obtain ⟨cur', encl', next'⟩ := s'
  obtain ⟨hdepth, rfl⟩ : encl.length = encl'.length ∧ next = next' := ⟨h.depth, h.expected⟩
  cases next with
  | field =>
    rcases step_field_cases hs with
      ⟨g, rfl, rfl⟩ | ⟨rfl, hroom, rfl⟩ | ⟨outer, rest, rfl, rfl, rfl⟩ | ⟨field, rfl, known, rfl⟩
    · exact ⟨_, step_gate g, hdepth, rfl⟩
    · exact ⟨_, step_open (by omega), by simp [hdepth], rfl⟩
    · obtain ⟨outer', rest', rfl⟩ := List.exists_cons_of_length_eq_add_one hdepth.symm
      exact ⟨_, step_close, by simpa using hdepth, rfl⟩
    · exact ⟨_, step_word known, hdepth, rfl⟩
  | operator field =>
    obtain ⟨op, rfl, rfl⟩ := step_operator_cases hs
    exact ⟨_, step_operator, hdepth, rfl⟩
  | value field op =>
    obtain ⟨text, l, value, leaf, rfl⟩ := step_value_cases hs
    exact ⟨_, step_value value leaf, hdepth, rfl⟩

/-- The end of the tokens is refused for one reason too. -/
theorem finish_sameShape (h : s.SameShape s') (hfinish : finish s = .error e) :
    finish s' = .error e := by
  obtain ⟨cur, encl, next⟩ := s
  obtain ⟨cur', encl', next'⟩ := s'
  obtain ⟨hdepth, rfl⟩ : encl.length = encl'.length ∧ next = next' := ⟨h.depth, h.expected⟩
  cases next with
  | field =>
    cases encl with
    | nil => simp [finish] at hfinish
    | cons outer encl =>
      obtain ⟨outer', rest', rfl⟩ := List.exists_cons_of_length_eq_add_one hdepth.symm
      exact hfinish
  | operator field => exact hfinish
  | value field op => exact hfinish

/-- **Several tokens** are refused in states of one shape for one reason. -/
theorem complete_sameShape (h : s.SameShape s') (hs : complete ctx s ts = .error e) :
    complete ctx s' ts = .error e := by
  induction ts generalizing s s' with
  | nil => exact finish_sameShape h hs
  | cons tok ts ih =>
    rw [complete_cons] at hs ⊢
    cases hstep : step ctx s tok with
    | error e' =>
      rw [hstep] at hs
      rw [step_error_sameShape h hstep]
      exact hs
    | ok r =>
      obtain ⟨r', hstep', hshape⟩ := step_ok_sameShape h hstep
      rw [hstep] at hs
      rw [hstep']
      exact ih hshape hs

/-! ### Errors that stay -/

theorem run_not_atEnd (h : run ctx s ts = .error e) : ¬e.AtEnd := by
  induction ts generalizing s with
  | nil => simp [run, pure, Except.pure] at h
  | cons tok ts ih =>
    rw [run_cons] at h
    rcases bind_eq_error.1 h with hstep | ⟨s', -, hrest⟩
    · exact (step_eq_error.1 hstep).not_atEnd
    · exact ih hrest

theorem finish_atEnd (h : finish s = .error e) : e.AtEnd := by
  obtain ⟨cur, encl, next⟩ := s
  cases next with
  | field =>
    cases encl with
    | nil => simp [finish] at h
    | cons outer encl =>
      rw [← Except.error.inj h]
      exact trivial
  | operator field =>
    rw [← Except.error.inj h]
    exact trivial
  | value field op =>
    rw [← Except.error.inj h]
    exact trivial

/-- Every state refuses some token. -/
theorem exists_refused (ctx : Context) (s : State) : ∃ tok e, step ctx s tok = .error e := by
  obtain ⟨cur, encl, next⟩ := s
  cases next with
  | field => exact ⟨.operator .eq, _, rfl⟩
  | operator field => exact ⟨.word "", _, rfl⟩
  | value field op => exact ⟨.openGroup, _, rfl⟩

theorem run_append (s : State) (ts us : List Token) :
    run ctx s (ts ++ us) = (run ctx s ts).bind fun s' => run ctx s' us := List.foldlM_append

/-- What is appended is read from the state that the tokens in front of it lead to. -/
theorem ofTokens_append_of_run (h : run ctx .start ts = .ok s) (us : List Token) :
    ofTokens ctx (ts ++ us) = complete ctx s us := by
  unfold ofTokens complete
  rw [run_append, h]
  rfl

theorem ofTokens_append_of_error (h : run ctx .start ts = .error e) (us : List Token) :
    ofTokens ctx (ts ++ us) = .error e := by
  unfold ofTokens
  rw [run_append, h]
  rfl

/-- **The errors that stay.** An error is there whatever is appended exactly if the filter does not
end too early. -/
theorem error_final_iff (h : ofTokens ctx ts = .error e) :
    (∀ us, ofTokens ctx (ts ++ us) = .error e) ↔ ¬e.AtEnd := by
  rcases bind_eq_error.1 h with hrun | ⟨s, hrun, hfinish⟩
  · exact iff_of_true (ofTokens_append_of_error hrun) (run_not_atEnd hrun)
  · have hend : e.AtEnd := finish_atEnd hfinish
    refine iff_of_false (fun hstays => ?_) (fun hnot => hnot hend)
    -- a token that is refused after these ones gives an error of another kind
    obtain ⟨tok, e', hstep⟩ := exists_refused ctx s
    have hmore := hstays [tok]
    rw [ofTokens_append_of_run hrun, complete_cons, hstep] at hmore
    obtain rfl : e' = e := Except.error.inj hmore
    exact (step_eq_error.1 hstep).not_atEnd hend

/-! ### A filter behind a filter -/

/-- Tokens that are a filter by themselves leave no group open and nothing missing. -/
theorem run_of_ofTokens (h : ofTokens ctx ts = .ok t) :
    ∃ s, run ctx .start ts = .ok s ∧ State.start.SameShape s := by
  obtain ⟨⟨cur, encl, next⟩, hrun, hfinish⟩ := bind_eq_ok.1 h
  refine ⟨_, hrun, ?_⟩
  cases next with
  | field =>
    cases encl with
    | nil => exact ⟨rfl, rfl⟩
    | cons outer encl => simp [finish] at hfinish
  | operator field => simp [finish] at hfinish
  | value field op => simp [finish] at hfinish

theorem ofTokens_append_error (h : ofTokens ctx ts = .ok t) (hu : ofTokens ctx us = .error e) :
    ofTokens ctx (ts ++ us) = .error e := by
  obtain ⟨s, hrun, hshape⟩ := run_of_ofTokens h
  rw [ofTokens_append_of_run hrun]
  exact complete_sameShape hshape hu

theorem ofTokens_append_ok {g₁ g₂ : Gate} {c₁ c₂ : List Condition}
    (h : ofTokens ctx ts = .ok (.group g₁ c₁)) (hu : ofTokens ctx us = .ok (.group g₂ c₂)) :
    ∃ g, ofTokens ctx (ts ++ us) = .ok (.group g (c₁ ++ c₂)) ∧
      (Token.OuterGate us → g = g₂) ∧ (¬Token.OuterGate us → g = g₁) := by
  obtain ⟨es, hx, hes⟩ := expression_of_ofTokens h
  obtain ⟨fs, hy, hfs⟩ := expression_of_ofTokens hu
  obtain ⟨rfl, rfl⟩ := Condition.group.inj hes
  obtain ⟨rfl, rfl⟩ := Condition.group.inj hfs
  refine ⟨lastGate (es ++ fs), ?_, ?_, ?_⟩
  · rw [← conditionsOf_append]
    exact ofTokens_of_expression (hx.append hy)
  · intro hgate
    exact lastGate_append_of_gate (hy.outerGate_iff.1 hgate)
  · intro hgate
    exact lastGate_append_of_no_gate (Classical.not_not.1 fun hne => hgate (hy.outerGate_iff.2 hne))

end Filter

/-- **Reading is incremental and stops at the first error.** Let tokens be a filter by themselves.
Then tokens appended to them are refused with the error that they are refused with alone, or their
conditions are added to the group; the group takes their gate if they have one outside parentheses,
and keeps its own otherwise. Let tokens be refused. Then the error stays, whatever is appended,
exactly if it is none of those of a filter that ends too early. -/
theorem ofTokens_append (ctx : Context) (ts : List Token) :
    (∀ g₁ c₁, Filter.ofTokens ctx ts = .ok (.group g₁ c₁) → ∀ us,
      (∀ e, Filter.ofTokens ctx us = .error e → Filter.ofTokens ctx (ts ++ us) = .error e) ∧
      ∀ g₂ c₂, Filter.ofTokens ctx us = .ok (.group g₂ c₂) →
        ∃ g, Filter.ofTokens ctx (ts ++ us) = .ok (.group g (c₁ ++ c₂)) ∧
          (Token.OuterGate us → g = g₂) ∧ (¬Token.OuterGate us → g = g₁)) ∧
    ∀ e, Filter.ofTokens ctx ts = .error e →
      ((∀ us, Filter.ofTokens ctx (ts ++ us) = .error e) ↔ ¬e.AtEnd) := by
  refine ⟨fun g₁ c₁ h us => ⟨fun e hu => ?_, fun g₂ c₂ hu => ?_⟩, fun e h => ?_⟩
  · exact Filter.ofTokens_append_error h hu
  · exact Filter.ofTokens_append_ok h hu
  · exact Filter.error_final_iff h

/-- A gate in parentheses leaves the gate of the group as it is, one outside them does not. A
parenthesis that closes no group is refused behind a filter too, and in front of all others; a field
with nothing behind it may go on. -/
theorem ofTokens_append_gates :
    let ctx : Context := ⟨.allKeyword, .utc, ⟨0, 0⟩⟩
    let ts : List Token := [.gate .or, .word "a", .operator .eq, .word "x"]
    let us : List Token :=
      [.openGroup, .gate .and, .word "b", .operator .eq, .word "y", .closeGroup]
    let a : Condition := .leaf ⟨"a", .eq, .single (.text "x")⟩
    let b : Condition := .leaf ⟨"b", .eq, .single (.text "y")⟩
    Filter.ofTokens ctx ts = .ok (.group .or [a]) ∧
      Filter.ofTokens ctx us = .ok (.group .and [.group .and [b]]) ∧
      Filter.ofTokens ctx (ts ++ us) = .ok (.group .or [a, .group .and [b]]) ∧
      Filter.ofTokens ctx (us ++ ts) = .ok (.group .or [.group .and [b], a]) ∧
      Filter.ofTokens ctx (ts ++ [.closeGroup]) = .error .unmatchedClose ∧
      (∀ rest, Filter.ofTokens ctx (.closeGroup :: rest) = .error .unmatchedClose) ∧
      ¬∀ rest, Filter.ofTokens ctx (.word "a" :: rest) = .error (.operatorMissing "a") := by
  intro ctx ts us a b
  have hts : Filter.ofTokens ctx ts = .ok (.group .or [a]) := by rfl
  have hus : Filter.ofTokens ctx us = .ok (.group .and [.group .and [b]]) := by rfl
  have hinner : ¬Token.OuterGate us := by
    have hbody : Token.Balanced [.gate .and, .word "b", .operator .eq, .word "y"] :=
      (((Token.balanced_nil.cons (by simp)).cons (by simp)).cons (by simp)).cons (by simp)
    exact fun h => Token.not_outerGate_nil ((Token.outerGate_group hbody).1 h)
  have houter : Token.OuterGate ts := ⟨[], .or, _, rfl, rfl⟩
  have hlone : Filter.ofTokens ctx [.closeGroup] = .error .unmatchedClose := by rfl
  have hopen : Filter.ofTokens ctx [.word "a"] = .error (.operatorMissing "a") := by rfl
  obtain ⟨g, hboth, -, hkept⟩ := ((ofTokens_append ctx ts).1 _ _ hts us).2 _ _ hus
  obtain ⟨g', hboth', htaken, -⟩ := ((ofTokens_append ctx us).1 _ _ hus ts).2 _ _ hts
  obtain rfl := hkept hinner
  obtain rfl := htaken houter
  exact ⟨hts, hus, hboth, hboth', ((ofTokens_append ctx ts).1 _ _ hts _).1 _ hlone,
    ((ofTokens_append ctx [.closeGroup]).2 _ hlone).2 id,
    fun h => ((ofTokens_append ctx [.word "a"]).2 _ hopen).1 h trivial⟩

end Sift
