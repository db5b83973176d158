import Sift.Request
import Sift.Proofs.Grammar
import Sift.Proofs.Leaf

/-!
# Reading and lowering agree

Leaves are checked against the fields twice: when a filter is read, and again when its tree is
lowered. The depth of groups is counted twice as well. These lemmas show that the second checks
never refuse what the first ones let pass, so a request whose filter has been read can only fail for
its options or its aggregation.

* `Leaf.lower_ok`: a leaf that has been read on a known field can be lowered.
* `lowerAt_ok`: the conditions of an expression can be lowered, at any depth at which it may stand.
* `Engine.Reads`: a request up to its tree.
* `reading_lowering_agree`: **what is read can be lowered**, and which errors are left.
-/

namespace Sift

/-! ### Lowering what has been read -/

namespace Leaf

/-- A leaf is lowered by the test of its type. -/
theorem lower_eq_ok {l : Leaf} {lookup : Lookup} {q : Clause} :
    l.lower lookup = .ok q ↔ ∃ type occur test,
    lookup.check l.field l.operator l.operand.isList = .ok type ∧ l.test type = .ok (occur, test) ∧
      q = l.nest (.bool occur [test]) := by
  unfold lower
  simp only [bind_eq_ok, Prod.exists, pure, Except.pure, Except.ok.injEq]
  constructor
  · rintro ⟨type, htype, occur, test, htest, rfl⟩
    exact ⟨type, occur, test, htype, htest, rfl⟩
  · rintro ⟨type, occur, test, htype, htest, rfl⟩
    exact ⟨type, htype, occur, test, htest, rfl⟩

/-- Where lists stand only with operators that take them, the only thing that a test can lack is the
flag of a presence test. -/
theorem test_eq_error {l : Leaf} {type : FieldType} {e : QueryError}
    (hlist : l.operand.isList = true → l.operator.acceptsList = true) : l.test type = .error e ↔
      l.operator = .present ∧ (∀ b, l.operand ≠ .single (.bool b)) ∧ e = l.notBoolean := by
  obtain ⟨field, op, operand⟩ := l
  cases operand with
  | list vs =>
    have hop : op.acceptsList = true := hlist rfl
    cases op <;> simp [Operator.acceptsList, test] at hop ⊢
  | single v =>
    cases op with
    | present => rcases v with (_ | _) | x | s <;> simp [test, Operand.values, eq_comm]
    | _ => simp [test, test.range]

/-- A test can be made where lists stand only with operators that take them, and presence has a
flag. -/
theorem test_ok (l : Leaf) (type : FieldType)
    (hlist : l.operand.isList = true → l.operator.acceptsList = true)
    (hflag : l.operator = .present → ∃ b, l.operand = .single (.bool b)) :
    ∃ r, l.test type = .ok r := by
  cases htest : l.test type with
  | ok r => exact ⟨r, rfl⟩
  | error e =>
    obtain ⟨hop, hnone, -⟩ := (test_eq_error hlist).1 htest
    obtain ⟨b, hb⟩ := hflag hop
    exact absurd hb (hnone b)

/-- **A leaf that has been read on a known field can be lowered.** -/
theorem lower_ok {ctx : Context} {field text : String} {op : Operator} {l : Leaf}
    (known : ctx.lookup.contains field = true) (h : ctx.leaf field op text = .ok l) :
    ∃ q, l.lower ctx.lookup = .ok q := by
  obtain ⟨type, v, htype, hv, rfl⟩ := Context.leaf_eq_ok.1 h
  have hisList := Context.operand_isList hv
  have hlist := htype.acceptsList
  have hcheck : ctx.lookup.check field op v.isList = .ok type := by
    rw [hisList]
    exact Lookup.check_eq_ok.2 ⟨known, htype⟩
  have hflag : op = .present → ∃ b, v = .single (.bool b) := by
    rintro rfl
    have hno : Context.isListText text = false := by simpa [Operator.acceptsList] using hlist
    obtain ⟨x, hx, rfl⟩ := Context.operand_single hno hv
    obtain ⟨b, rfl⟩ := Context.scalar_present hx
    exact ⟨b, rfl⟩
  obtain ⟨r, hr⟩ := test_ok ⟨field, op, v⟩ type (by rw [hisList]; exact hlist) hflag
  exact ⟨_, bind_eq_ok.2 ⟨type, hcheck, bind_eq_ok.2 ⟨r, hr, rfl⟩⟩⟩

end Leaf

namespace Condition

variable {lookup : Lookup} {depth : Nat}

theorem lowerAll_ok {cs : List Condition} (h : ∀ c ∈ cs, ∃ q, c.lowerAt lookup depth = .ok q) :
    ∃ qs, lowerAll lookup depth cs = .ok qs := by
  induction cs with
  | nil => exact ⟨[], rfl⟩
  | cons c cs ih =>
    obtain ⟨q, hq⟩ := h c List.mem_cons_self
    obtain ⟨qs, hqs⟩ := ih fun c hc => h c (List.mem_cons_of_mem _ hc)
    exact ⟨q :: qs, bind_eq_ok.2 ⟨q, hq, bind_eq_ok.2 ⟨qs, hqs, rfl⟩⟩⟩

/-- The clause of a group, from those of the conditions in it. -/
theorem lowerAt_group_eq_ok {gate : Gate} {cs : List Condition} {q : Clause} :
    (group gate cs).lowerAt lookup depth = .ok q ↔
      depth ≤ Filter.maxDepth ∧ ∃ qs, lowerAll lookup (depth + 1) cs = .ok qs ∧
        q = .bool gate.occur qs := by
  unfold lowerAt
  by_cases hd : depth ≤ Filter.maxDepth
  · rw [if_pos hd, bind_eq_ok]
    simp only [hd, true_and, pure, Except.pure, Except.ok.injEq, eq_comm]
  · simp [hd]

theorem lowerAt_group_ok {gate : Gate} {cs : List Condition} (hd : depth ≤ Filter.maxDepth)
    (h : ∀ c ∈ cs, ∃ q, c.lowerAt lookup (depth + 1) = .ok q) :
    ∃ q, (group gate cs).lowerAt lookup depth = .ok q := by
  obtain ⟨qs, hqs⟩ := lowerAll_ok h
  exact ⟨_, lowerAt_group_eq_ok.2 ⟨hd, qs, hqs, rfl⟩⟩

end Condition

namespace Filter

variable {ctx : Context} {d : Nat} {ts : List Token} {es : List Entry} {t : Condition}

/-- **The conditions of an expression can be lowered** at every depth that leaves room for the
groups in them. The grammar counts the levels below, lowering counts those above, and the sum stays
within the limit. -/
theorem lowerAt_ok (h : Expression ctx d ts es) :
    ∀ c ∈ conditionsOf es, ∀ k, k + d ≤ maxDepth + 1 → ∃ q, c.lowerAt ctx.lookup k = .ok q := by
  induction h with
  | empty => simp
  | gate g _ ih => simpa using ih
  | comparison known value leaf _ ih =>
    intro c hc k hk
    rcases List.mem_cons.1 hc with rfl | hc
    · unfold Condition.lowerAt
      exact Leaf.lower_ok known leaf
    · exact ih c hc k hk
  | group body rest ihb ih =>
    intro c hc k hk
    rcases List.mem_cons.1 hc with rfl | hc
    · -- one more level above the conditions of this group, one less below them
      exact Condition.lowerAt_group_ok (by omega) fun c hc => ihb c hc (k + 1) (by omega)
    · exact ih c hc k hk

/-- The tree of accepted tokens can be lowered. -/
theorem lower_ok_of_ofTokens (h : ofTokens ctx ts = .ok t) : ∃ q, t.lower ctx.lookup = .ok q := by
  obtain ⟨es, hx, rfl⟩ := expression_of_ofTokens h
  exact Condition.lowerAt_group_ok (Nat.zero_le _) fun c hc => lowerAt_ok hx c hc 1 (by omega)

end Filter

/-! ### The errors that are left -/

/-- The errors of options that no document can be made with. -/
theorem Options.validate_error {o : Options} {e : QueryError} (h : o.validate = .error e) :
    e = .invalidFixedInterval ∨ e = .invalidSize ∨ e = .invalidInterval := by
  unfold Options.validate at h
  split at h
  · exact .inl (Except.error.inj h).symm
  · split at h
    · exact .inr (.inl (Except.error.inj h).symm)
    · split at h
      · exact .inr (.inr (Except.error.inj h).symm)
      · simp at h

/-- The errors of aggregations that cannot be run on a field. -/
theorem Lookup.checkAggregation_error {lookup : Lookup} {name field : String} {e : QueryError}
    (h : lookup.checkAggregation name field = .error e) :
    e = .fieldNotFound field ∨ e = .unknownAggregation name ∨
      ∃ declared, e = .aggregationNotAllowed name declared := by
  unfold Lookup.checkAggregation at h
  split at h
  · exact .inl (Except.error.inj h).symm
  next declared _ =>
    split at h
    · exact .inr (.inl (Except.error.inj h).symm)
    · split at h
      · simp at h
      · exact .inr (.inr ⟨declared, (Except.error.inj h).symm⟩)

/-- The errors of the aggregation that options ask for. -/
theorem Options.aggregationBody_error {o : Options} {lookup : Lookup} {e : QueryError}
    (h : o.aggregationBody lookup = .error e) :
    e = .incompleteAggregation ∨ (∃ field, e = .fieldNotFound field) ∨
      (∃ name, e = .unknownAggregation name) ∨
      ∃ name declared, e = .aggregationNotAllowed name declared := by
  unfold Options.aggregationBody at h
  split at h
  next name field _ _ =>
    have hcheck := bind_pure_eq_error.1 h
    rcases Lookup.checkAggregation_error hcheck with rfl | rfl | ⟨declared, rfl⟩
    · exact .inr (.inl ⟨field, rfl⟩)
    · exact .inr (.inr (.inl ⟨name, rfl⟩))
    · exact .inr (.inr (.inr ⟨name, declared, rfl⟩))
  · exact .inl (Except.error.inj h).symm

namespace Document

variable {lookup : Lookup} {o : Options} {c : Condition} {q : Clause}

/-- The errors of the document of a tree that can be lowered. -/
theorem ofCondition_error {e : QueryError} (hq : c.lower lookup = .ok q)
    (h : ofCondition lookup o c = .error e) :
    o.validate = .error e ∨ o.queryType = .aggregation ∧ o.aggregationBody lookup = .error e := by
  unfold ofCondition at h
  rcases bind_eq_error.1 h with h | ⟨-, -, h⟩
  · exact .inl h
  rw [hq] at h
  simp only [bind, Except.bind, pure, Except.pure] at h
  cases ht : o.queryType with
  | search => simp [ht] at h
  | count => simp [ht] at h
  | aggregation =>
    cases hb : o.aggregationBody lookup with
    | error e' => exact .inr ⟨rfl, by simpa [ht, hb] using h⟩
    | ok body => simp [ht, hb] at h

/-- Without an aggregation, valid options and a tree that can be lowered make a document. -/
theorem ofCondition_ok (hq : c.lower lookup = .ok q) (hv : o.validate = .ok ())
    (ht : o.queryType ≠ .aggregation) : ∃ document, ofCondition lookup o c = .ok document := by
  unfold ofCondition
  rw [hv, hq]
  cases hty : o.queryType with
  | search => exact ⟨_, rfl⟩
  | count => exact ⟨_, rfl⟩
  | aggregation => exact absurd hty ht

/-- **The document of a tree**: its options are valid, its clause is that of the tree, and the rest
is what the options ask for. -/
theorem ofCondition_eq_ok {d : Document} : ofCondition lookup o c = .ok d ↔
    o.validate = .ok () ∧ c.lower lookup = .ok d.query ∧
      (o.queryType = .count ∧ d = .count d.query ∨
        o.queryType = .search ∧ d = .search d.query o.size ∨
        o.queryType = .aggregation ∧
          ∃ body, o.aggregationBody lookup = .ok body ∧ d = .aggregation d.query body o.size) := by
  unfold ofCondition
  simp only [bind_eq_ok]
  constructor
  · rintro ⟨⟨⟩, hvalid, q, hq, h⟩
    refine ⟨hvalid, ?_⟩
    cases ht : o.queryType with
    | count =>
      simp only [ht, pure, Except.pure] at h
      obtain rfl := Except.ok.inj h
      exact ⟨hq, .inl ⟨rfl, rfl⟩⟩
    | search =>
      simp only [ht, pure, Except.pure] at h
      obtain rfl := Except.ok.inj h
      exact ⟨hq, .inr (.inl ⟨rfl, rfl⟩)⟩
    | aggregation =>
      simp only [ht] at h
      obtain ⟨body, hbody, h⟩ := bind_eq_ok.1 h
      obtain rfl := Except.ok.inj h
      exact ⟨hq, .inr (.inr ⟨rfl, body, hbody, rfl⟩)⟩
  · rintro ⟨hvalid, hq, h⟩
    refine ⟨(), hvalid, d.query, hq, ?_⟩
    rcases h with ⟨ht, hd⟩ | ⟨ht, hd⟩ | ⟨ht, body, hbody, hd⟩
    · rw [ht, hd]
      rfl
    · rw [ht, hd]
      rfl
    · rw [ht, hd, hbody]
      rfl

end Document

/-- Without another setting dates are in UTC. -/
theorem Options.zone_utc {o : Options} (h : o.timeZone = "Z") : o.zone = .ok .utc := by
  have hread : Time.Zone.read? "Z" = some .utc := rfl
  unfold Options.zone
  rw [h, hread]
  rfl

/-- **A request up to its tree**: it is split, its options and their zone are read, and so is its
filter. -/
def Engine.Reads (e : Engine) (now : Time.Instant) (input : String) (options : Options)
    (tree : Condition) :
    Prop :=
  ∃ filter clause zone, splitRequest input = .ok (filter, clause) ∧
    Options.ofClause clause e.defaults = .ok options ∧ options.zone = .ok zone ∧
    Filter.ofText ⟨e.lookup, zone, now⟩ filter = .ok tree

namespace Engine

variable {e : Engine} {now : Time.Instant} {input : String} {options : Options} {tree : Condition}

/-- What is left of a request after its tree is the document. -/
theorem compile_of_reads (h : e.Reads now input options tree) :
    e.compile now input = do return ⟨tree, ← Document.ofCondition e.lookup options tree⟩ := by
  obtain ⟨filter, clause, zone, hsplit, hoptions, hzone, htree⟩ := h
  unfold compile
  simp only [hsplit, hoptions, hzone, htree, ok_bind]

/-- A request that compiles has been read up to its tree, and its document is that of the tree. -/
theorem reads_of_compile {r : Compiled} (h : e.compile now input = .ok r) :
    ∃ options, e.Reads now input options r.tree ∧
      Document.ofCondition e.lookup options r.tree = .ok r.document := by
  obtain ⟨⟨filter, clause⟩, hsplit, h⟩ := bind_eq_ok.1 h
  obtain ⟨options, hoptions, h⟩ := bind_eq_ok.1 h
  obtain ⟨zone, hzone, h⟩ := bind_eq_ok.1 h
  obtain ⟨tree, htree, h⟩ := bind_eq_ok.1 h
  obtain ⟨document, hdocument, h⟩ := bind_eq_ok.1 h
  obtain rfl := Except.ok.inj h
  exact ⟨options, ⟨filter, clause, zone, hsplit, hoptions, hzone, htree⟩, hdocument⟩

/-- The tree of a request can be lowered. -/
theorem lower_ok_of_reads (h : e.Reads now input options tree) :
    ∃ q, tree.lower e.lookup = .ok q := by
  obtain ⟨filter, clause, zone, -, -, -, htree⟩ := h
  exact Filter.lower_ok_of_ofTokens htree

/-- Without an aggregation, a request with valid options that has been read up to its tree
compiles. -/
theorem compile_ok_of_reads (h : e.Reads now input options tree)
    (ht : options.queryType ≠ .aggregation)
    (hv : options.validate = .ok ()) : ∃ r, e.compile now input = .ok r ∧ r.tree = tree := by
  obtain ⟨q, hq⟩ := lower_ok_of_reads h
  obtain ⟨document, hd⟩ := Document.ofCondition_ok hq hv ht
  exact ⟨⟨tree, document⟩, by rw [compile_of_reads h, hd]; rfl, rfl⟩

/-- Any other error is one of the options or of the aggregation. -/
theorem compile_error_of_reads {err : QueryError} (h : e.Reads now input options tree)
    (herr : e.compile now input = .error err) :
    options.validate = .error err ∨
      options.queryType = .aggregation ∧ options.aggregationBody e.lookup = .error err := by
  obtain ⟨q, hq⟩ := lower_ok_of_reads h
  rw [compile_of_reads h, bind_pure_eq_error] at herr
  exact Document.ofCondition_error hq herr

end Engine

/-- The codes of options that no document can be made with. -/
def optionCodes : List String := ["INVALID_FIXED_INTERVAL", "INVALID_SIZE", "INVALID_INTERVAL"]

/-- The codes of aggregations that cannot be run. -/
def aggregationCodes : List String :=
  ["MISSING_PARAMETERS", "FIELD_NOT_FOUND", "INVALID_AGGREGATION_TYPE", "AGGREGATION_NOT_ALLOWED"]

/-- **What is read can be lowered.** Every tree of accepted tokens has a clause over the same
fields. Hence a request that has been read up to its tree fails only for its options or, if it asks
for one, its aggregation, and any other request with valid options compiles. -/
theorem reading_lowering_agree :
    (∀ (ctx : Context) (ts : List Token) (t : Condition),
      Filter.ofTokens ctx ts = .ok t → ∃ q, t.lower ctx.lookup = .ok q) ∧
    ∀ (e : Engine) (now : Time.Instant) (input : String) (options : Options) (tree : Condition),
      e.Reads now input options tree →
        (∀ err, e.compile now input = .error err → err.code ∈ optionCodes ∨
          options.queryType = .aggregation ∧ err.code ∈ aggregationCodes) ∧
        (options.queryType ≠ .aggregation → options.validate = .ok () →
          ∃ r, e.compile now input = .ok r ∧ r.tree = tree) := by
  refine ⟨fun ctx ts t => Filter.lower_ok_of_ofTokens, ?_⟩
  intro e now input options tree h
  refine ⟨?_, Engine.compile_ok_of_reads h⟩
  intro err herr
  rcases Engine.compile_error_of_reads h herr with hv | ⟨ht, hb⟩
  · rcases Options.validate_error hv with rfl | rfl | rfl <;> simp [optionCodes, QueryError.code]
  · rcases Options.aggregationBody_error hb with rfl | ⟨_, rfl⟩ | ⟨_, rfl⟩ | ⟨_, _, rfl⟩ <;>
      simp [ht, aggregationCodes, QueryError.code]

/-! ### A request for one of two conditions -/

/-- Every path is an indexed keyword field. -/
def Lookup.allKeyword : Lookup := ⟨fun _ => true, fun _ => some "keyword", fun _ => true⟩

/-- The tree of `or (a = "x;y") b : true`. -/
def choiceTree : Condition :=
  .group .or [.group .and [.leaf ⟨"a", .eq, .single (.text "x;y")⟩],
    .leaf ⟨"b", .present, .single (.bool true)⟩]

theorem ofText_choice : Token.ofText "or (a = \"x;y\") b : true" =
    [.gate .or, .openGroup, .word "a", .operator .eq, .quoted "x;y", .closeGroup, .word "b",
      .operator .present, .word "true"] := by decide +kernel

theorem reads_choice (type : QueryType) :
    Engine.Reads ⟨.allKeyword, { queryType := type }⟩ ⟨0, 0⟩ "or (a = \"x;y\") b : true"
      { queryType := type } choiceTree := by
  refine ⟨"or (a = \"x;y\") b : true", "", .utc, rfl, rfl, Options.zone_utc rfl, ?_⟩
  unfold Filter.ofText
  rw [ofText_choice]
  rfl

/-- The request compiles as a search, and for want of a kind and a field fails as an aggregation. -/
theorem reading_lowering_agree_choice :
    (∃ q, choiceTree.lower .allKeyword = .ok q) ∧
    Engine.compile ⟨.allKeyword, { queryType := .aggregation }⟩ ⟨0, 0⟩ "or (a = \"x;y\") b : true" =
      .error .incompleteAggregation ∧
    (QueryError.code .incompleteAggregation ∈ optionCodes ∨ QueryType.aggregation = .aggregation ∧
      QueryError.code .incompleteAggregation ∈ aggregationCodes) ∧
    ∃ r, Engine.compile ⟨.allKeyword, {}⟩ ⟨0, 0⟩ "or (a = \"x;y\") b : true" = .ok r ∧
      r.tree = choiceTree := by
  obtain ⟨hlower, hrequest⟩ := reading_lowering_agree
  have hagg : Engine.compile ⟨.allKeyword, { queryType := .aggregation }⟩ ⟨0, 0⟩
      "or (a = \"x;y\") b : true" = .error .incompleteAggregation := by
    rw [Engine.compile_of_reads (reads_choice .aggregation)]
    rfl
  refine ⟨?_, hagg, (hrequest _ _ _ _ _ (reads_choice .aggregation)).1 _ hagg,
    (hrequest _ _ _ _ _ (reads_choice .search)).2 (by decide) rfl⟩
  apply hlower ⟨.allKeyword, .utc, ⟨0, 0⟩⟩ (Token.ofText "or (a = \"x;y\") b : true")
  rw [ofText_choice]
  rfl

end Sift
