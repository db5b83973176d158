import Sift.Proofs.Agreement
import Sift.Proofs.Split
import Sift.Proofs.Tree

/-!
# Filters written from trees

A condition tree written as a filter and compiled as a request comes back unchanged. Texts stand in
quotes, so nothing in them can be taken for a part of the filter: four readers (the splitting of
requests, the scanning of tokens, the reading of groups and that of values) all have to pass over
them.

* `Leaf.Writable`: the leaves that a filter can be written for.
* `Leaf.Writable.leaf_ok`: the written value of such a leaf is read back as the leaf.
* `Condition.tokens_prepends`: the tokens of a tree are one entry of the grammar.
* `compile_filterText`: **a written tree compiles to itself.**
-/

namespace Sift

/-! ### Values that can be written -/

/-- A text that can stand in quotes as a single value. -/
def PlainText (s : String) : Prop := '"' ∉ s.toList ∧ '/' ∉ s.toList

instance (s : String) : Decidable (PlainText s) := inferInstanceAs (Decidable (_ ∧ _))

/-- A text that can stand in a list of values: it is not empty either, and has no blanks around
it. -/
def PlainItem (s : String) : Prop := PlainText s ∧ s ≠ "" ∧ Text.trimmed s = s

instance (s : String) : Decidable (PlainItem s) := inferInstanceAs (Decidable (_ ∧ _ ∧ _))

/-- The types whose values are taken as they are written. -/
def FieldType.isTextual (type : FieldType) : Prop :=
  type = .keyword ∨ type = .text ∨ type = .boolean

/-- The values that can be written after an operator, by the type of the field. -/
inductive Operand.Writable : FieldType → Operator → Operand → Prop where
  | text {type : FieldType} {op : Operator} (s : String) (textual : type.isTextual)
      (equality : op = .eq ∨ op = .ne) (plain : PlainText s) : Writable type op (.single (.text s))
  | texts {type : FieldType} {op : Operator} (ss : List String) (textual : type.isTextual)
      (equality : op = .eq ∨ op = .ne) (several : 2 ≤ ss.length) (plain : ∀ s ∈ ss, PlainItem s) :
      Writable type op (.list (ss.map .text))
  | flag {type : FieldType} (b : Bool) (filterable : type.isFilterable = true) :
      Writable type .present (.single (.bool b))

/-- **The leaves that a filter can be written for**: on a known, indexed field whose name is a word,
with a value that its type allows. -/
structure Leaf.Writable (lookup : Lookup) (l : Leaf) : Prop where
  name : (Token.word l.field).WellFormed
  known : lookup.contains l.field = true
  indexed : lookup.indexed l.field = true
  value : ∃ declared type, lookup.declared l.field = some declared ∧
    FieldType.ofName? declared = some type ∧ l.operand.Writable type l.operator

variable {type : FieldType} {op : Operator} {v : Operand} {s : String} {ss : List String}

theorem FieldType.isTextual.isFilterable (h : type.isTextual) : type.isFilterable = true := by
  rcases h with rfl | rfl | rfl <;> rfl

theorem FieldType.allows_of_bound?_isNone (hf : type.isFilterable = true) (hop : op.bound? = none) :
    type.allows op = true := by
  simp [FieldType.allows, hf, hop]

/-- Such a value passes the checks of its field. -/
theorem Operand.Writable.passes (h : v.Writable type op) :
    type.isFilterable = true ∧ type.allows op = true ∧
      (v.isList = true → op.acceptsList = true) := by
  cases h with
  | text _ textual equality _ =>
    have hf := textual.isFilterable
    refine ⟨hf, ?_, by simp [Operand.isList]⟩
    rcases equality with rfl | rfl <;> exact FieldType.allows_of_bound?_isNone hf rfl
  | texts _ textual equality _ _ =>
    have hf := textual.isFilterable
    rcases equality with rfl | rfl <;>
      exact ⟨hf, FieldType.allows_of_bound?_isNone hf rfl, fun _ => rfl⟩
  | flag b hf => exact ⟨hf, FieldType.allows_of_bound?_isNone hf rfl, by simp [Operand.isList]⟩

/-! ### Reading written values -/

/-- The text of several values. -/
def joined (ss : List String) : String := "/".intercalate ss

theorem joined_toList (ss : List String) :
    (joined ss).toList = ['/'].intercalate (ss.map String.toList) := by
  simp [joined]

/-- The pieces of the text of several values are these values. -/
theorem splitOnChar_joined (hne : ss ≠ []) (h : ∀ s ∈ ss, '/' ∉ s.toList) :
    Text.splitOnChar '/' (joined ss).toList = ss.map String.toList := by
  rw [Text.splitOnChar_eq_splitOn, joined_toList]
  exact List.splitOn_intercalate '/' (by simpa using h) (by simpa using hne)

/-- Two values or more make a text that is read as a list. -/
theorem isListText_joined (hlen : 2 ≤ ss.length) (h : ∀ s ∈ ss, '/' ∉ s.toList) :
    Context.isListText (joined ss) = true := by
  have hne : ss ≠ [] := by rintro rfl; simp at hlen
  have hsplit := splitOnChar_joined hne h
  cases hslash : Context.isListText (joined ss) with
  | true => rfl
  | false =>
    -- without a separator in it the text would be a single piece
    have hno : '/' ∉ (joined ss).toList := by simpa [Context.isListText] using hslash
    rw [Text.splitOnChar_eq_splitOn, List.splitOn_eq_singleton hno] at hsplit
    have hcount := congrArg List.length hsplit
    simp only [List.length_cons, List.length_nil, List.length_map] at hcount
    omega

theorem not_mem_joined {c : Char} (hc : c ≠ '/') (h : ∀ s ∈ ss, c ∉ s.toList) :
    c ∉ (joined ss).toList := by
  rw [joined_toList]
  by_cases hne : ss = []
  · simp [hne]
  refine Text.intercalate_closed (P := (c ∉ ·)) ?_ (by simpa using hne) (by simpa using h)
  intro a b ha hb
  simp [ha, hb, hc]

namespace Context

variable {ctx : Context} {field text : String}

theorem scalar_text (textual : type.isTextual) (equality : op = .eq ∨ op = .ne) :
    ctx.scalar field type op s = .ok (.text s) := by
  unfold scalar
  rcases equality with rfl | rfl <;> rcases textual with rfl | rfl | rfl <;> rfl

theorem item_text (textual : type.isTextual) (equality : op = .eq ∨ op = .ne) (hs : PlainItem s) :
    ctx.item field type op text s.toList = .ok (.text s) := by
  obtain ⟨-, hne, htrim⟩ := hs
  have htrim' : Text.trim s.toList = s.toList := by
    have := congrArg String.toList htrim
    rwa [Text.trimmed, String.toList_ofList] at this
  have hne' : s.toList ≠ [] := by simpa using hne
  unfold item
  rw [htrim']
  split
  next hnil => exact absurd hnil hne'
  next => rw [String.ofList_toList, scalar_text textual equality]

theorem operand_text (textual : type.isTextual) (equality : op = .eq ∨ op = .ne)
    (hs : PlainText s) :
    isListText s = false ∧ ctx.operand field type op s = .ok (.single (.text s)) := by
  have hno : isListText s = false := by simpa [isListText] using hs.2
  refine ⟨hno, ?_⟩
  unfold operand
  rw [hno, if_neg Bool.false_ne_true, scalar_text textual equality]
  rfl

theorem operand_texts (textual : type.isTextual) (equality : op = .eq ∨ op = .ne)
    (hlen : 2 ≤ ss.length) (hs : ∀ s ∈ ss, PlainItem s) :
    isListText (joined ss) = true ∧
      ctx.operand field type op (joined ss) = .ok (.list (ss.map .text)) := by
  have hslash : ∀ s ∈ ss, '/' ∉ s.toList := fun s h => (hs s h).1.2
  have hyes := isListText_joined hlen hslash
  have hne : ss ≠ [] := by rintro rfl; simp at hlen
  have hitems : (ss.map String.toList).mapM (ctx.item field type op (joined ss)) =
      .ok ((ss.map String.toList).map fun cs => .text (String.ofList cs)) := by
    apply mapM_ok
    intro cs hcs
    obtain ⟨s, h, rfl⟩ := List.mem_map.1 hcs
    rw [item_text textual equality (hs s h), String.ofList_toList]
  refine ⟨hyes, ?_⟩
  have hlist : require (.listNotAllowed op) op.acceptsList = .ok () := by
    rcases equality with rfl | rfl <;> rfl
  unfold operand
  rw [if_pos hyes, hlist, ok_bind, splitOnChar_joined hne hslash, hitems, ok_bind]
  simp [Function.comp_def, pure, Except.pure]

theorem operand_flag (b : Bool) : isListText (Scalar.bool b).shown = false ∧
    ctx.operand field type .present (Scalar.bool b).shown = .ok (.single (.bool b)) := by
  cases b <;> exact ⟨by decide, rfl⟩

end Context

namespace Operand

theorem token_text (s : String) :
    (single (.text s)).token = .quoted s := by simp [token, values, Scalar.shown]

theorem token_texts (ss : List String) : (list (ss.map .text)).token = .quoted (joined ss) := by
  simp [token, values, joined, Function.comp_def, Scalar.shown]

theorem token_flag (b : Bool) : (single (.bool b)).token = .word (Scalar.bool b).shown := rfl

/-- **A written value is read back**, as a list where it is one. -/
theorem Writable.operand_ok (ctx : Context) (field : String) (h : v.Writable type op) :
    ∃ text, v.token.value? = some text ∧ Context.isListText text = v.isList ∧
      ctx.operand field type op text = .ok v := by
  cases h with
  | text s textual equality plain =>
    exact ⟨s, by rw [token_text]; rfl, Context.operand_text textual equality plain⟩
  | texts ss textual equality several plain =>
    exact ⟨joined ss, by rw [token_texts]; rfl,
      Context.operand_texts textual equality several plain⟩
  | flag b _ =>
    refine ⟨(Scalar.bool b).shown, ?_, Context.operand_flag b⟩
    rw [token_flag]
    cases b <;> rfl

/-- A written value is scanned back. -/
theorem Writable.token_wellFormed (h : v.Writable type op) : v.token.WellFormed := by
  cases h with
  | text _ _ _ plain =>
    rw [token_text]
    exact plain.1
  | texts _ _ _ _ plain =>
    rw [token_texts]
    exact not_mem_joined (by decide) fun s hs => (plain s hs).1.1
  | flag b _ =>
    rw [token_flag]
    cases b <;> exact ⟨by decide, by decide, by decide⟩

end Operand

namespace Leaf.Writable

variable {lookup : Lookup} {l : Leaf}

/-- **The written value of a leaf makes the leaf.** -/
theorem leaf_ok {ctx : Context} (h : l.Writable ctx.lookup) :
    ∃ text, l.operand.token.value? = some text ∧ ctx.leaf l.field l.operator text = .ok l := by
  obtain ⟨declared, type, hdeclared, htype, hv⟩ := h.value
  obtain ⟨hf, hallows, hlist⟩ := hv.passes
  obtain ⟨text, hvalue, hisList, hoperand⟩ := hv.operand_ok ctx l.field
  refine ⟨text, hvalue, Context.leaf_eq_ok.2 ⟨type, l.operand, ?_, hoperand, rfl⟩⟩
  refine ⟨declared, hdeclared, h.indexed, ?_, hallows, by rwa [hisList]⟩
  simp [htype, hf]

theorem tokens_wellFormed (h : l.Writable lookup) : ∀ tok ∈ l.tokens, tok.WellFormed := by
  obtain ⟨_, _, _, _, hv⟩ := h.value
  intro tok htok
  simp only [Leaf.tokens, List.mem_cons, List.not_mem_nil, or_false] at htok
  rcases htok with rfl | rfl | rfl
  · exact h.name
  · trivial
  · exact hv.token_wellFormed

end Leaf.Writable

/-! ### Written trees -/

namespace Condition

variable {ctx : Context} {d : Nat} {c : Condition} {cs : List Condition}

theorem tokensAll_expression (h : ∀ c ∈ cs, Filter.Prepends ctx d c.tokens (.condition c)) :
    Filter.Expression ctx d (tokensAll cs) (cs.map .condition) := by
  induction cs with
  | nil => exact .empty d
  | cons c cs ih =>
    rw [tokensAll, List.map_cons]
    exact h c List.mem_cons_self _ _ (ih fun c hc => h c (List.mem_cons_of_mem _ hc))

/-- The entries of a written group are its gate and its conditions. -/
theorem groupOf_written (gate : Gate) (cs : List Condition) :
    Filter.groupOf (.gate gate :: cs.map .condition) = .group gate cs := by
  have hgates : (cs.map Filter.Entry.condition).filterMap Filter.Entry.gate? = [] := by
    simp [List.filterMap_map, Function.comp_def, Filter.Entry.gate?]
  have hconditions : Filter.conditionsOf (cs.map Filter.Entry.condition) = cs := by
    simp [Filter.conditionsOf, List.filterMap_map, Function.comp_def, Filter.Entry.condition?]
  simp [Filter.groupOf, Filter.lastGate, Filter.Entry.gate?, hgates, hconditions]

/-- **The tokens of a tree are one entry**, at every depth that leaves room for the groups in it. -/
theorem tokens_prepends (hd : c.height ≤ d) (hl : c.EveryLeaf (Leaf.Writable ctx.lookup)) :
    Filter.Prepends ctx d c.tokens (.condition c) := by
  induction c using tree_induction generalizing d with
  | leaf l =>
    intro ts es hx
    have hw := everyLeaf_leaf.1 hl
    obtain ⟨text, hvalue, hleaf⟩ := hw.leaf_ok
    exact .comparison hw.known hvalue hleaf hx
  | group gate cs ih =>
    intro ts es hx
    -- the conditions of the group lie one level further down, where one level less is left
    obtain ⟨d, rfl⟩ : ∃ d', d = d' + 1 := by
      rw [height] at hd
      exact ⟨d - 1, by omega⟩
    have hbelow : ∀ c ∈ cs, c.height ≤ d := heightAll_le.1 (by rw [height] at hd; omega)
    have hall : Filter.Expression ctx d (tokensAll cs) (cs.map .condition) :=
      tokensAll_expression fun c hc => ih c hc (hbelow c hc) (everyLeaf_group.1 hl c hc)
    have hgroup := Filter.Expression.group (.gate gate hall) hx
    rw [groupOf_written] at hgroup
    simpa [tokens] using hgroup

theorem mem_tokensAll {tok : Token} : tok ∈ tokensAll cs ↔ ∃ c ∈ cs, tok ∈ c.tokens := by
  induction cs with
  | nil => simp [tokensAll]
  | cons c cs ih => simp [tokensAll, ih]

/-- The tokens of a tree are scanned back. -/
theorem tokens_wellFormed {lookup : Lookup} (hl : c.EveryLeaf (Leaf.Writable lookup)) :
    ∀ tok ∈ c.tokens, tok.WellFormed := by
  induction c using tree_induction with
  | leaf l => exact (everyLeaf_leaf.1 hl).tokens_wellFormed
  | group gate cs ih =>
    intro tok htok
    simp only [tokens, List.mem_cons, List.mem_append, List.not_mem_nil, or_false] at htok
    rcases htok with rfl | rfl | htok | rfl
    · trivial
    · trivial
    · obtain ⟨c, hc, htok⟩ := mem_tokensAll.1 htok
      exact ih c hc (everyLeaf_group.1 hl c hc) tok htok
    · trivial

end Condition

/-- The written tree is read back. -/
theorem reads_filterText {lookup : Lookup} {gate : Gate} {children : List Condition}
    (hdepth : ∀ c ∈ children, c.height ≤ Filter.maxDepth)
    (hleaves : (Condition.group gate children).EveryLeaf (Leaf.Writable lookup))
    (now : Time.Instant) :
    Engine.Reads ⟨lookup, .default⟩ now (Condition.group gate children).filterText .default
      (.group gate children) := by
  have hbelow := Condition.everyLeaf_group.1 hleaves
  have hformed : ∀ tok ∈ (Condition.group gate children).filterTokens, tok.WellFormed := by
    intro tok htok
    rcases List.mem_cons.1 htok with rfl | htok
    · trivial
    · obtain ⟨c, hc, htok⟩ := Condition.mem_tokensAll.1 htok
      exact Condition.tokens_wellFormed (hbelow c hc) tok htok
  refine ⟨_, _, .utc, Token.splitRequest_print (by simp [Condition.filterTokens]) hformed, rfl,
    Options.zone_utc rfl, ?_⟩
  have hall : Filter.Expression ⟨lookup, .utc, now⟩ Filter.maxDepth (Condition.tokensAll children)
      (children.map .condition) :=
    Condition.tokensAll_expression fun c hc => Condition.tokens_prepends (hdepth c hc) (hbelow c hc)
  have hx : Filter.Expression ⟨lookup, .utc, now⟩ Filter.maxDepth
      (Condition.group gate children).filterTokens (.gate gate :: children.map .condition) :=
    .gate gate hall
  unfold Filter.ofText
  rw [Token.ofText_print hformed, Filter.ofTokens_of_expression hx, Condition.groupOf_written]

/-- **A written tree compiles to itself.** Take a group whose groups nest within the limit and whose
leaves can be written: at every instant and without other options, the request that is its filter
text compiles, and its tree is that group. -/
theorem compile_filterText (lookup : Lookup) (gate : Gate) (children : List Condition)
    (hdepth : ∀ c ∈ children, c.height ≤ Filter.maxDepth)
    (hleaves : (Condition.group gate children).EveryLeaf (Leaf.Writable lookup))
    (now : Time.Instant) :
    ∃ r, Engine.compile ⟨lookup, .default⟩ now (Condition.group gate children).filterText = .ok r ∧
      r.tree = .group gate children :=
  Engine.compile_ok_of_reads (reads_filterText hdepth hleaves now) (by decide) rfl

theorem Leaf.writable_allKeyword {l : Leaf} (name : (Token.word l.field).WellFormed)
    (value : l.operand.Writable .keyword l.operator) : l.Writable .allKeyword :=
  ⟨name, rfl, rfl, "keyword", .keyword, rfl, rfl, value⟩

/-- An or-group with an empty group, a negated text full of signs, a group around a list, and a
missing field. -/
theorem compile_filterText_signs :
    let children : List Condition :=
      [.group .and [], .leaf ⟨"a.b", .ne, .single (.text " ;) or >=\n,(")⟩,
      .group .and [.leaf ⟨"and-or", .eq, .list [.text "x; y", .text "and"]⟩],
      .leaf ⟨"c", .present, .single (.bool false)⟩]
    (∀ c ∈ children, c.height ≤ Filter.maxDepth) ∧
      (Condition.group .or children).EveryLeaf (Leaf.Writable .allKeyword) ∧
      ∃ r, Engine.compile ⟨.allKeyword, .default⟩ ⟨0, 0⟩ (Condition.group .or children).filterText =
        .ok r ∧ r.tree = .group .or children := by
  intro children
  have hdepth : ∀ c ∈ children, c.height ≤ Filter.maxDepth := by decide
  have htext : Leaf.Writable .allKeyword ⟨"a.b", .ne, .single (.text " ;) or >=\n,(")⟩ :=
    Leaf.writable_allKeyword (by decide) (.text _ (.inl rfl) (.inr rfl) (by decide))
  have htexts : Leaf.Writable .allKeyword ⟨"and-or", .eq, .list [.text "x; y", .text "and"]⟩ :=
    Leaf.writable_allKeyword (by decide)
      (.texts ["x; y", "and"] (.inl rfl) (.inl rfl) (by decide) (by decide))
  have hflag : Leaf.Writable .allKeyword ⟨"c", .present, .single (.bool false)⟩ :=
    Leaf.writable_allKeyword (by decide) (.flag false rfl)
  have hleaves : (Condition.group .or children).EveryLeaf (Leaf.Writable .allKeyword) := by
    simp [children, htext, htexts, hflag]
  exact ⟨hdepth, hleaves, compile_filterText _ _ _ hdepth hleaves _⟩

end Sift
