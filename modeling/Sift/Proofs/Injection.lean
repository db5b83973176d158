import Sift.Proofs.Locality
import Sift.Proofs.Meaning
import Sift.Proofs.RoundTrip

/-!
# Quoted values cannot change a request

A text in quotes that is the value of a condition can be replaced by any other text without quotes
and slashes. The request still compiles, and only this one value changes, in its tree and in its
document. So a value from outside cannot end its quotes, its condition, its group or the filter,
whatever signs are in it.

The four readers of a request (the splitting at semicolons, the scanning of tokens, the reading of
groups and the lowering of trees) are followed one by one, each from one run to the other.

* `Condition.Place`, `Clause.Place`: trees and clauses with one part left open.
* `splitRequest_quoted`: a request is split at the same place, and the quoted text is one token.
* `Filter.place_of_ofTokens`: the leaf of a quoted value has a place in the tree that any value can
  take.
* `Condition.lowerAt_fill`: a place in a tree becomes a place in its clause.
* `compile_quoted_value`: **quoted values cannot change the request.**
-/

namespace Sift

/-! ### Places -/

/-- A place in a condition tree: a tree with one condition left open. -/
inductive Condition.Place where
  | here
  | inGroup (gate : Gate) (before : List Condition) (inner : Place) (after : List Condition)

/-- The tree with a condition put in the place. -/
def Condition.Place.fill (c : Condition) : Place → Condition
  | .here => c
  | .inGroup gate before inner after => .group gate (before ++ inner.fill c :: after)

/-- A place in a clause: a clause with one part left open. -/
inductive Clause.Place where
  | here
  | inNested (path : String) (inner : Place)
  | inBool (occur : Occur) (before : List Clause) (inner : Place) (after : List Clause)

/-- The clause with another one put in the place. -/
def Clause.Place.fill (q : Clause) : Place → Clause
  | .here => q
  | .inNested path inner => .nested path (inner.fill q)
  | .inBool occur before inner after => .bool occur (before ++ inner.fill q :: after)

/-- The document with another clause, and all else as it is. -/
def Document.withQuery (q : Clause) : Document → Document
  | .count _ => .count q
  | .search _ size => .search q size
  | .aggregation _ body size => .aggregation q body size

/-- The leaf that compares a field with a text. -/
def Leaf.onText (field : String) (op : Operator) (s : String) : Leaf :=
  ⟨field, op, .single (.text s)⟩

/-- A text with the text `s` in quotes between `front` and `back`. -/
def quotedIn (front s back : String) : String := front ++ "\"" ++ s ++ "\"" ++ back

/-! ### Splitting and scanning -/

/-- The option clause of a request depends only on the pieces behind the first, which is the
filter. -/
theorem splitRequest_pieces (pieces : List (List Char)) :
    ∃ clause : QueryResult String, ∀ input filter,
      Text.splitUnquoted ';' false input.toList = filter :: pieces →
        splitRequest input = clause.map (String.ofList (Text.trim filter), ·) := by
  match pieces with
  | [] =>
    refine ⟨.ok "", fun input filter h => ?_⟩
    rw [splitRequest, h]
    rfl
  | [clause] =>
    refine ⟨.ok (String.ofList (Text.trim clause)), fun input filter h => ?_⟩
    rw [splitRequest, h]
    rfl
  | _ :: _ :: _ =>
    refine ⟨.error .manySeparators, fun input filter h => ?_⟩
    rw [splitRequest, h]
    rfl

/-- **A request with a quoted text in its filter** is split at the same place whatever the text, and
the text is one token among tokens that do not depend on it. -/
theorem splitRequest_quoted {front : String} (hpaired : Text.Paired front.toList)
    (henclosed : Text.Enclosed ';' false front.toList) (back : String) :
    ∃ (clause : QueryResult String) (behind : List Token), ∀ s, '"' ∉ s.toList →
      ∃ filter, splitRequest (quotedIn front s back) = clause.map (filter, ·) ∧
        Token.ofText filter = Token.ofText front ++ .quoted s :: behind := by
  obtain ⟨piece, pieces, hback⟩ :=
    List.exists_cons_of_ne_nil (Text.splitUnquoted_ne_nil ';' false back.toList)
  obtain ⟨clause, hclause⟩ := splitRequest_pieces pieces
  refine ⟨clause, Token.scan piece, fun s hs => ?_⟩
  -- the first piece goes over the quotes into what follows them
  have hsplit : Text.splitUnquoted ';' false (quotedIn front s back).toList =
      (front.toList ++ '"' :: (s.toList ++ '"' :: piece)) :: pieces := by
    have hwhole :=
      (Text.whole_of_enclosed hpaired henclosed).append (Text.whole_quoted hs) back.toList
    rw [hback, Text.prependFirst_cons] at hwhole
    simpa [quotedIn] using hwhole
  refine ⟨_, hclause _ _ hsplit, ?_⟩
  rw [Token.ofText, String.toList_ofList, Token.scan_trim, Token.scan_append_quoted hpaired hs]
  rfl

/-! ### Reading -/

namespace Filter

variable {ctx : Context} {d : Nat} {front back ts : List Token} {s : String}
  {es es₁ es₂ : List Entry}

/-- The place of a condition among the entries of a group. -/
def entryPlace (es₁ es₂ : List Entry) (inner : Condition.Place) : Condition.Place :=
  .inGroup (lastGate (es₁ ++ es₂)) (conditionsOf es₁) inner (conditionsOf es₂)

theorem groupOf_fill (es₁ es₂ : List Entry) (place : Condition.Place) (c : Condition) :
    groupOf (es₁ ++ .condition (place.fill c) :: es₂) = (entryPlace es₁ es₂ place).fill c := by
  simp [groupOf, entryPlace, Condition.Place.fill, lastGate, conditionsOf, Entry.gate?,
    Entry.condition?]

/-- **Between the tokens `front` and `back` stands the value of a condition.** The leaf of any value
that can be read there takes the same place among the entries. -/
structure ValueAt (ctx : Context) (d : Nat) (front back : List Token) (field : String)
    (op : Operator) (place : Condition.Place) (es₁ es₂ : List Entry) : Prop where
  known : ctx.lookup.contains field = true
  condition : ∃ before, front = before ++ [.word field, .operator op]
  swap : ∀ s l, ctx.leaf field op s = .ok l →
    Expression ctx d (front ++ .quoted s :: back) (es₁ ++ .condition (place.fill (.leaf l)) :: es₂)

/-- The quoted text `s` is such a value, and `es` are the entries with its leaf among them. -/
def HasValue (ctx : Context) (d : Nat) (front : List Token) (s : String) (back : List Token)
    (es : List Entry) : Prop :=
  ∃ field op place es₁ es₂ l, ValueAt ctx d front back field op place es₁ es₂ ∧
    ctx.leaf field op s = .ok l ∧ es = es₁ ++ .condition (place.fill (.leaf l)) :: es₂

/-- One more entry in front of it. -/
theorem HasValue.prepend {pre : List Token} {e : Entry} (h : HasValue ctx d front s back es)
    (hpre : Prepends ctx d pre e) : HasValue ctx d (pre ++ front) s back (e :: es) := by
  obtain ⟨field, op, place, es₁, es₂, l, ⟨known, ⟨before, rfl⟩, swap⟩, hl, rfl⟩ := h
  refine ⟨field, op, place, e :: es₁, es₂, l, ⟨known, ⟨pre ++ before, ?_⟩, ?_⟩, hl, rfl⟩
  · exact (List.append_assoc ..).symm
  · intro s' l' hl'
    rw [List.append_assoc]
    exact hpre _ _ (swap s' l' hl')

/-- Parentheses around it. -/
theorem HasValue.inGroup (h : HasValue ctx d front s back es₁)
    (rest : Expression ctx (d + 1) ts es₂) :
    HasValue ctx (d + 1) (.openGroup :: front) s (back ++ .closeGroup :: ts)
      (.condition (groupOf es₁) :: es₂) := by
  obtain ⟨field, op, place, es₁, es₃, l, ⟨known, ⟨before, rfl⟩, swap⟩, hl, rfl⟩ := h
  refine ⟨field, op, entryPlace es₁ es₃ place, [], es₂, l, ⟨known, ⟨.openGroup :: before, rfl⟩, ?_⟩,
    hl, ?_⟩
  · intro s' l' hl'
    have hgroup := Expression.group (swap s' l' hl') rest
    rw [groupOf_fill] at hgroup
    simpa using hgroup
  · rw [groupOf_fill]
    rfl

/-- **A quoted text in an expression is the value of a condition**, by induction on the
expression. -/
theorem hasValue_of_expression (h : Expression ctx d (front ++ .quoted s :: back) es) :
    HasValue ctx d front s back es := by
  generalize hts : front ++ .quoted s :: back = ts at h
  induction h generalizing front back with
  | empty => simp at hts
  | @gate d ts es g rest ih =>
    have hgate : Prepends ctx d [.gate g] (.gate g) := fun _ _ hx => .gate g hx
    cases front with
    | nil => simp at hts
    | cons tok front =>
      obtain ⟨rfl, htail⟩ := List.cons.inj hts
      exact (ih htail).prepend hgate
  | @comparison d ts es field op v text l known value leaf rest ih =>
    have hleaf : Prepends ctx d [.word field, .operator op, v] (.condition (.leaf l)) :=
      fun _ _ hx => .comparison known value leaf hx
    match front, hts with
    | [], hts => simp at hts
    | [_], hts => simp at hts
    | [_, _], hts =>
      simp only [List.cons_append, List.nil_append, List.cons.injEq] at hts
      obtain ⟨rfl, rfl, rfl, rfl⟩ := hts
      obtain rfl : s = text := Option.some.inj value
      exact ⟨field, op, .here, [], es, l,
        ⟨known, ⟨[], rfl⟩, fun s' l' hl' => .comparison known rfl hl' rest⟩, leaf, rfl⟩
    | tok₁ :: tok₂ :: tok₃ :: front, hts =>
      simp only [List.cons_append, List.cons.injEq] at hts
      obtain ⟨rfl, rfl, rfl, htail⟩ := hts
      exact (ih htail).prepend hleaf
  | @group d inner ts within es body rest ihb ih =>
    cases front with
    | nil => simp at hts
    | cons tok front =>
      obtain ⟨rfl, htail⟩ := List.cons.inj hts
      -- the quoted text stands in the parentheses or behind them
      rcases List.append_eq_append_iff.1 htail with ⟨mid, rfl, hmid⟩ | ⟨mid, rfl, hmid⟩
      · cases mid with
        | nil => simp at hmid
        | cons tok mid =>
          obtain ⟨rfl, rfl⟩ := List.cons.inj hmid
          exact (ihb rfl).inGroup rest
      · cases mid with
        | nil => simp at hmid
        | cons tok mid =>
          obtain ⟨rfl, rfl⟩ := List.cons.inj hmid
          have hgroup : Prepends ctx (d + 1) (.openGroup :: (inner ++ [.closeGroup]))
              (.condition (groupOf within)) := by
            intro ts es hx
            simpa using Expression.group body hx
          simpa using (ih rfl).prepend hgroup

/-- **A quoted text among accepted tokens is the value of a condition**, and its leaf has a place in
the tree that the leaf of any other value can take. -/
theorem place_of_ofTokens {t : Condition} (h : ofTokens ctx (front ++ .quoted s :: back) = .ok t) :
    ∃ before field op, ∃ place : Condition.Place, ∃ l,
      front = before ++ [.word field, .operator op] ∧
      ctx.lookup.contains field = true ∧ ctx.leaf field op s = .ok l ∧ t = place.fill (.leaf l) ∧
      ∀ s' l', ctx.leaf field op s' = .ok l' →
        ofTokens ctx (front ++ .quoted s' :: back) = .ok (place.fill (.leaf l')) := by
  obtain ⟨es, hx, rfl⟩ := expression_of_ofTokens h
  obtain ⟨field, op, place, es₁, es₂, l, ⟨known, ⟨before, hfront⟩, swap⟩, hl, rfl⟩ :=
    hasValue_of_expression hx
  refine ⟨before, field, op, entryPlace es₁ es₂ place, l, hfront, known, hl, groupOf_fill .., ?_⟩
  intro s' l' hl'
  rw [ofTokens_of_expression (swap s' l' hl'), groupOf_fill]

end Filter

/-! ### Lowering -/

section Lowering

variable {lookup : Lookup} {depth : Nat}

/-- The test of a leaf has the same place in its clause for all leaves on one field. -/
theorem Leaf.nest_fill (field : String) (occur : Occur) :
    ∃ place : Clause.Place, ∀ (l : Leaf) (q : Clause), l.field = field →
      l.nest (.bool occur [q]) = place.fill q := by
  cases hpath : splitPath? field with
  | none =>
    refine ⟨.inBool occur [] .here [], ?_⟩
    rintro l q rfl
    rw [nest, hpath]
    rfl
  | some parts =>
    refine ⟨.inNested parts.1 (.inBool occur [] .here []), ?_⟩
    rintro l q rfl
    rw [nest, hpath]
    rfl

/-- **The clause of a comparison with a text**: the text has a place in it that any other text can
take. -/
theorem Leaf.lower_text {field : String} {op : Operator} {type : FieldType}
    (hcheck : lookup.check field op false = .ok type) (textual : type.isTextual)
    (equality : op = .eq ∨ op = .ne) :
    ∃ place : Clause.Place, ∀ s, (Leaf.onText field op s).lower lookup =
      .ok (place.fill (.term field (.text s))) := by
  have hordered : type.isOrdered = false := by rcases textual with rfl | rfl | rfl <;> rfl
  obtain ⟨occur, htest⟩ : ∃ occur, ∀ s, (Leaf.onText field op s).test type =
      .ok (occur, .term field (.text s)) := by
    rcases equality with rfl | rfl
    · exact ⟨.must, fun s => by simp [onText, test, test.equality, hordered]⟩
    · exact ⟨.mustNot, fun s => by simp [onText, test, test.equality, hordered]⟩
  obtain ⟨place, hplace⟩ := Leaf.nest_fill field occur
  refine ⟨place, fun s => Leaf.lower_eq_ok.2 ⟨type, occur, _, hcheck, htest s, ?_⟩⟩
  exact (hplace _ _ rfl).symm

namespace Condition

theorem lowerAll_append_cons {before after : List Condition} {c : Condition} {qs : List Clause} :
    lowerAll lookup depth (before ++ c :: after) = .ok qs ↔
      ∃ qs₁ q qs₂, lowerAll lookup depth before = .ok qs₁ ∧ c.lowerAt lookup depth = .ok q ∧
        lowerAll lookup depth after = .ok qs₂ ∧ qs = qs₁ ++ q :: qs₂ := by
  induction before generalizing qs with
  | nil =>
    simp only [List.nil_append, lowerAll, bind_eq_ok, pure, Except.pure, Except.ok.injEq]
    constructor
    · rintro ⟨q, hq, qs₂, h₂, rfl⟩
      exact ⟨[], q, qs₂, rfl, hq, h₂, rfl⟩
    · rintro ⟨_, q, qs₂, rfl, hq, h₂, rfl⟩
      exact ⟨q, hq, qs₂, h₂, rfl⟩
  | cons b before ih =>
    simp only [List.cons_append, lowerAll, bind_eq_ok, ih, pure, Except.pure, Except.ok.injEq]
    constructor
    · rintro ⟨q', hq', _, ⟨qs₁, q, qs₂, h₁, hq, h₂, rfl⟩, rfl⟩
      exact ⟨q' :: qs₁, q, qs₂, ⟨q', hq', qs₁, h₁, rfl⟩, hq, h₂, rfl⟩
    · rintro ⟨_, q, qs₂, ⟨q', hq', qs₁, h₁, rfl⟩, hq, h₂, rfl⟩
      exact ⟨q', hq', _, ⟨qs₁, q, qs₂, h₁, hq, h₂, rfl⟩, rfl⟩

/-- **A place in a tree becomes a place in its clause.** Take conditions whose clauses all have
their parts `g` in one place: so have the clauses of the tree with these conditions in a place of
it, if one of them can be lowered. By induction on the place. -/
theorem lowerAt_fill {α : Type} {f : α → Condition} {g : α → Clause} {part : Clause.Place}
    (hpart : ∀ a depth, (f a).lowerAt lookup depth = .ok (part.fill (g a))) (place : Place) {a : α}
    {q : Clause} (h : (place.fill (f a)).lowerAt lookup depth = .ok q) :
    ∃ whole : Clause.Place, ∀ b, (place.fill (f b)).lowerAt lookup depth =
      .ok (whole.fill (g b)) := by
  induction place generalizing depth q with
  | here => exact ⟨part, fun b => hpart b depth⟩
  | inGroup gate before inner after ih =>
    obtain ⟨hdepth, qs, hqs, rfl⟩ := lowerAt_group_eq_ok.1 h
    obtain ⟨qs₁, q, qs₂, hbefore, hinner, hafter, rfl⟩ := lowerAll_append_cons.1 hqs
    obtain ⟨whole, hwhole⟩ := ih hinner
    refine ⟨.inBool gate.occur qs₁ whole qs₂, fun b => ?_⟩
    exact lowerAt_group_eq_ok.2 ⟨hdepth, _,
      lowerAll_append_cons.2 ⟨qs₁, _, qs₂, hbefore, hwhole b, hafter, rfl⟩, rfl⟩

end Condition

/-- **A document holds the clause of its tree**, and the document of another tree is the same but
for the clause. -/
theorem Document.ofCondition_withQuery {o : Options} {c : Condition} {document : Document}
    (h : ofCondition lookup o c = .ok document) : c.lower lookup = .ok document.query ∧
      ∀ c' q, c'.lower lookup = .ok q → ofCondition lookup o c' = .ok (document.withQuery q) := by
  obtain ⟨⟨⟩, hvalid, h⟩ := bind_eq_ok.1 h
  obtain ⟨q₀, hq₀, h⟩ := bind_eq_ok.1 h
  unfold ofCondition
  rw [hvalid, hq₀]
  cases htype : o.queryType with
  | count =>
    rw [htype] at h
    obtain rfl := Except.ok.inj h
    exact ⟨rfl, fun c' q hq => by rw [hq]; rfl⟩
  | search =>
    rw [htype] at h
    obtain rfl := Except.ok.inj h
    exact ⟨rfl, fun c' q hq => by rw [hq]; rfl⟩
  | aggregation =>
    rw [htype] at h
    obtain ⟨body, hbody, h⟩ := bind_eq_ok.1 h
    obtain rfl := Except.ok.inj h
    exact ⟨rfl, fun c' q hq => by rw [hq, hbody]; rfl⟩

end Lowering

/-! ### Requests -/

/-- **A place for the value of a comparison with a text.** Behind the text `front` of a request,
outside quotes and before the options, stands the value of a condition that compares a field of a
textual type. -/
structure ValueSlot (lookup : Lookup) (front field : String) (op : Operator) : Prop where
  paired : Text.Paired front.toList
  filter : Text.Enclosed ';' false front.toList
  condition : ∃ before, Token.ofText front = before ++ [.word field, .operator op]
  equality : op = .eq ∨ op = .ne
  textual : ∃ declared type, lookup.declared field = some declared ∧
    FieldType.ofName? declared = some type ∧ type.isTextual

/-- If one plain text makes a leaf there, every other one does, and its leaf holds the text as it
is. -/
theorem ValueSlot.leaf_text {ctx : Context} {front field s : String} {op : Operator} {l : Leaf}
    (slot : ValueSlot ctx.lookup front field op) (hs : PlainText s)
    (h : ctx.leaf field op s = .ok l) :
    ∃ type : FieldType, type.isTextual ∧ ctx.lookup.Permits field op false type ∧
      ∀ s', PlainText s' → ctx.leaf field op s' = .ok (.onText field op s') := by
  obtain ⟨declared, type, hdeclared, htype, textual⟩ := slot.textual
  obtain ⟨type', v, hcondition, -, -⟩ := Context.leaf_eq_ok.1 h
  have hlist : Context.isListText s = false := by simpa [Context.isListText] using hs.2
  rw [hlist] at hcondition
  obtain rfl : type = type' := by
    obtain ⟨declared', hdeclared', -, hfilterable, -⟩ := hcondition
    obtain rfl := Option.some.inj (hdeclared.symm.trans hdeclared')
    have hname := (Option.filter_eq_some_iff.1 hfilterable).1
    exact Option.some.inj (htype.symm.trans hname)
  refine ⟨type, textual, hcondition, fun s' hs' => ?_⟩
  obtain ⟨hlist', hoperand⟩ := Context.operand_text textual slot.equality hs'
  exact Context.leaf_eq_ok.2 ⟨type, _, by rwa [hlist'], hoperand, rfl⟩

/-- **Reading with another value.** The leaf of the value has a place in the tree, and with another
value the request is read to the tree that has its leaf in this place. -/
theorem ValueSlot.reads {e : Engine} {now : Time.Instant} {front back field s : String}
    {op : Operator}
    {options : Options} {tree : Condition} (slot : ValueSlot e.lookup front field op)
    (hs : PlainText s) (h : e.Reads now (quotedIn front s back) options tree) :
    ∃ (place : Condition.Place) (type : FieldType), type.isTextual ∧
      e.lookup.check field op false = .ok type ∧ tree = place.fill (.leaf (.onText field op s)) ∧
      ∀ s', PlainText s' →
        e.Reads now (quotedIn front s' back) options (place.fill
          (.leaf (.onText field op s'))) := by
  obtain ⟨filter, clause, zone, hsplit, hoptions, hzone, htree⟩ := h
  obtain ⟨part, behind, hquoted⟩ := splitRequest_quoted slot.paired slot.filter back
  obtain ⟨filter', hsplit', hscan⟩ := hquoted s hs.1
  -- the same option clause is split off, and the quoted text is a token of the filter
  obtain ⟨rfl, rfl⟩ : part = .ok clause ∧ filter = filter' := by
    have hpart := hsplit'.symm.trans hsplit
    cases part with
    | error err => simp [Except.map] at hpart
    | ok clause' =>
      simp only [Except.map, Except.ok.injEq, Prod.mk.injEq] at hpart
      exact ⟨by rw [hpart.2], hpart.1.symm⟩
  unfold Filter.ofText at htree
  rw [hscan] at htree
  obtain ⟨before, field', op', place, l, hfront, known, hl, rfl, hswap⟩ :=
    Filter.place_of_ofTokens htree
  obtain ⟨rfl, rfl⟩ : field' = field ∧ op' = op := by
    obtain ⟨before', hfront'⟩ := slot.condition
    simpa using (List.append_inj' (hfront.symm.trans hfront') rfl).2
  have hslot : ValueSlot (Context.mk e.lookup zone now).lookup front field' op' := slot
  obtain ⟨type, textual, hcondition, hleaf⟩ := hslot.leaf_text hs hl
  obtain rfl : l = .onText field' op' s := Except.ok.inj (hl.symm.trans (hleaf s hs))
  refine ⟨place, type, textual, Lookup.check_eq_ok.2 ⟨known, hcondition⟩, rfl, fun s' hs' => ?_⟩
  obtain ⟨filter', hsplit', hscan'⟩ := hquoted s' hs'.1
  refine ⟨filter', clause, zone, hsplit', hoptions, hzone, ?_⟩
  rw [Filter.ofText, hscan']
  exact hswap s' _ (hleaf s' hs')

/-- **Quoted values cannot change the request.** Let a request with the plain text `s` in quotes as
the value of a comparison compile. Its leaf then has a place in the tree, and the copy of the text a
place in the clause of the document. With any other plain text in its stead the request compiles as
well, to the same tree and the same document but for the text in these two places. -/
theorem compile_quoted_value (e : Engine) (now : Time.Instant) (front back field s : String)
    (op : Operator) (r : Compiled) (slot : ValueSlot e.lookup front field op) (hs : PlainText s)
    (h : e.compile now (quotedIn front s back) = .ok r) :
    ∃ (tree : Condition.Place) (query : Clause.Place),
      r.tree = tree.fill (.leaf (.onText field op s)) ∧
      r.document.query = query.fill (.term field (.text s)) ∧
      ∀ s', PlainText s' → e.compile now (quotedIn front s' back) =
        .ok ⟨tree.fill (.leaf (.onText field op s')),
          r.document.withQuery (query.fill (.term field (.text s')))⟩ := by
  obtain ⟨options, hreads, hdocument⟩ := Engine.reads_of_compile h
  obtain ⟨place, type, textual, hcheck, htree, hswap⟩ := slot.reads hs hreads
  obtain ⟨hlower, hother⟩ := Document.ofCondition_withQuery hdocument
  obtain ⟨part, hpart⟩ := Leaf.lower_text hcheck textual slot.equality
  -- the place of the leaf in the tree becomes the place of its text in the clause
  rw [htree] at hlower
  obtain ⟨query, hquery⟩ := Condition.lowerAt_fill (f := fun s => .leaf (.onText field op s))
    (g := fun s => .term field (.text s)) (fun s depth => by rw [Condition.lowerAt]; exact hpart s)
      place hlower
  refine ⟨place, query, htree, Except.ok.inj (hlower.symm.trans (hquery s)), fun s' hs' => ?_⟩
  have hcompile := Engine.compile_of_reads (hswap s' hs')
  rw [hother _ _ (hquery s')] at hcompile
  exact hcompile

/-- A negated comparison with a nested field in a group, behind a semicolon in quotes and before the
options. -/
theorem compile_quoted_value_nested :
    let e : Engine := ⟨.allKeyword, .default⟩
    let front := "d = \"x;y\" or (a.b != "
    let back := ") ; size=3"
    let r : Compiled :=
      ⟨.group .or [.leaf (.onText "d" .eq "x;y"), .group .and [.leaf (.onText "a.b" .ne "v")]],
        .search (.bool .should [.bool .must [.term "d" (.text "x;y")],
          .bool .must [.nested "a" (.bool .mustNot [.term "a.b" (.text "v")])]]) 3⟩
    ValueSlot e.lookup front "a.b" .ne ∧ PlainText "v" ∧
      e.compile ⟨0, 0⟩ (quotedIn front "v" back) = .ok r ∧
      PlainText " ;) or >=\n,(" ∧
      ∃ (tree : Condition.Place) (query : Clause.Place),
        r.tree = tree.fill (.leaf (.onText "a.b" .ne "v")) ∧
        r.document.query = query.fill (.term "a.b" (.text "v")) ∧
        e.compile ⟨0, 0⟩ (quotedIn front " ;) or >=\n,(" back) =
          .ok ⟨tree.fill (.leaf (.onText "a.b" .ne " ;) or >=\n,(")),
            r.document.withQuery (query.fill (.term "a.b" (.text " ;) or >=\n,(")))⟩ := by
  intro e front back r
  have hfront : Token.ofText front =
    [.word "d", .operator .eq, .quoted "x;y", .gate .or, .openGroup] ++
      [.word "a.b", .operator .ne] := by decide +kernel
  have hfilter : Token.ofText "d = \"x;y\" or (a.b != \"v\")" = Token.ofText front ++
      [.quoted "v", .closeGroup] := by decide +kernel
  have slot : ValueSlot e.lookup front "a.b" .ne :=
    ⟨by decide, by decide, ⟨_, hfront⟩, .inr rfl, "keyword", .keyword, rfl, rfl, .inl rfl⟩
  have hinput : quotedIn front "v" back = "d = \"x;y\" or (a.b != \"v\") ; size=3" := by decide
  have hreads : e.Reads ⟨0, 0⟩ (quotedIn front "v" back) { size := 3 } r.tree := by
    rw [hinput]
    refine ⟨"d = \"x;y\" or (a.b != \"v\")", "size=3", .utc, rfl, rfl, Options.zone_utc rfl, ?_⟩
    unfold Filter.ofText
    rw [hfilter, hfront]
    rfl
  have hcompile : e.compile ⟨0, 0⟩ (quotedIn front "v" back) = .ok r := by
    rw [Engine.compile_of_reads hreads]
    rfl
  have hplain : PlainText "v" := by decide
  have hother : PlainText " ;) or >=\n,(" := by decide
  obtain ⟨tree, query, htree, hquery, hswap⟩ :=
    compile_quoted_value _ _ _ _ _ _ _ _ slot hplain hcompile
  exact ⟨slot, hplain, hcompile, hother, tree, query, htree, hquery, hswap _ hother⟩

end Sift
