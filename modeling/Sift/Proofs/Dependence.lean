import Mathlib.Control.Monad.Basic
import Sift.Proofs.Agreement
import Sift.Proofs.Catalog
import Sift.Proofs.Invariant

/-!
# What a request depends on

Fields are asked about when a filter is read, again when its tree is lowered, and once more for the
aggregation. The present instant is used for dates alone. These lemmas compare two runs of one
request, with other fields and at another instant, and keep them together step by step: what one run
asks about is a word of the filter or the field of the aggregation, and the instant counts only
where a value begins with `now` or `today`.

* `Lookup.AgreeAt`, `Token.Timeless`: the same answers about a field, and a token that needs no
  clock.
* `Filter.step_congr`, `Filter.run_congr`: one token, and several, do the same in both runs.
* `Filter.word_of_leaf`: the fields of a read tree are words of the filter.
* `Engine.compile_congr`: the two runs of a request.
* `Catalog.agreeAt_insertAll`: the answers after fields have been added.
* `compile_depends_on_mentioned`: **a request depends only on what it mentions.**
-/

namespace Sift

/-! ### Dates without a clock -/

namespace Text

/-- A start without blanks is kept when a text is trimmed. -/
theorem solid_start_trim {front cs : List Char} (hsolid : front.all (! isBlank ·) = true)
    (h : front <+: cs) :
    front <+: trim cs := by
  have hfront : ∀ c ∈ front, isBlank c = false := by simpa using hsolid
  obtain ⟨left, right, hcs, hleft, hright⟩ := exists_blanks cs
  cases front with
  | nil => exact List.nil_prefix
  | cons c front =>
    have hc : isBlank c = false := hfront c List.mem_cons_self
    have hnil : left = [] := by
      cases left with
      | nil => rfl
      | cons b left =>
        rw [hcs, List.cons_append, List.cons_prefix_cons] at h
        have hb : isBlank b = true := hleft b List.mem_cons_self
        rw [← h.1, hc] at hb
        exact absurd hb (by decide)
    rw [hnil, List.nil_append] at hcs
    have htrim : trim cs <+: cs := ⟨right, hcs.symm⟩
    rcases List.prefix_or_prefix_of_prefix h htrim with h | ⟨more, hmore⟩
    · exact h
    · -- the start would reach into the blanks at the end
      have hmoreright : more <+: right := by
        rw [hcs, ← hmore] at h
        exact (List.prefix_append_right_inj _).1 h
      have hnone : more = [] := by
        rw [List.eq_nil_iff_forall_not_mem]
        intro b hb
        have hblank := hright b (hmoreright.subset hb)
        have hnot := hfront b (hmore ▸ List.mem_append_right _ hb)
        exact absurd (hblank.symm.trans hnot) (by decide)
      rw [hnone, List.append_nil] at hmore
      exact hmore ▸ List.prefix_rfl

end Text

namespace Time

/-- **A text that begins with** `now` or `today`, so that it may be a relative date. -/
def Anchored (cs : List Char) : Prop := ['n', 'o', 'w'] <+: cs ∨ ['t', 'o', 'd', 'a', 'y'] <+: cs

instance (cs : List Char) : Decidable (Anchored cs) := inferInstanceAs (Decidable (_ ∨ _))

theorem Anchored.trim {cs : List Char} (h : Anchored cs) : Anchored (Text.trim cs) :=
  h.imp (Text.solid_start_trim (by decide)) (Text.solid_start_trim (by decide))

theorem readRelative?_eq_none {cs : List Char} (h : ¬Anchored cs) : readRelative? cs = none := by
  unfold readRelative?
  split
  · exact absurd (.inl (by simp)) h
  · exact absurd (.inr (by simp)) h
  · rfl

/-- Only relative dates depend on the present instant. -/
theorem resolveDate?_congr {s : String} (h : ¬Anchored s.toList) (now₁ now₂ : Instant)
    (zone : Zone) :
    resolveDate? now₁ zone s = resolveDate? now₂ zone s := by
  have hread : DateLiteral.read? s = (readReading? s.toList).map .absolute := by
    rw [DateLiteral.read?, readRelative?_eq_none h]
  unfold resolveDate?
  rw [hread]
  cases readReading? s.toList <;> rfl

end Time

namespace Token

/-- The items that a token would have as a value: its text, split at slashes and trimmed. -/
def items (t : Token) : List (List Char) :=
  match t.value? with
  | some text => (Text.splitOnChar '/' text.toList).map Text.trim
  | none => []

/-- **No item of the token begins with** `now` or `today`. -/
def Timeless (t : Token) : Prop := ∀ item ∈ t.items, ¬Time.Anchored item

instance (t : Token) : Decidable t.Timeless := inferInstanceAs (Decidable (∀ item ∈ t.items, _))

end Token

/-! ### Leaves -/

/-- **The same answers about a field.** -/
structure Lookup.AgreeAt (lookup₁ lookup₂ : Lookup) (field : String) : Prop where
  contains : lookup₁.contains field = lookup₂.contains field
  declared : lookup₁.declared field = lookup₂.declared field
  indexed : lookup₁.indexed field = lookup₂.indexed field

namespace Lookup.AgreeAt

variable {lookup₁ lookup₂ : Lookup} {field : String}

theorem check_eq (h : lookup₁.AgreeAt lookup₂ field) (op : Operator) (isList : Bool) :
    lookup₁.check field op isList = lookup₂.check field op isList := by
  unfold Lookup.check
  rw [h.contains, h.declared, h.indexed]

end Lookup.AgreeAt

namespace Context

/-- **Two contexts that a token does not tell apart**: they have one zone, agree on the field that
the token may name, and are of one instant unless the token needs none. -/
structure AgreeOn (ctx₁ ctx₂ : Context) (t : Token) : Prop where
  zone : ctx₁.zone = ctx₂.zone
  field : ∀ w, t = .word w → ctx₁.lookup.AgreeAt ctx₂.lookup w
  time : ctx₁.now = ctx₂.now ∨ t.Timeless

variable {ctx₁ ctx₂ : Context} {field text : String} {type : FieldType} {op : Operator}

theorem scalar_congr (hzone : ctx₁.zone = ctx₂.zone)
    (htime : ctx₁.now = ctx₂.now ∨ ¬Time.Anchored text.toList) :
    ctx₁.scalar field type op text = ctx₂.scalar field type op text := by
  have hdate : Time.resolveDate? ctx₁.now ctx₁.zone text =
      Time.resolveDate? ctx₂.now ctx₂.zone text := by
    rw [hzone]
    rcases htime with hnow | htext
    · rw [hnow]
    · exact Time.resolveDate?_congr htext _ _ _
  unfold scalar
  rw [hdate]

theorem item_congr {piece : List Char} (hzone : ctx₁.zone = ctx₂.zone)
    (htime : ctx₁.now = ctx₂.now ∨ ¬Time.Anchored (Text.trim piece)) :
    ctx₁.item field type op text piece = ctx₂.item field type op text piece := by
  unfold item
  split
  · rfl
  · exact scalar_congr hzone (by rwa [String.toList_ofList])

theorem operand_congr {t : Token} (h : ctx₁.AgreeOn ctx₂ t) (hvalue : t.value? = some text) :
    ctx₁.operand field type op text = ctx₂.operand field type op text := by
  have hitem (piece : List Char) (hpiece : piece ∈ Text.splitOnChar '/' text.toList) :
      ctx₁.now = ctx₂.now ∨ ¬Time.Anchored (Text.trim piece) := by
    refine h.time.imp id fun htimeless => htimeless _ ?_
    rw [Token.items, hvalue]
    exact List.mem_map_of_mem hpiece
  unfold operand
  split
  · have hitems : (Text.splitOnChar '/' text.toList).mapM (ctx₁.item field type op text) =
        (Text.splitOnChar '/' text.toList).mapM (ctx₂.item field type op text) :=
      mapM_congr fun piece hpiece => item_congr h.zone (hitem piece hpiece)
    rw [hitems]
  next hlist =>
    -- a text without slashes is its own only item, and what it begins with is not trimmed away
    have hno : '/' ∉ text.toList := by simpa [isListText] using hlist
    have hone : text.toList ∈ Text.splitOnChar '/' text.toList := by
      rw [Text.splitOnChar_eq_splitOn, List.splitOn_eq_singleton hno]
      exact List.mem_singleton_self _
    have htext : ctx₁.now = ctx₂.now ∨ ¬Time.Anchored text.toList :=
      (hitem _ hone).imp id fun hn ha => hn ha.trim
    rw [scalar_congr h.zone htext]

theorem leaf_congr {t : Token} (hfield : ctx₁.lookup.AgreeAt ctx₂.lookup field)
    (h : ctx₁.AgreeOn ctx₂ t)
    (hvalue : t.value? = some text) : ctx₁.leaf field op text = ctx₂.leaf field op text := by
  unfold leaf
  rw [hfield.declared, hfield.indexed]
  simp only [operand_congr h hvalue]

end Context

/-! ### Filters -/

namespace Filter

/-- The field that the condition being read is on. -/
def Expected.field? : Expected → Option String
  | .field => none
  | .operator name => some name
  | .value name _ => some name

variable {ctx ctx₁ ctx₂ : Context} {s s' : State} {tok : Token} {ts : List Token} {t : Condition}

/-- **One token does the same in both runs.** -/
theorem step_congr (h : ctx₁.AgreeOn ctx₂ tok)
    (hs : ∀ f, s.expected.field? = some f → ctx₁.lookup.AgreeAt ctx₂.lookup f) :
    step ctx₁ s tok = step ctx₂ s tok := by
  obtain ⟨cur, encl, next⟩ := s
  cases next with
  | field =>
    cases tok with
    | word w => simp only [step, stepField, (h.field w rfl).contains]
    | _ => rfl
  | operator field => rfl
  | value field op =>
    simp only [step, stepValue]
    split
    next text hvalue => rw [Context.leaf_congr (hs field rfl) h hvalue]
    next => rfl

/-- The field of a condition is the word just read, or the field it was already on. -/
theorem word_or_field_of_step (h : step ctx s tok = .ok s') {f : String}
    (hf : s'.expected.field? = some f) :
    tok = .word f ∨ s.expected.field? = some f := by
  obtain ⟨cur, encl, next⟩ := s
  cases next with
  | field =>
    obtain ⟨g, rfl, rfl⟩ | ⟨rfl, -, rfl⟩ | ⟨outer, rest, rfl, rfl, rfl⟩ | ⟨w, rfl, -, rfl⟩ :=
      step_field_cases h
    · cases hf
    · cases hf
    · cases hf
    · exact .inl (congrArg Token.word (Option.some.inj hf))
  | operator field =>
    obtain ⟨op, rfl, rfl⟩ := step_operator_cases h
    exact .inr hf
  | value field op =>
    obtain ⟨text, l, -, -, rfl⟩ := step_value_cases h
    cases hf

/-- **Several tokens do the same in both runs**, by induction on the tokens: the two machines are in
one state, and the field of the condition being read is one that the contexts agree at. -/
theorem run_congr (h : ∀ tok ∈ ts, ctx₁.AgreeOn ctx₂ tok)
    (hs : ∀ f, s.expected.field? = some f → ctx₁.lookup.AgreeAt ctx₂.lookup f) :
    run ctx₁ s ts = run ctx₂ s ts := by
  induction ts generalizing s with
  | nil => rfl
  | cons tok ts ih =>
    have htok := h tok List.mem_cons_self
    rw [run_cons, run_cons, step_congr htok hs]
    cases hstep : step ctx₂ s tok with
    | error e => rfl
    | ok s' =>
      refine ih (fun tok hmem => h tok (List.mem_cons_of_mem _ hmem)) fun f hf => ?_
      rcases word_or_field_of_step hstep hf with rfl | hf
      · exact htok.field f rfl
      · exact hs f hf

theorem ofTokens_congr (h : ∀ tok ∈ ts, ctx₁.AgreeOn ctx₂ tok) :
    ofTokens ctx₁ ts = ofTokens ctx₂ ts := by
  have hstart (f : String) (hf : State.start.expected.field? = some f) :
      ctx₁.lookup.AgreeAt ctx₂.lookup f := by
    cases hf
  rw [ofTokens, run_congr h hstart, ofTokens]

/-- The context whose only fields are words among the tokens. -/
def restrict (ctx : Context) (ts : List Token) : Context :=
  { ctx with
    lookup := { ctx.lookup with
      contains := fun w => ctx.lookup.contains w && decide (.word w ∈ ts) } }

/-- **The fields of a read tree are words of the filter.** A run that knows no other fields reads
the same tree. -/
theorem word_of_leaf (h : ofTokens ctx ts = .ok t) : t.EveryLeaf fun l => .word l.field ∈ ts := by
  have hagree (tok : Token) (htok : tok ∈ ts) : ctx.AgreeOn (restrict ctx ts) tok := by
    refine ⟨rfl, ?_, .inl rfl⟩
    rintro w rfl
    exact ⟨by simp [restrict, htok], rfl, rfl⟩
  rw [ofTokens_congr hagree] at h
  refine everyLeaf_of_ofTokens (fun field op text l known leaf => ?_) h
  obtain ⟨-, v, -, -, rfl⟩ := Context.leaf_eq_ok.1 leaf
  simp only [restrict, Bool.and_eq_true, decide_eq_true_eq] at known
  exact known.2

end Filter

/-! ### Documents -/

section Lowering

variable {lookup₁ lookup₂ : Lookup} {c : Condition} {cs : List Condition}

theorem Leaf.lower_congr {l : Leaf} (h : lookup₁.AgreeAt lookup₂ l.field) :
    l.lower lookup₁ = l.lower lookup₂ := by
  unfold Leaf.lower
  rw [h.check_eq]

theorem Condition.lowerAll_congr {depth : Nat}
    (h : ∀ c ∈ cs, c.lowerAt lookup₁ depth = c.lowerAt lookup₂ depth) :
    lowerAll lookup₁ depth cs = lowerAll lookup₂ depth cs := by
  induction cs with
  | nil => rfl
  | cons c rest ih =>
    rw [lowerAll, lowerAll, h c List.mem_cons_self, ih fun c hc => h c (List.mem_cons_of_mem _ hc)]

/-- A tree is lowered in the same way where its fields are the same. -/
theorem Condition.lowerAt_congr (h : c.EveryLeaf fun l => lookup₁.AgreeAt lookup₂ l.field)
    (depth : Nat) :
    c.lowerAt lookup₁ depth = c.lowerAt lookup₂ depth := by
  induction c using tree_induction generalizing depth with
  | leaf l =>
    rw [lowerAt, lowerAt]
    exact Leaf.lower_congr (everyLeaf_leaf.1 h)
  | group gate children ih =>
    have hall := lowerAll_congr fun c hc => ih c hc (everyLeaf_group.1 h c hc) (depth + 1)
    rw [lowerAt, lowerAt, hall]

theorem Lookup.checkAggregation_congr {name field : String}
    (h : lookup₁.declared field = lookup₂.declared field) :
    lookup₁.checkAggregation name field = lookup₂.checkAggregation name field := by
  unfold Lookup.checkAggregation
  rw [h]

theorem Options.aggregationBody_congr {o : Options}
    (h : ∀ f, nonempty? o.aggregationField = some f → lookup₁.declared f = lookup₂.declared f) :
    o.aggregationBody lookup₁ = o.aggregationBody lookup₂ := by
  unfold Options.aggregationBody
  split
  next name field _ hfield => rw [Lookup.checkAggregation_congr (h field hfield)]
  next => rfl

theorem Document.ofCondition_congr {o : Options}
    (hc : c.EveryLeaf fun l => lookup₁.AgreeAt lookup₂ l.field)
    (h : ∀ f, Options.nonempty? o.aggregationField = some f →
      lookup₁.declared f = lookup₂.declared f) :
    ofCondition lookup₁ o c = ofCondition lookup₂ o c := by
  unfold ofCondition
  rw [Condition.lower, Condition.lowerAt_congr hc, Condition.lower, Options.aggregationBody_congr h]

end Lowering

/-! ### Requests -/

/-- **The filter of a request has the token.** -/
def Mentions (input : String) (t : Token) : Prop :=
  ∃ filter clause, splitRequest input = .ok (filter, clause) ∧ t ∈ Token.ofText filter

/-- **The aggregation of a request is on the field**, by its own clause or by the options it starts
from. -/
def AggregatesOn (defaults : Options) (input field : String) : Prop :=
  ∃ filter clause options, splitRequest input = .ok (filter, clause) ∧
    Options.ofClause clause defaults = .ok options ∧
      Options.nonempty? options.aggregationField = some field

theorem Engine.compile_congr {lookup₁ lookup₂ : Lookup} {defaults : Options}
    {now₁ now₂ : Time.Instant}
    {input : String} (hfields : ∀ w, Mentions input (.word w) → lookup₁.AgreeAt lookup₂ w)
    (haggregation : ∀ f, AggregatesOn defaults input f → lookup₁.declared f = lookup₂.declared f)
    (htime : now₁ = now₂ ∨ ∀ t, Mentions input t → t.Timeless) :
    Engine.compile ⟨lookup₁, defaults⟩ now₁ input =
      Engine.compile ⟨lookup₂, defaults⟩ now₂ input := by
  unfold Engine.compile
  cases hsplit : splitRequest input with
  | error e => rfl
  | ok parts =>
    obtain ⟨filter, clause⟩ := parts
    simp only [ok_bind]
    cases hoptions : Options.ofClause clause defaults with
    | error e => rfl
    | ok options =>
      simp only [ok_bind]
      cases options.zone with
      | error e => rfl
      | ok zone =>
        -- the filter: each of its tokens finds the same field, zone and instant
        have hagree (tok : Token) (htok : tok ∈ Token.ofText filter) :
            Context.AgreeOn ⟨lookup₁, zone, now₁⟩ ⟨lookup₂, zone, now₂⟩ tok := by
          have hmentions : Mentions input tok := ⟨filter, clause, hsplit, htok⟩
          refine ⟨rfl, ?_, htime.imp id fun h => h tok hmentions⟩
          rintro w rfl
          exact hfields w hmentions
        simp only [ok_bind, Filter.ofText, Filter.ofTokens_congr hagree]
        cases htree : Filter.ofTokens ⟨lookup₂, zone, now₂⟩ (Token.ofText filter) with
        | error e => rfl
        | ok tree =>
          -- the document: lowering asks about the fields of the tree, which are words of the filter
          have hleaves : tree.EveryLeaf fun l => lookup₁.AgreeAt lookup₂ l.field := fun l hl =>
            hfields l.field ⟨filter, clause, hsplit, Filter.word_of_leaf htree l hl⟩
          have hdocument : Document.ofCondition lookup₁ options tree =
              Document.ofCondition lookup₂ options tree :=
            Document.ofCondition_congr hleaves fun f hf =>
              haggregation f ⟨filter, clause, options, hsplit, hoptions, hf⟩
          simp only [ok_bind, hdocument]

/-! ### Fields added to a catalog -/

namespace Catalog

variable {c : Catalog} {path : String} {added : List (String × FieldEntry)}

theorem agreeAt_insertAll (h : ∀ f ∈ added, f.1 ≠ path) :
    (c.insertAll added).lookup.AgreeAt c.lookup path := by
  have hget := get?_insertAll_of_not_mem (c := c) h
  constructor <;> simp only [lookup, hget]

end Catalog

/-- **A request depends only on what it mentions.** Two runs that are given the same answers about
every word of the filter, the same declared type of the field of the aggregation, and the same
instant unless no token needs it, have the same result, be it a document or an error. So fields that
a request neither mentions nor aggregates on can be added to a catalog. -/
theorem compile_depends_on_mentioned :
    (∀ (lookup₁ lookup₂ : Lookup) (defaults : Options) (now₁ now₂ : Time.Instant) (input : String),
      (∀ w, Mentions input (.word w) → lookup₁.AgreeAt lookup₂ w) →
      (∀ f, AggregatesOn defaults input f → lookup₁.declared f = lookup₂.declared f) →
      (now₁ = now₂ ∨ ∀ t, Mentions input t → t.Timeless) →
      Engine.compile ⟨lookup₁, defaults⟩ now₁ input =
        Engine.compile ⟨lookup₂, defaults⟩ now₂ input) ∧
    ∀ (c : Catalog) (added : List (String × FieldEntry)) (defaults : Options) (now : Time.Instant)
      (input : String),
      (∀ f ∈ added, ¬Mentions input (.word f.1) ∧ ¬AggregatesOn defaults input f.1) →
      Engine.compile ⟨(c.insertAll added).lookup, defaults⟩ now input =
        Engine.compile ⟨c.lookup, defaults⟩ now input := by
  constructor
  · intro lookup₁ lookup₂ defaults now₁ now₂ input hfields haggregation htime
    exact Engine.compile_congr hfields haggregation htime
  · intro c added defaults now input hadded
    refine Engine.compile_congr (fun w hw => ?_) (fun f hf => ?_) (.inl rfl)
    · refine Catalog.agreeAt_insertAll fun f hmem heq => (hadded f hmem).1 ?_
      rwa [heq]
    · have hagree : (c.insertAll added).lookup.AgreeAt c.lookup f := by
        refine Catalog.agreeAt_insertAll fun g hmem heq => (hadded g hmem).2 ?_
        rwa [heq]
      exact hagree.declared

/-- A date that is not relative, under a catalog of the three fields that the request is about and
under one that has every field, a day apart. -/
theorem compile_depends_on_mentioned_date :
    let input := "tag = \"a/b\" since < \"2024-01-01 00:00:00.000\"; aggregationField = age"
    let defaults : Options := { queryType := .aggregation, aggregationType := some "avg" }
    let catalog :=
      ((Catalog.empty.addField "tag" "keyword").addField "since" "date").addField "age" "double"
    (Engine.compile ⟨catalog.lookup, defaults⟩ ⟨0, 0⟩ input).isOk = true ∧
      Engine.compile ⟨catalog.lookup, defaults⟩ ⟨0, 0⟩ input =
        Engine.compile ⟨.mixed, defaults⟩ ⟨86400, 0⟩ input ∧
      Engine.compile ⟨(catalog.insertAll [("owner", ⟨none, true⟩)]).lookup, defaults⟩ ⟨0, 0⟩ input =
        Engine.compile ⟨catalog.lookup, defaults⟩ ⟨0, 0⟩ input := by
  intro input defaults catalog
  let tokens : List Token :=
    [.word "tag", .operator .eq, .quoted "a/b", .word "since", .operator .lt,
    .quoted "2024-01-01 00:00:00.000"]
  have hsplit : splitRequest input =
      .ok ("tag = \"a/b\" since < \"2024-01-01 00:00:00.000\"", "aggregationField = age") := by
        decide +kernel
  have htokens : Token.ofText "tag = \"a/b\" since < \"2024-01-01 00:00:00.000\"" = tokens := by
    decide +kernel
  have hoptions : Options.ofClause "aggregationField = age" defaults =
      .ok { defaults with aggregationField := some "age" } := by decide +kernel
  have hmentions (t : Token) (h : Mentions input t) : t ∈ tokens := by
    obtain ⟨filter, clause, hs, ht⟩ := h
    obtain ⟨rfl, rfl⟩ := Prod.mk.inj (Except.ok.inj (hsplit.symm.trans hs))
    rwa [htokens] at ht
  have haggregates (f : String) (h : AggregatesOn defaults input f) : f = "age" := by
    obtain ⟨filter, clause, options, hs, ho, hf⟩ := h
    obtain ⟨rfl, rfl⟩ := Prod.mk.inj (Except.ok.inj (hsplit.symm.trans hs))
    obtain rfl := Except.ok.inj (hoptions.symm.trans ho)
    exact (Option.some.inj hf).symm
  refine ⟨by decide +kernel, ?_, ?_⟩
  · refine compile_depends_on_mentioned.1 _ _ _ _ _ _ (fun w hw => ?_) (fun f hf => ?_)
      (.inr fun t ht => ?_)
    · have hw := hmentions _ hw
      simp only [tokens, List.mem_cons, Token.word.injEq, reduceCtorEq, List.not_mem_nil, or_false,
        false_or] at hw
      rcases hw with rfl | rfl
      · constructor <;> decide +kernel
      · constructor <;> decide +kernel
    · obtain rfl := haggregates f hf
      decide +kernel
    · have htimeless : ∀ t ∈ tokens, t.Timeless := by decide +kernel
      exact htimeless t (hmentions t ht)
  · refine compile_depends_on_mentioned.2 _ _ _ _ _ fun f hf => ?_
    obtain rfl := List.mem_singleton.1 hf
    exact ⟨fun h => absurd (hmentions _ h) (by decide),
      fun h => absurd (haggregates _ h) (by decide)⟩

end Sift
