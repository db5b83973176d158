import Sift.Proofs.Numeral
import Sift.Proofs.RoundTrip

/-!
# What the leaves of a filter look like

Every leaf of a tree that has been read passed the same checks, however deep it stands. So the
leaves of read trees are of few forms: the field can be searched and its type allows the operator,
presence has a flag, and all other values are of the kind that the type of the field asks for.

* `Scalar.DenotedBy`: the value that a text stands for on a field of a type.
* `Leaf.Admissible`: what a leaf on a field of a type looks like.
* `Context.leaf_admissible`: a leaf that has been read is of that form.
* `everyLeaf_of_ofTokens`: what holds of all leaves that can be read holds of all leaves of a read
  tree.
* `leaves_admissible`: **all leaves of a read tree are of that form.**
-/

namespace Sift

/-! ### Texts of dates -/

namespace Time

/-- Characters in which dates are written. -/
def isDateChar (c : Char) : Bool :=
  c.isDigit || c == '-' || c == '+' || c == ':' || c == '.' || c == 'T'

theorem padded_isDateChar (width n : Nat) : (Text.padded width n).all isDateChar = true := by
  refine List.all_eq_true.2 fun c hc => ?_
  simp [isDateChar, Text.padded_isDigit width n c hc]

theorem yearText_isDateChar (year : Int) : (Reading.yearText year).all isDateChar = true := by
  have hdigits := padded_isDateChar 4 year.natAbs
  unfold Reading.yearText
  split
  · rw [List.all_cons, hdigits]
    rfl
  · split
    · rw [List.all_cons, hdigits]
      rfl
    · exact hdigits

theorem zoneText_isDateChar (zone : Zone) : zone.text.all isDateChar = true := by
  have hsign : isDateChar (if zone.minutes < 0 then '-' else '+') = true := by split <;> rfl
  have hcolon : isDateChar ':' = true := rfl
  simp [Zone.text, List.all_append, hsign, hcolon, padded_isDateChar, -List.all_eq_true]

theorem readingText_isDateChar (r : Reading) (zone : Zone) :
    (r.text zone).toList.all isDateChar = true := by
  have hsigns : isDateChar '-' = true ∧ isDateChar ':' = true ∧ isDateChar '.' = true ∧
      isDateChar 'T' = true :=
    ⟨rfl, rfl, rfl, rfl⟩
  simp [Reading.text, Reading.dateText, Reading.timeText, List.all_append, hsigns,
    padded_isDateChar, yearText_isDateChar, zoneText_isDateChar, -List.all_eq_true]

end Time

/-! ### Values -/

/-- **The text of an item of a list**: there is one, it has no slash, and no blanks around it. -/
structure ItemText (s : String) : Prop where
  nonempty : s ≠ ""
  noSlash : '/' ∉ s.toList
  trimmed : Text.trimmed s = s

theorem ItemText.of_solid {cs : List Char} (hsolid : Text.Solid cs) (hslash : '/' ∉ cs) :
    ItemText (String.ofList cs) := by
  obtain ⟨c, hc, -⟩ := hsolid.first
  have hne : cs ≠ [] := by
    rintro rfl
    simp at hc
  exact ⟨by simpa using hne, by simpa using hslash,
    by rw [Text.trimmed, String.toList_ofList, hsolid.trim]⟩

/-- A written date could be an item of a list. -/
theorem itemText_readingText (r : Time.Reading) (zone : Time.Zone) : ItemText (r.text zone) := by
  have hchars := Time.readingText_isDateChar r zone
  have hne : (r.text zone).toList ≠ [] := by simp [Time.Reading.text]
  have hsolid : Text.Solid (r.text zone).toList := by
    refine Text.solid_of_all hne (List.all_eq_true.2 fun c hc => ?_)
    have hblank : Text.isBlank c = false :=
      Text.isBlank_eq_false (p := Time.isDateChar) (by decide) (List.all_eq_true.1 hchars c hc)
    simp [hblank]
  have hslash : '/' ∉ (r.text zone).toList := by
    intro hmem
    have hdate : Time.isDateChar '/' = true := List.all_eq_true.1 hchars _ hmem
    exact absurd hdate (by decide)
  rw [← String.ofList_toList (s := r.text zone)]
  exact .of_solid hsolid hslash

/-- **The value that a text stands for** on a field of a type, the presence operator apart. -/
inductive Scalar.DenotedBy (ctx : Context) : FieldType → String → Scalar → Prop where
  | number {type : FieldType} {text : String} {x : Float} (numeric : type.isNumeric = true)
      (read : Decimal.readFinite? text = some x) (finite : x.isFinite = true) :
      DenotedBy ctx type text (.number x)
  | date {text date : String} (resolved : Time.resolveDate? ctx.now ctx.zone text = some date) :
      DenotedBy ctx .date text (.text date)
  | text {type : FieldType} {text : String} (textual : type.isTextual) :
      DenotedBy ctx type text (.text text)

/-- The values that an operator can have on a field of the type: a flag for presence, and otherwise
one value or several values that fit the type. -/
structure Operand.Admissible (ctx : Context) (type : FieldType) (op : Operator)
    (operand : Operand) : Prop where
  /-- Only equality takes a list, and a list has several items. -/
  list : ∀ vs, operand = .list vs →
    (op = .eq ∨ op = .ne) ∧ 2 ≤ vs.length ∧ ∀ s, .text s ∈ vs → ItemText s
  flag : op = .present → ∃ b, operand = .single (.bool b)
  values : op ≠ .present → ∀ v ∈ operand.values, ∃ text, Scalar.DenotedBy ctx type text v

/-- **What a leaf on a field of the type looks like** once it has been read. -/
structure Leaf.Admissible (ctx : Context) (type : FieldType) (l : Leaf) : Prop where
  known : ctx.lookup.contains l.field = true
  indexed : ctx.lookup.indexed l.field = true
  declared : (ctx.lookup.declared l.field).bind FieldType.ofName? = some type
  filterable : type.isFilterable = true
  allowed : type.allows l.operator = true
  /-- There are no ranges on unordered types. -/
  unordered : type.isTextual → l.operator = .eq ∨ l.operator = .ne ∨ l.operator = .present
  value : l.operand.Admissible ctx type l.operator

variable {ctx : Context} {field text : String} {type : FieldType} {op : Operator} {v : Scalar}
  {l : Leaf}

theorem FieldType.kind_of_isFilterable (h : type.isFilterable = true) :
    type = .date ∨ type.isNumeric = true ∨ type.isTextual := by
  cases type <;> simp_all [FieldType.isFilterable, FieldType.isNumeric, FieldType.isTextual]

theorem FieldType.isTextual.operator_cases (h : type.isTextual) (hop : type.allows op = true) :
    op = .eq ∨ op = .ne ∨ op = .present := by
  have hordered : type.isOrdered = false := by rcases h with rfl | rfl | rfl <;> rfl
  have hbound : op.bound? = none := by simpa [FieldType.allows, h.isFilterable, hordered] using hop
  cases op <;> simp_all [Operator.bound?]

theorem Operator.eq_or_ne (h : op.acceptsList = true) : op = .eq ∨ op = .ne := by
  cases op <;> simp_all [Operator.acceptsList]

namespace Context

theorem scalar_denotedBy (hop : op ≠ .present) (hf : type.isFilterable = true)
    (h : ctx.scalar field type op text = .ok v) : Scalar.DenotedBy ctx type text v := by
  unfold scalar at h
  rw [if_neg hop] at h
  rcases FieldType.kind_of_isFilterable hf with rfl | hnum | htext
  · rw [if_pos rfl, orError_eq_ok, Option.map_eq_some_iff] at h
    obtain ⟨date, hdate, rfl⟩ := h
    exact .date hdate
  · have hdate : type ≠ .date := by rintro rfl; simp [FieldType.isNumeric] at hnum
    rw [if_neg hdate, if_pos hnum, orError_eq_ok, Option.map_eq_some_iff] at h
    obtain ⟨x, hx, rfl⟩ := h
    exact .number hnum hx (Option.filter_eq_some_iff.1 hx).2
  · have hdate : type ≠ .date := by rintro rfl; simp [FieldType.isTextual] at htext
    have hnum : ¬type.isNumeric = true := by rcases htext with rfl | rfl | rfl <;> decide
    rw [if_neg hdate, if_neg hnum] at h
    obtain rfl := Except.ok.inj h
    exact .text htext

theorem item_eq_ok {piece : List Char} : ctx.item field type op text piece = .ok v ↔
    Text.trim piece ≠ [] ∧ ctx.scalar field type op (String.ofList (Text.trim piece)) = .ok v := by
  unfold item
  split
  next hnil => simp [hnil]
  next hne =>
    have hne' : Text.trim piece ≠ [] := fun h => hne h
    simp [hne']

/-- An item of a list is the value of its text, and a text among the items could be written as
one. -/
theorem item_denotedBy {piece : List Char} (hop : op ≠ .present) (hf : type.isFilterable = true)
    (hslash : '/' ∉ piece) (h : ctx.item field type op text piece = .ok v) :
    (∃ s, Scalar.DenotedBy ctx type s v) ∧ ∀ s, v = .text s → ItemText s := by
  obtain ⟨hne, hscalar⟩ := item_eq_ok.1 h
  have hdenoted := scalar_denotedBy hop hf hscalar
  refine ⟨⟨_, hdenoted⟩, ?_⟩
  rintro s rfl
  cases hdenoted with
  | date resolved =>
    obtain ⟨literal, -, hresolve⟩ := Option.bind_eq_some_iff.1 resolved
    obtain ⟨m, -, hm⟩ := Option.bind_eq_some_iff.1 hresolve
    obtain rfl := Option.some.inj hm
    exact itemText_readingText (m.reading ctx.zone) ctx.zone
  | text textual =>
    exact .of_solid (Text.solid_trim hne) fun hmem => hslash (Text.mem_of_mem_trim hmem)

/-- The items of a list are several, each is the value of some text, and a text among them could be
written as one. -/
theorem list_denotedBy {vs : List Scalar} (hop : op ≠ .present) (hf : type.isFilterable = true)
    (hl : isListText text = true)
    (h : (Text.splitOnChar '/' text.toList).mapM (ctx.item field type op text) = .ok vs) :
    2 ≤ vs.length ∧ ∀ v ∈ vs, (∃ s, Scalar.DenotedBy ctx type s v) ∧
      ∀ s, v = .text s → ItemText s := by
  have hslash : '/' ∈ text.toList := by simpa [isListText] using hl
  obtain ⟨hlength, hitems⟩ := of_mapM_ok h
  refine ⟨by rw [hlength]; exact Text.two_le_pieces hslash, fun v hv => ?_⟩
  obtain ⟨piece, hpiece, hitem⟩ := hitems v hv
  exact item_denotedBy hop hf (Text.not_mem_piece hpiece) hitem

theorem operand_admissible {operand : Operand} (hf : type.isFilterable = true)
    (hlist : isListText text = true → op.acceptsList = true)
    (h : ctx.operand field type op text = .ok operand) : operand.Admissible ctx type op := by
  cases hl : isListText text with
  | false =>
    obtain ⟨x, hx, rfl⟩ := operand_single hl h
    refine ⟨by simp, ?_, ?_⟩
    · rintro rfl
      obtain ⟨b, rfl⟩ := scalar_present hx
      exact ⟨b, rfl⟩
    · intro hop v hv
      obtain rfl := List.mem_singleton.1 hv
      exact ⟨text, scalar_denotedBy hop hf hx⟩
  | true =>
    obtain ⟨xs, hxs, rfl⟩ := operand_list hl h
    have hequality := Operator.eq_or_ne (hlist hl)
    have hop : op ≠ .present := by rcases hequality with rfl | rfl <;> simp
    obtain ⟨hlength, hitems⟩ := list_denotedBy hop hf hl hxs
    refine ⟨?_, fun h => absurd h hop, fun _ v hv => (hitems v hv).1⟩
    rintro vs hvs
    obtain rfl := Operand.list.inj hvs
    exact ⟨hequality, hlength, fun s hs => (hitems _ hs).2 s rfl⟩

/-- **A leaf that has been read on a known field is of the form above.** -/
theorem leaf_admissible (known : ctx.lookup.contains field = true)
    (h : ctx.leaf field op text = .ok l) :
    ∃ type, l.Admissible ctx type := by
  obtain ⟨type, v, htype, hv, rfl⟩ := leaf_eq_ok.1 h
  obtain ⟨declared, hdeclared, hindexed, hfilterable, hallows, hlist⟩ := htype
  obtain ⟨hname, hf⟩ := Option.filter_eq_some_iff.1 hfilterable
  have hbind : (ctx.lookup.declared field).bind FieldType.ofName? = some type := by
    rw [hdeclared]
    exact hname
  exact ⟨type, known, hindexed, hbind, hf, hallows, fun ht => ht.operator_cases hallows,
    operand_admissible hf hlist hv⟩

end Context

/-! ### Trees -/

namespace Filter

/-- What holds of all leaves that can be read holds of all leaves of an expression, by induction on
the grammar. -/
theorem everyLeaf_of_expression {p : Leaf → Prop} {d : Nat} {ts : List Token} {es : List Entry}
    (hp : ∀ field op text l, ctx.lookup.contains field = true → ctx.leaf field op text = .ok l →
      p l)
    (h : Expression ctx d ts es) : ∀ c ∈ conditionsOf es, c.EveryLeaf p := by
  induction h with
  | empty => simp
  | gate g _ ih => simpa using ih
  | comparison known value leaf _ ih =>
    intro c hc
    rcases List.mem_cons.1 hc with rfl | hc
    · exact Condition.everyLeaf_leaf.2 (hp _ _ _ _ known leaf)
    · exact ih c hc
  | group body rest ihb ih =>
    intro c hc
    rcases List.mem_cons.1 hc with rfl | hc
    · exact Condition.everyLeaf_group.2 ihb
    · exact ih c hc

/-- What holds of all leaves that can be read holds of all leaves of a read tree. -/
theorem everyLeaf_of_ofTokens {p : Leaf → Prop} {ts : List Token} {t : Condition}
    (hp : ∀ field op text l, ctx.lookup.contains field = true → ctx.leaf field op text = .ok l →
      p l)
    (h : ofTokens ctx ts = .ok t) : t.EveryLeaf p := by
  obtain ⟨es, hx, rfl⟩ := expression_of_ofTokens h
  exact Condition.everyLeaf_group.2 (everyLeaf_of_expression hp hx)

end Filter

/-- **All leaves of a read tree are of that form.** Whatever the fields, the zone and the instant,
every leaf at any depth of the tree of accepted tokens stands on a known, indexed field of a type
that can be filtered and allows the operator, and its value is a flag or of the kind that the type
asks for. -/
theorem leaves_admissible (ctx : Context) (ts : List Token) (t : Condition)
    (h : Filter.ofTokens ctx ts = .ok t) :
    t.EveryLeaf fun l => ∃ type, l.Admissible ctx type :=
  Filter.everyLeaf_of_ofTokens (fun _ _ _ _ known leaf => Context.leaf_admissible known leaf) h

/-- Every path is an indexed field: two names stand for numbers and dates, all others for
keywords. -/
def Lookup.mixed : Lookup where
  contains _ := true
  declared path :=
    some (if path = "age" then "double" else if path = "since" then "date" else "keyword")
  indexed _ := true

/-- A list with a sign and blanks in it, and in a group a date, a number and a presence test. -/
theorem leaves_admissible_mixed :
    let tokens : List Token :=
      [.word "tag", .operator .ne, .quoted " x;/ y", .openGroup, .gate .or, .word "since",
      .operator .ge, .word "now-2d", .word "age", .operator .eq, .word "7.5", .word "tag",
      .operator .present, .word "TRUE", .closeGroup]
    let tree : Condition := .group .and [.leaf ⟨"tag", .ne, .list [.text "x;", .text "y"]⟩,
      .group .or [.leaf ⟨"since", .ge, .single (.text "1969-12-30T00:00:00.000+00:00")⟩,
        .leaf ⟨"age", .eq, .single (.number 7.5)⟩, .leaf ⟨"tag", .present, .single (.bool true)⟩]]
    Filter.ofTokens ⟨.mixed, .utc, ⟨0, 0⟩⟩ tokens = .ok tree ∧
      tree.EveryLeaf fun l => ∃ type, l.Admissible ⟨.mixed, .utc, ⟨0, 0⟩⟩ type := by
  intro tokens tree
  have hread : Filter.ofTokens ⟨.mixed, .utc, ⟨0, 0⟩⟩ tokens = .ok tree := by rfl
  exact ⟨hread, leaves_admissible _ _ _ hread⟩

end Sift
