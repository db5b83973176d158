import Sift.Options.Printer
import Sift.Proofs.Numeral
import Sift.Proofs.OptionGrammar

/-!
# Options written as a clause

Options written as a clause behind a filter come back unchanged. Every value stands in quotes, so
commas, semicolons, equals signs and blanks in it have to pass the splitting of the request, the
trimming of the clause, the splitting of the pairs and the reading of each pair. Numbers are written
in decimal and read back as numbers.

* `Options.WritablePair`: the pairs that can be written, and `Options.pairs_pairsText`: any such
  pairs are the pairs of their clause.
* `Options.setAll_toPairs`: setting all options of `o` gives `o`, whatever was set before.
* `clauseText_round_trip`: **written options are read back**, behind any filter.
-/

namespace Sift

namespace Options

variable {p : String × String} {ps : List (String × String)} {o o' base : Options}
  {separator : Char}

/-! ### One pair -/

/-- A text that can be the key of a pair. -/
def IsKey (s : String) : Prop := s.toList ≠ [] ∧ s.toList.all isKeyChar = true

instance (s : String) : Decidable (IsKey s) := inferInstanceAs (Decidable (_ ∧ _))

/-- **A pair that can be written**: its value can stand in quotes. -/
structure WritablePair (p : String × String) : Prop where
  key : IsKey p.1
  value : '"' ∉ p.2.toList

theorem pairText_toList (p : String × String) :
    (pairText p).toList = p.1.toList ++ " = ".toList ++ '"' :: (p.2.toList ++ ['"']) := by
  simp [pairText]

/-- The blank on either side of the equals sign. -/
def Blanks.space : Blanks := ⟨[' '], List.forall_mem_singleton.2 (by decide)⟩

/-- The parts of a written pair, with the value in quotes. -/
def WritablePair.fragment (h : WritablePair p) : Fragment where
  lead := ⟨[], by simp⟩
  key := ⟨p.1.toList, h.key.1, fun c hc => isKeyChar_iff.1 (List.all_eq_true.1 h.key.2 c hc)⟩
  beforeSign := .space
  behindSign := .space
  value := .quoted p.2.toList h.value
  trail := ⟨[], by simp⟩

theorem WritablePair.fragment_text (h : WritablePair p) :
    h.fragment.text = (pairText p).toList := by
  simp [fragment, Blanks.space, Fragment.text, Value.written, pairText_toList]

theorem WritablePair.fragment_pair (h : WritablePair p) : h.fragment.pair = p := by
  simp [fragment, Fragment.pair, Value.text]

/-- Separators of pairs and of clauses stand in the quotes of a written pair only. -/
theorem pairText_whole (h : WritablePair p) (hseparator : Foreign separator) :
    Text.Whole separator (pairText p).toList := by
  rw [← h.fragment_text]
  exact h.fragment.whole hseparator

theorem pairText_solid (h : WritablePair p) : Text.Solid (pairText p).toList := by
  have hkey : Text.Solid p.1.toList := by
    refine Text.solid_of_all h.key.1 (List.all_eq_true.2 fun c hc => ?_)
    simp [isBlank_of_isKeyChar (List.all_eq_true.1 h.key.2 c hc)]
  have hquote : Text.Solid ['"'] := Text.solid_of_all (by decide) (by decide)
  have htext : (pairText p).toList =
      p.1.toList ++ ((" = ".toList ++ '"' :: p.2.toList) ++ ['"']) := by
    simp [pairText_toList]
  rw [htext]
  exact hkey.join hquote _

/-- **A written pair is read back.** -/
theorem pair_pairText (h : WritablePair p) : pair (pairText p).toList = .ok p :=
  pair_eq_ok_iff.2 ⟨h.fragment, h.fragment_text, h.fragment_pair⟩

/-! ### Several pairs -/

/-- The clause with these pairs. -/
def pairsText (ps : List (String × String)) : String := ",".intercalate (ps.map pairText)

theorem pairsText_toList (ps : List (String × String)) :
    (pairsText ps).toList = [','].intercalate (ps.map fun p => (pairText p).toList) := by
  simp [pairsText, Function.comp_def]

theorem pairsText_closed {P : List Char → Prop} (hjoin : ∀ a b, P a → P b → P (a ++ ',' :: b))
    (hne : ps ≠ []) (h : ∀ p ∈ ps, P (pairText p).toList) : P (pairsText ps).toList := by
  rw [pairsText_toList]
  apply Text.intercalate_closed hjoin (by simpa using hne)
  intro piece hpiece
  obtain ⟨p, hp, rfl⟩ := List.mem_map.1 hpiece
  exact h p hp

theorem pairsText_solid (hne : ps ≠ []) (h : ∀ p ∈ ps, WritablePair p) :
    Text.Solid (pairsText ps).toList :=
  pairsText_closed (fun _ _ ha hb => ha.join hb [',']) hne fun p hp => pairText_solid (h p hp)

theorem pairsText_whole (hne : ps ≠ []) (h : ∀ p ∈ ps, WritablePair p) :
    Text.Whole ';' (pairsText ps).toList := by
  have hcomma : Text.Whole ';' [','] := Text.whole_of_plain (by decide) (by decide)
  exact pairsText_closed (fun _ _ ha hb => ha.append (hcomma.append hb)) hne
    fun p hp => pairText_whole (h p hp) (by decide)

/-- **Written pairs are the pairs of their clause.** -/
theorem pairs_pairsText (hne : ps ≠ []) (h : ∀ p ∈ ps, WritablePair p) :
    pairs (pairsText ps) = .ok ps := by
  have hsolid := pairsText_solid hne h
  have htext : (pairsText ps).toList ≠ [] := by
    obtain ⟨c, hc, -⟩ := hsolid.first
    intro hnil
    simp [hnil] at hc
  have hwhole : ∀ piece ∈ ps.map fun p => (pairText p).toList, Text.Whole ',' piece := by
    intro piece hpiece
    obtain ⟨p, hp, rfl⟩ := List.mem_map.1 hpiece
    exact pairText_whole (h p hp) (by decide)
  have hsplit : Text.splitUnquoted ',' false (pairsText ps).toList =
      ps.map fun p => (pairText p).toList := by
    rw [pairsText_toList]
    exact Text.splitUnquoted_intercalate (by decide) (by simpa using hne) hwhole
  have hread : ps.mapM (pair ∘ fun p => (pairText p).toList) = .ok (ps.map id) :=
    mapM_ok fun p hp => pair_pairText (h p hp)
  rw [pairs, hsolid.trim, if_neg htext, hsplit, List.mapM_map, hread, List.map_id]

/-! ### Options set by their pairs -/

theorem setAll_eq_bind (o : Options) (p : String × String) (ps : List (String × String)) :
    o.setAll (p :: ps) = o.set p.1 p.2 >>= fun o' => o'.setAll ps := by
  rw [setAll, List.foldlM_cons]
  rfl

theorem setAll_cons {key value : String} (h : o.set key value = .ok o') :
    o.setAll ((key, value) :: ps) = o'.setAll ps := by
  rw [setAll_eq_bind, h, ok_bind]

theorem setAll_append {qs : List (String × String)} (h : o.setAll ps = .ok o') :
    o.setAll (ps ++ qs) = o'.setAll qs := by
  unfold setAll at h ⊢
  rw [List.foldlM_append, h]
  rfl

theorem set_queryType (o : Options) (t : QueryType) :
    o.set "queryType" t.name = .ok { o with queryType := t } := by
  cases t <;> rfl

theorem set_interval (o : Options) {n : Int} (h : Text.IsInt64 n) :
    o.set "interval" (toString n) = .ok { o with histogramInterval := n } := by
  simp only [set, Text.readInt64?_toString h]

theorem set_size (o : Options) {n : Int} (h : Text.IsInt64 n) :
    o.set "size" (toString n) = .ok { o with size := n } := by
  simp only [set, Text.readInt64?_toString h]

/-- The kind of an aggregation is written only where it is set, so it has to be missing already
where it is not. -/
theorem setAll_aggregationType {type : Option String} (h : type = none → o.aggregationType = none) :
    o.setAll (type.map fun s => ("aggregationType", s)).toList =
      .ok { o with aggregationType := type } := by
  cases type with
  | none =>
    show (.ok o : QueryResult Options) = .ok { o with aggregationType := none }
    rw [← h rfl]
  | some s => rfl

theorem setAll_aggregationField {field : Option String}
    (h : field = none → o.aggregationField = none) :
    o.setAll (field.map fun s => ("aggregationField", s)).toList =
      .ok { o with aggregationField := field } := by
  cases field with
  | none =>
    show (.ok o : QueryResult Options) = .ok { o with aggregationField := none }
    rw [← h rfl]
  | some s => rfl

/-- **Options that can be written**: their texts can stand in quotes, and their numbers fit 64
bits. -/
structure Writable (o : Options) : Prop where
  aggregationType : ∀ s, o.aggregationType = some s → '"' ∉ s.toList
  aggregationField : ∀ s, o.aggregationField = some s → '"' ∉ s.toList
  fixedInterval : '"' ∉ o.fixedInterval.toList
  histogramInterval : Text.IsInt64 o.histogramInterval
  size : Text.IsInt64 o.size
  timeZone : '"' ∉ o.timeZone.toList

theorem Writable.toPairs (h : o.Writable) : ∀ p ∈ o.toPairs, WritablePair p := by
  intro p hp
  simp only [Options.toPairs, List.mem_append, List.mem_cons, List.not_mem_nil, or_false,
    Option.mem_toList, Option.map_eq_some_iff] at hp
  obtain ((rfl | rfl | rfl | rfl | rfl) | ⟨s, hs, rfl⟩) | ⟨s, hs, rfl⟩ := hp
  · have hname : '"' ∉ o.queryType.name.toList := by cases o.queryType <;> decide
    exact ⟨(by decide : IsKey "queryType"), hname⟩
  · exact ⟨(by decide : IsKey "fixed_interval"), h.fixedInterval⟩
  · exact ⟨(by decide : IsKey "interval"), Text.quote_not_mem_toString _⟩
  · exact ⟨(by decide : IsKey "size"), Text.quote_not_mem_toString _⟩
  · exact ⟨(by decide : IsKey "timeZone"), h.timeZone⟩
  · exact ⟨(by decide : IsKey "aggregationType"), h.aggregationType s hs⟩
  · exact ⟨(by decide : IsKey "aggregationField"), h.aggregationField s hs⟩

/-- **Setting all options.** What was set before is replaced, except for an aggregation that is not
written. -/
theorem setAll_toPairs (ho : o.Writable)
    (htype : o.aggregationType = none → base.aggregationType = none)
    (hfield : o.aggregationField = none → base.aggregationField = none) :
    base.setAll o.toPairs = .ok o := by
  let plain : Options :=
    { o with aggregationType := base.aggregationType, aggregationField := base.aggregationField }
  have hplain : base.setAll [("queryType", o.queryType.name), ("fixed_interval", o.fixedInterval),
      ("interval", toString o.histogramInterval), ("size", toString o.size),
      ("timeZone", o.timeZone)] = .ok plain := by
    rw [setAll_cons (set_queryType _ _), setAll_cons rfl,
      setAll_cons (set_interval _ ho.histogramInterval), setAll_cons (set_size _ ho.size),
      setAll_cons rfl]
    rfl
  have hwithType := setAll_aggregationType (o := plain) htype
  have hwithField :=
    setAll_aggregationField (o := { plain with aggregationType := o.aggregationType }) hfield
  rw [Options.toPairs, List.append_assoc, setAll_append hplain, setAll_append hwithType, hwithField]

end Options

/-- **Written options are read back.** Take options whose texts have no double quote and whose
numbers fit 64 bits, and write them as a clause behind any filter that has an even number of quotes
and no semicolon outside of them. Then the request is split into that filter, trimmed, and that
clause, and the clause sets exactly these options on top of any others, unless those have an
aggregation where these have none. -/
theorem clauseText_round_trip (o base : Options) (filter : String) (ho : o.Writable)
    (htype : o.aggregationType = none → base.aggregationType = none)
    (hfield : o.aggregationField = none → base.aggregationField = none)
    (hpaired : Text.Paired filter.toList) (hquoted : Text.Enclosed ';' false filter.toList) :
    splitRequest (filter ++ ";" ++ o.clauseText) = .ok (Text.trimmed filter, o.clauseText) ∧
      Options.ofClause o.clauseText base = .ok o := by
  have hne : o.toPairs ≠ [] := by simp [Options.toPairs]
  have hwhole : Text.Whole ';' o.clauseText.toList := Options.pairsText_whole hne ho.toPairs
  have hsolid : Text.Solid o.clauseText.toList := Options.pairsText_solid hne ho.toPairs
  have hpairs : Options.pairs o.clauseText = .ok o.toPairs := Options.pairs_pairsText hne ho.toPairs
  constructor
  · have htext : (filter ++ ";" ++ o.clauseText).toList =
      filter.toList ++ ';' :: o.clauseText.toList := by simp
    rw [splitRequest, htext, Text.splitUnquoted_first (by decide) hpaired hquoted, hwhole.split]
    simp only [hsolid.trim, String.ofList_toList]
    rfl
  · rw [Options.ofClause, hpairs, ok_bind]
    exact Options.setAll_toPairs ho htype hfield

/-- Options with separators, signs and line breaks in their texts, and the two ends of the range of
numbers. -/
def awkwardOptions : Options where
  queryType := .aggregation
  aggregationType := some "a,b;size=1"
  fixedInterval := " \n"
  histogramInterval := -9223372036854775808
  size := 9223372036854775807
  timeZone := ""

/-- The options above behind a filter with a semicolon in quotes, on top of options that all
differ. -/
theorem clauseText_round_trip_awkward :
    awkwardOptions.clauseText = "queryType = \"aggregation\",fixed_interval = \" \n\"," ++
      "interval = \"-9223372036854775808\",size = \"9223372036854775807\",timeZone = \"\"," ++
      "aggregationType = \"a,b;size=1\"" ∧
    splitRequest (" a = \"x;\" " ++ ";" ++ awkwardOptions.clauseText) =
      .ok ("a = \"x;\"", awkwardOptions.clauseText) ∧
    Options.ofClause awkwardOptions.clauseText
        { aggregationType := some "avg", timeZone := "+01:00" } =
      .ok awkwardOptions := by
  have hwritable : awkwardOptions.Writable := by
    refine ⟨?_, ?_, by decide, by decide, by decide, by decide⟩
    · rintro s hs
      obtain rfl := Option.some.inj hs
      decide
    · rintro s hs
      simp [awkwardOptions] at hs
  have htrip :=
    clauseText_round_trip awkwardOptions { aggregationType := some "avg", timeZone := "+01:00" }
    " a = \"x;\" " hwritable (by decide) (by decide) (by decide) (by decide)
  have htrimmed : Text.trimmed " a = \"x;\" " = "a = \"x;\"" := by decide +kernel
  rw [htrimmed] at htrip
  exact ⟨by decide +kernel, htrip⟩

end Sift
