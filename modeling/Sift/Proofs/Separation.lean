import Sift.Proofs.Agreement
import Sift.Proofs.Pieces

/-!
# Where a request is split

A request is split at a semicolon with an even number of quotes in front of it. Scanning tells
quotes apart in another way: a quote looks for the next one, and is passed over if there is none.
The two agree at every place where a request is split, so the tokens of the parts are those of the
request. They differ behind a quote that is never closed: nothing is split there, though nothing
stands in quotes, and a semicolon is passed over.

* `Text.SplitsAt`: a separator with an even number of quotes in front of it.
* `splitRequest_cases`: the three ways in which a request is split.
* `splitRequest_scan`: **splitting fails at two such semicolons, and otherwise keeps all tokens.**
* `separators_quoted_iff`: **the semicolons of a filter all stand in quoted texts** exactly if each
  has a quote behind it.
-/

namespace Sift

namespace Text

variable {separator : Char} {cs front rest : List Char} {n : Nat}

/-- **A separator outside quotes** stands at the place `n`: the quotes in front of it pair up. -/
def SplitsAt (separator : Char) (cs : List Char) (n : Nat) : Prop :=
  cs[n]? = some separator ∧ Paired (cs.take n)

/-- At least two separators stand outside quotes. -/
def SplitsTwice (separator : Char) (cs : List Char) : Prop :=
  ∃ i j, i < j ∧ SplitsAt separator cs i ∧ SplitsAt separator cs j

theorem splitsAt_iff : SplitsAt separator cs n ↔
    ∃ before after, cs = before ++ separator :: after ∧ before.length = n ∧ Paired before := by
  constructor
  · rintro ⟨hsep, hpaired⟩
    obtain ⟨hn, -⟩ := List.getElem?_eq_some_iff.1 hsep
    exact ⟨cs.take n, cs.drop (n + 1), eq_take_append_cons hsep, List.length_take_of_le hn.le,
      hpaired⟩
  · rintro ⟨before, after, rfl, rfl, hpaired⟩
    exact ⟨by simp, by rwa [List.take_left]⟩

theorem Enclosed.not_splitsAt (h : Enclosed separator false cs) : ¬SplitsAt separator cs n := by
  rw [splitsAt_iff]
  rintro ⟨before, after, hcs, -, hpaired⟩
  exact enclosed_iff.1 h before after hcs hpaired

/-- Where there is a separator outside quotes there is a first one. By induction on the length: the
text in front of any such separator has no other one, or it has a first one. -/
theorem exists_first (h : ¬Enclosed separator false cs) :
    ∃ front rest, cs = front ++ separator :: rest ∧ Paired front ∧
      Enclosed separator false front := by
  induction hn : cs.length using Nat.strong_induction_on generalizing cs with
  | _ n ih =>
    simp only [enclosed_iff, not_forall, not_not] at h
    obtain ⟨before, after, rfl, hpaired⟩ := h
    by_cases hfirst : Enclosed separator false before
    · exact ⟨before, after, rfl, hpaired, hfirst⟩
    · obtain ⟨front, rest, rfl, hfront⟩ := ih before.length (by simp [← hn]) hfirst rfl
      exact ⟨front, rest ++ separator :: after, by simp, hfront⟩

/-- A text is split at its first separator outside quotes. -/
theorem splitUnquoted_first (hsep : separator ≠ '"') (hpaired : Paired front)
    (hfirst : Enclosed separator false front) (rest : List Char) :
    splitUnquoted separator false (front ++ separator :: rest) =
      front :: splitUnquoted separator false rest :=
  (whole_of_enclosed hpaired hfirst).split_cons hsep rest

/-- The separators outside quotes are the first one and those of the text behind it. -/
theorem splitsAt_first (hsep : separator ≠ '"') (hpaired : Paired front)
    (hfirst : Enclosed separator false front) :
    SplitsAt separator (front ++ separator :: rest) n ↔
      n = front.length ∨ ∃ m, n = front.length + 1 + m ∧ SplitsAt separator rest m := by
  have hsep' : Paired (front ++ [separator]) :=
    hpaired.append_iff.2 (paired_of_not_mem (by simpa using Ne.symm hsep))
  constructor
  · rw [splitsAt_iff]
    rintro ⟨before, after, hcs, rfl, hbefore⟩
    rcases List.append_eq_append_iff.1 hcs with ⟨between, rfl, hrest⟩ | ⟨between, hfront, hrest⟩
    · cases between with
      | nil => exact .inl (by simp)
      | cons x between =>
        rw [List.cons_append] at hrest
        obtain ⟨rfl, rfl⟩ := List.cons.inj hrest
        refine .inr ⟨between.length, by simp; omega, splitsAt_iff.2 ⟨between, after, rfl, rfl, ?_⟩⟩
        rw [List.append_cons] at hbefore
        exact hsep'.append_iff.1 hbefore
    · cases between with
      | nil => exact .inl (by simp [hfront])
      | cons x between =>
        obtain rfl : separator = x := (List.cons.inj hrest).1
        exact absurd hbefore (enclosed_iff.1 hfirst before between hfront)
  · rintro (rfl | ⟨m, rfl, hm⟩)
    · exact splitsAt_iff.2 ⟨front, rest, rfl, rfl, hpaired⟩
    · obtain ⟨before, after, rfl, rfl, hbefore⟩ := splitsAt_iff.1 hm
      refine splitsAt_iff.2 ⟨front ++ separator :: before, after, by simp, by simp; omega, ?_⟩
      rw [List.append_cons]
      exact hsep'.append_iff.2 hbefore

/-! ### Blanks around a text -/

theorem paired_of_blank (h : ∀ c ∈ cs, isBlank c = true) : Paired cs :=
  paired_of_not_mem fun hmem => absurd (h _ hmem) (by decide)

theorem Enclosed.trim (h : Enclosed separator false cs) : Enclosed separator false (trim cs) := by
  obtain ⟨left, right, hcs, hleft, -⟩ := exists_blanks cs
  rw [hcs] at h
  exact (h.of_append_right (paired_of_blank hleft)).of_append_left

theorem Paired.trim (h : Paired cs) : Paired (trim cs) := by
  obtain ⟨left, right, hcs, hleft, hright⟩ := exists_blanks cs
  rw [hcs, (paired_of_blank hleft).append_iff] at h
  exact h.of_append_plain fun hmem => absurd (hright _ hmem) (by decide)

end Text

/-! ### The parts of a request -/

/-- **The three ways in which a request is split**: it has no semicolon outside quotes, or one, or
more. -/
theorem splitRequest_cases (input : String) :
    (Text.Enclosed ';' false input.toList ∧
      splitRequest input = .ok (String.ofList (Text.trim input.toList), "")) ∨
    (∃ front rest, input.toList = front ++ ';' :: rest ∧ Text.Paired front ∧
      Text.Enclosed ';' false front ∧ Text.Enclosed ';' false rest ∧
      splitRequest input = .ok (String.ofList (Text.trim front), String.ofList (Text.trim rest))) ∨
    (Text.SplitsTwice ';' input.toList ∧ splitRequest input = .error .manySeparators) := by
  have hquote : ';' ≠ '"' := by decide
  by_cases hnone : Text.Enclosed ';' false input.toList
  · refine .inl ⟨hnone, ?_⟩
    rw [splitRequest, hnone.split]
  obtain ⟨front, rest, hinput, hpaired, hfirst⟩ := Text.exists_first hnone
  by_cases hone : Text.Enclosed ';' false rest
  · refine .inr (.inl ⟨front, rest, hinput, hpaired, hfirst, hone, ?_⟩)
    rw [splitRequest, hinput, Text.splitUnquoted_first hquote hpaired hfirst, hone.split]
  obtain ⟨middle, last, rfl, hpaired', hfirst'⟩ := Text.exists_first hone
  refine .inr (.inr ⟨?_, ?_⟩)
  · rw [hinput]
    refine ⟨front.length, front.length + 1 + middle.length, by omega, ?_, ?_⟩
    · exact (Text.splitsAt_first hquote hpaired hfirst).2 (.inl rfl)
    · have hsecond : Text.SplitsAt ';' (middle ++ ';' :: last) middle.length :=
        (Text.splitsAt_first hquote hpaired' hfirst').2 (.inl rfl)
      exact (Text.splitsAt_first hquote hpaired hfirst).2 (.inr ⟨_, rfl, hsecond⟩)
  · obtain ⟨piece, pieces, hlast⟩ :=
      List.exists_cons_of_ne_nil (Text.splitUnquoted_ne_nil ';' false last)
    rw [splitRequest, hinput, Text.splitUnquoted_first hquote hpaired hfirst,
      Text.splitUnquoted_first hquote hpaired' hfirst', hlast]

/-- The parts of a request that is split: nothing else than the texts around its semicolon,
trimmed. -/
theorem of_splitRequest {input filter clause : String}
    (h : splitRequest input = .ok (filter, clause)) :
    (Text.Enclosed ';' false input.toList ∧ filter.toList = Text.trim input.toList ∧
      clause.toList = []) ∨
    ∃ front rest, input.toList = front ++ ';' :: rest ∧ Text.Paired front ∧
      Text.Enclosed ';' false front ∧
      filter.toList = Text.trim front ∧ clause.toList = Text.trim rest := by
  rcases splitRequest_cases input
    with ⟨hnone, hsplit⟩ | ⟨front, rest, hinput, hpaired, hfirst, -, hsplit⟩ |
      ⟨-, hsplit⟩
  · obtain ⟨rfl, rfl⟩ := Prod.mk.inj (Except.ok.inj (h.symm.trans hsplit))
    exact .inl ⟨hnone, String.toList_ofList, rfl⟩
  · obtain ⟨rfl, rfl⟩ := Prod.mk.inj (Except.ok.inj (h.symm.trans hsplit))
    exact .inr ⟨front, rest, hinput, hpaired, hfirst, String.toList_ofList, String.toList_ofList⟩
  · simp [hsplit] at h

/-- A semicolon ends every word and every operator, and is no part of a token itself. -/
theorem Token.scan_separated {front : List Char} (hpaired : Text.Paired front) (rest : List Char) :
    Token.scan (front ++ ';' :: rest) = Token.scan front ++ Token.scan rest := by
  have hapart : Token.Apart front (';' :: rest) := Token.apart_of_head (by decide) (by decide)
  rw [Token.scan_append (.inl hpaired) hapart,
    Token.scan_skip (Token.lexeme?_eq_none_iff.2 (.inr (.inr Token.isStray_semicolon)))]

/-- The parts of a request have the tokens of the request. -/
theorem splitRequest_ofText {input filter clause : String}
    (h : splitRequest input = .ok (filter, clause)) :
    Token.ofText filter ++ Token.ofText clause = Token.ofText input := by
  unfold Token.ofText
  rcases of_splitRequest h
    with ⟨-, hfilter, hclause⟩ | ⟨front, rest, hinput, hpaired, -, hfilter, hclause⟩
  · rw [hfilter, hclause, Token.scan_trim, Token.scan, List.append_nil]
  · rw [hfilter, hclause, Token.scan_trim, Token.scan_trim, hinput, Token.scan_separated hpaired]

/-- At most one semicolon outside quotes leaves a filter and a clause. -/
theorem splitRequest_eq_error_iff {input : String} :
    splitRequest input = .error .manySeparators ↔ Text.SplitsTwice ';' input.toList := by
  have hquote : ';' ≠ '"' := by decide
  rcases splitRequest_cases input
    with ⟨hnone, hsplit⟩ | ⟨front, rest, hinput, hpaired, hfirst, hone, hsplit⟩ |
      ⟨htwice, hsplit⟩
  · rw [hsplit]
    refine ⟨fun h => by simp at h, ?_⟩
    rintro ⟨i, j, -, hi, -⟩
    exact absurd hi hnone.not_splitsAt
  · rw [hsplit]
    refine ⟨fun h => by simp at h, ?_⟩
    rintro ⟨i, j, hij, hi, hj⟩
    have honly : ∀ n, Text.SplitsAt ';' input.toList n → n = front.length := by
      intro n hn
      rw [hinput, Text.splitsAt_first hquote hpaired hfirst] at hn
      rcases hn with hn | ⟨m, -, hm⟩
      · exact hn
      · exact absurd hm hone.not_splitsAt
    rw [honly i hi, honly j hj] at hij
    omega
  · exact ⟨fun _ => htwice, fun _ => hsplit⟩

/-- **Splitting agrees with scanning.** A request is refused for its form exactly if at least two of
its semicolons have an even number of quotes in front of them. Any other request is split, and the
tokens of its filter and then those of its clause are the tokens of the request: no quoted text,
word or operator is cut, lost or joined with another, whether or not the last quote is closed. -/
theorem splitRequest_scan (input : String) :
    ((∃ e, splitRequest input = .error e ∧ e.code = "INVALID_QUERY_FORMAT") ↔
      Text.SplitsTwice ';' input.toList) ∧
    (Text.SplitsTwice ';' input.toList ∨
      ∃ filter clause, splitRequest input = .ok (filter, clause) ∧
      Token.ofText filter ++ Token.ofText clause = Token.ofText input) := by
  rw [← splitRequest_eq_error_iff]
  cases hsplit : splitRequest input with
  | ok parts =>
    obtain ⟨filter, clause⟩ := parts
    exact ⟨by simp, .inr ⟨filter, clause, rfl, splitRequest_ofText hsplit⟩⟩
  | error e =>
    obtain rfl : e = .manySeparators := by
      rcases splitRequest_cases input with ⟨-, h⟩ | ⟨_, _, -, -, -, -, h⟩ | ⟨-, h⟩
      · simp [hsplit] at h
      · simp [hsplit] at h
      · exact Except.error.inj (hsplit.symm.trans h)
    exact ⟨by simp [QueryError.code], .inl rfl⟩

/-! ### Semicolons in the filter -/

/-- **Every semicolon of a text lies in a quoted text** that scanning finds there. -/
def Token.QuotesSeparators (cs : List Char) : Prop :=
  ∀ p ∈ Token.pieces cs, ';' ∈ p.text → ∃ s, p.token? = some (.quoted s)

/-- The same said of what is passed over: no semicolon is. -/
theorem Token.quotesSeparators_iff {cs : List Char} :
    Token.QuotesSeparators cs ↔ .passed ';' ∉ Token.pieces cs := by
  constructor
  · intro h hpassed
    obtain ⟨s, hs⟩ := h _ hpassed List.mem_cons_self
    simp [Token.Piece.token?] at hs
  · intro h p hp hx
    rcases Token.passed_or_quoted Token.isStray_semicolon hp hx with rfl | ⟨hquoted, -⟩
    · exact absurd hp h
    · exact hquoted

section

variable {input filter clause : String}

/-- A semicolon of the filter stands behind an odd number of quotes. -/
theorem splitRequest_enclosed (h : splitRequest input = .ok (filter, clause)) :
    Text.Enclosed ';' false filter.toList := by
  rcases of_splitRequest h with ⟨hnone, hfilter, -⟩ | ⟨front, rest, -, -, hfirst, hfilter, -⟩
  · rw [hfilter]
    exact hnone.trim
  · rw [hfilter]
    exact hfirst.trim

/-- The quotes of the filter pair up if a clause is split off, or if those of the request do. -/
theorem splitRequest_paired (h : splitRequest input = .ok (filter, clause))
    (hinput : (∃ n, Text.SplitsAt ';' input.toList n) ∨ Text.Paired input.toList) :
    Text.Paired filter.toList := by
  rcases of_splitRequest h with ⟨hnone, hfilter, -⟩ | ⟨front, rest, -, hpaired, -, hfilter, -⟩
  · rw [hfilter]
    rcases hinput with ⟨n, hn⟩ | hpaired
    · exact absurd hn hnone.not_splitsAt
    · exact hpaired.trim
  · rw [hfilter]
    exact hpaired.trim

end

/-- **When the semicolons of a filter all stand in quoted texts**: exactly if each of them has a
quote behind it. This is so for every request from which a clause is split off, and for every
request whose quotes pair up. The pieces in which the quoted texts are looked for make up the
filter, and have its tokens. -/
theorem separators_quoted_iff (input filter clause : String)
    (h : splitRequest input = .ok (filter, clause)) :
    ((Token.pieces filter.toList).flatMap Token.Piece.text = filter.toList ∧
      (Token.pieces filter.toList).filterMap Token.Piece.token? = Token.ofText filter) ∧
    (Token.QuotesSeparators filter.toList ↔
      ∀ before after, filter.toList = before ++ ';' :: after → '"' ∈ after) ∧
    ((∃ n, Text.SplitsAt ';' input.toList n) ∨ Text.Paired input.toList →
      Token.QuotesSeparators filter.toList) := by
  have henclosed := splitRequest_enclosed h
  have hiff : Token.QuotesSeparators filter.toList ↔
      ∀ before after, filter.toList = before ++ ';' :: after → '"' ∈ after := by
    rw [Token.quotesSeparators_iff, Token.passed_iff_unclosed henclosed]
    simp only [not_exists, not_and, not_not]
  refine ⟨⟨Token.pieces_text _, Token.pieces_token? _⟩, hiff,
    fun hinput => hiff.2 fun before after hfilter => ?_⟩
  -- an odd number of quotes in front of the semicolon and an even one in all leave one behind it
  have hpaired := splitRequest_paired h hinput
  have hbefore := Text.enclosed_iff.1 henclosed before after hfilter
  by_contra hafter
  rw [hfilter] at hpaired
  apply hbefore
  simpa [Text.Paired, List.count_eq_zero.2 hafter] using hpaired

/-- A semicolon in a quoted text, and a clause behind another one. -/
theorem separators_quoted_iff_clause :
    splitRequest "a = \"x;y\" ; size = 5" = .ok ("a = \"x;y\"", "size = 5") ∧
      Token.QuotesSeparators "a = \"x;y\"".toList := by
  have hsplit : splitRequest "a = \"x;y\" ; size = 5" = .ok ("a = \"x;y\"", "size = 5") := by
    decide +kernel
  have hplace : Text.SplitsAt ';' "a = \"x;y\" ; size = 5".toList 10 := by
    unfold Text.SplitsAt
    decide
  exact ⟨hsplit, (separators_quoted_iff _ _ _ hsplit).2.2 (.inl ⟨10, hplace⟩)⟩

/-- **An unclosed quote hides the clause.** The request is not split, the quote and the semicolon
are passed over, and the option behind them is read as a second condition. -/
theorem unclosed_quote_merges_clause :
    splitRequest "status = \"x; size = 5" = .ok ("status = \"x; size = 5", "") ∧
      ¬Token.QuotesSeparators "status = \"x; size = 5".toList ∧
      ∃ r, Engine.compile ⟨.allKeyword, {}⟩ ⟨0, 0⟩ "status = \"x; size = 5" = .ok r ∧
        r.tree = .group .and [.leaf ⟨"status", .eq, .single (.text "x")⟩,
          .leaf ⟨"size", .eq, .single (.text "5")⟩] := by
  have hsplit : splitRequest "status = \"x; size = 5" = .ok ("status = \"x; size = 5", "") := by
    decide +kernel
  have htokens : Token.ofText "status = \"x; size = 5" =
      [.word "status", .operator .eq, .word "x", .word "size", .operator .eq, .word "5"] := by
        decide +kernel
  refine ⟨hsplit, ?_, ?_⟩
  · rw [Token.quotesSeparators_iff, not_not]
    decide +kernel
  · have hreads : Engine.Reads ⟨.allKeyword, {}⟩ ⟨0, 0⟩ "status = \"x; size = 5" {}
        (.group .and [.leaf ⟨"status", .eq, .single (.text "x")⟩,
          .leaf ⟨"size", .eq, .single (.text "5")⟩]) := by
      refine ⟨_, _, .utc, hsplit, rfl, Options.zone_utc rfl, ?_⟩
      rw [Filter.ofText, htokens]
      rfl
    exact Engine.compile_ok_of_reads hreads (by decide) rfl

end Sift
