import Sift.Proofs.Locality

/-!
# The pieces of a scanned text

Scanning cuts a text into pieces that follow each other without a gap: tokens with the characters
they are written in, and single characters where no token starts, which are passed over.

* `Token.pieces`: the pieces of a text.
* `pieces_text`: **together the pieces are the text**, and `pieces_token?`: the tokens among them
  are those of `scan`.
* `Leads.stray`: a character that no token starts with can be part of a token only in quotes.
* `passed_iff_unclosed`: if every separator stands behind an odd number of quotes, the separators
  that are passed over are those behind the last quote.
-/

namespace Sift.Token

/-- A piece of a scanned text. -/
inductive Piece where
  /-- A token and the characters it is written in. -/
  | taken (token : Token) (text : List Char)
  /-- A character that is passed over. -/
  | passed (c : Char)
deriving Repr, DecidableEq

namespace Piece

/-- The characters of a piece. -/
def text : Piece → List Char
  | .taken _ cs => cs
  | .passed c => [c]

/-- The token, if the piece is one. -/
def token? : Piece → Option Token
  | .taken t _ => some t
  | .passed _ => none

end Piece

/-- The pieces of a text in order. -/
def pieces : List Char → List Piece
  | [] => []
  | c :: cs =>
    match _h : lexeme? c cs with
    | some (t, rest) => .taken t ((c :: cs).take (cs.length + 1 - rest.length)) :: pieces rest
    | none => .passed c :: pieces cs
termination_by cs => cs.length
decreasing_by
  · have := lexeme?_rest_length _h
    simp only [List.length_cons]
    omega
  · simp

variable {c : Char} {cs front rest : List Char} {t : Token}

/-- The characters of a token are those in front of the text that it leaves. -/
theorem take_front (h : c :: cs = front ++ rest) :
    (c :: cs).take (cs.length + 1 - rest.length) = front := by
  have hlength : cs.length + 1 - rest.length = front.length := by
    have hboth := congrArg List.length h
    simp only [List.length_cons, List.length_append] at hboth
    omega
  rw [hlength, h, List.take_left]

/-- **Together the pieces are the text.** -/
theorem pieces_text (cs : List Char) : (pieces cs).flatMap Piece.text = cs := by
  fun_induction pieces cs with
  | case1 => rfl
  | case2 c cs t rest hlex ih =>
    obtain ⟨front, -, htext⟩ := (leads_of_lexeme? hlex).taken
    rw [take_front htext, List.flatMap_cons, ih]
    exact htext.symm
  | case3 c cs hlex ih =>
    rw [List.flatMap_cons, ih]
    rfl

/-- The tokens among the pieces are the tokens of the text. -/
theorem pieces_token? (cs : List Char) : (pieces cs).filterMap Piece.token? = scan cs := by
  fun_induction pieces cs with
  | case1 => simp [scan]
  | case2 c cs t rest hlex ih =>
    rw [scan_leads (leads_of_lexeme? hlex), ← ih]
    rfl
  | case3 c cs hlex ih =>
    rw [scan_skip hlex, ← ih]
    rfl

/-! ### Stray characters -/

theorem isStray_of_isWordChar {x : Char} (h : isWordChar x = true) :
    isStray x = false := by simp [isStray, h]

/-- **A character that no token starts with is part of a token only in quotes.** -/
theorem Leads.stray (h : Leads cs t rest) (htext : cs = front ++ rest) {x : Char} (hx : x ∈ front)
    (hstray : isStray x = true) : (∃ s, t = .quoted s) ∧ '"' ∈ front := by
  cases h with
  | @quoted body rest _ =>
    have hwhole : '"' :: (body ++ ['"']) ++ rest = front ++ rest := by simpa using htext
    obtain rfl := List.append_cancel_right hwhole
    exact ⟨⟨_, rfl⟩, List.mem_cons_self⟩
  | @word c run rest hc hrun _ =>
    obtain rfl : c :: run = front := List.append_cancel_right htext
    have hword : isWordChar x = true := by
      rcases List.mem_cons.1 hx with rfl | hx
      · exact hc
      · exact hrun x hx
    simp [isStray_of_isWordChar hword] at hstray
  | operator op _ =>
    obtain rfl := List.append_cancel_right htext
    have hsymbol : ∀ op : Operator, op.symbol.toList.all (! isStray ·) = true := by
      intro op
      cases op <;> decide
    have hno := List.all_eq_true.1 (hsymbol op) x hx
    simp [hstray] at hno
  | openGroup =>
    obtain rfl : ['('] = front := List.append_cancel_right htext
    obtain rfl := List.mem_singleton.1 hx
    exact absurd hstray (by decide)
  | closeGroup =>
    obtain rfl : [')'] = front := List.append_cancel_right htext
    obtain rfl := List.mem_singleton.1 hx
    exact absurd hstray (by decide)

/-- The token of a piece is written in the characters of the piece. -/
theorem leads_of_taken {text : List Char} (h : .taken t text ∈ pieces cs) :
    ∃ rest, Leads (text ++ rest) t rest := by
  fun_induction pieces cs with
  | case1 => simp at h
  | case2 c cs u rest hlex ih =>
    rcases List.mem_cons.1 h with hpiece | h
    · obtain ⟨rfl, rfl⟩ := Piece.taken.inj hpiece
      have hleads := leads_of_lexeme? hlex
      obtain ⟨front, -, htext⟩ := hleads.taken
      refine ⟨rest, ?_⟩
      rwa [take_front htext, ← htext]
    · exact ih h
  | case3 c cs hlex ih =>
    rcases List.mem_cons.1 h with hpiece | h
    · simp at hpiece
    · exact ih h

/-- A stray character is passed over, or stands in a quoted text. -/
theorem passed_or_quoted {x : Char} (hstray : isStray x = true) {p : Piece} (hp : p ∈ pieces cs)
    (hx : x ∈ p.text) : p = .passed x ∨ (∃ s, p.token? = some (.quoted s)) ∧ '"' ∈ p.text := by
  cases p with
  | taken t text =>
    obtain ⟨rest, hleads⟩ := leads_of_taken hp
    obtain ⟨⟨s, rfl⟩, hquote⟩ := hleads.stray rfl hx hstray
    exact .inr ⟨⟨s, rfl⟩, hquote⟩
  | passed c =>
    obtain rfl := List.mem_singleton.1 hx
    exact .inl rfl

/-! ### Separators in quotes -/

theorem isStray_semicolon : isStray ';' = true := by decide

theorem mem_of_mem_piece {x : Char} {p : Piece} (hp : p ∈ pieces cs) (hx : x ∈ p.text) :
    x ∈ cs := by
  rw [← pieces_text cs]
  exact List.mem_flatMap.2 ⟨p, hp, hx⟩

/-- Without quotes every semicolon is passed over. -/
theorem passed_of_unquoted (hquote : '"' ∉ cs) (h : ';' ∈ cs) : .passed ';' ∈ pieces cs := by
  rw [← pieces_text cs] at h
  obtain ⟨p, hp, hx⟩ := List.mem_flatMap.1 h
  rcases passed_or_quoted isStray_semicolon hp hx with rfl | ⟨-, hmem⟩
  · exact hp
  · exact absurd (mem_of_mem_piece hp hmem) hquote

/-- Tokens in front of a text do not change which semicolons have no quote behind them: one inside
the tokens has an odd number of quotes in front of it, and the others of these tokens are behind
it. -/
theorem unclosed_append_iff (hpaired : Text.Paired front)
    (h : Text.Enclosed ';' false (front ++ rest)) :
    (∃ before after, front ++ rest = before ++ ';' :: after ∧ '"' ∉ after) ↔
      ∃ before after, rest = before ++ ';' :: after ∧ '"' ∉ after := by
  constructor
  · rintro ⟨before, after, happend, hafter⟩
    rcases List.append_eq_append_iff.1 happend with ⟨between, rfl, hrest⟩ | ⟨between, hfront, hrest⟩
    · exact ⟨between, after, hrest, hafter⟩
    cases between with
    | nil => exact ⟨[], after, hrest.symm, hafter⟩
    | cons x between =>
      rw [List.cons_append] at hrest
      obtain ⟨rfl, rfl⟩ := List.cons.inj hrest
      have hbefore := Text.enclosed_iff.1 h before _ happend
      simp only [List.mem_append, not_or] at hafter
      have hcount : (before ++ ';' :: between).count '"' = before.count '"' := by
        simp [List.count_eq_zero.2 hafter.1]
      rw [hfront, Text.Paired, hcount] at hpaired
      exact absurd hpaired hbefore
  · rintro ⟨before, after, rfl, hafter⟩
    exact ⟨front ++ before, after, by simp, hafter⟩

/-- **The semicolons that are passed over.** If every semicolon stands behind an odd number of
quotes, then exactly those behind the last quote are passed over: that quote is not closed. -/
theorem passed_iff_unclosed (h : Text.Enclosed ';' false cs) :
    .passed ';' ∈ pieces cs ↔ ∃ before after, cs = before ++ ';' :: after ∧ '"' ∉ after := by
  fun_induction pieces cs with
  | case1 => simp
  | case2 c cs t rest hlex ih =>
    obtain ⟨front, hpaired, htext⟩ := (leads_of_lexeme? hlex).taken
    rw [htext] at h ⊢
    rw [unclosed_append_iff hpaired h, ← ih (h.of_append_right hpaired), List.mem_cons]
    simp only [reduceCtorEq, false_or]
  | case3 c cs hlex ih =>
    by_cases hc : c = '"'
    · -- from here on there are no quotes, so all semicolons are passed over
      subst hc
      have hopen := unclosed_of_skip hlex
      have hpassed : .passed ';' ∈ pieces cs ↔ ';' ∈ cs :=
        ⟨fun hp => mem_of_mem_piece hp List.mem_cons_self, passed_of_unquoted hopen⟩
      rw [List.mem_cons, hpassed]
      constructor
      · rintro (hpiece | hmem)
        · simp at hpiece
        · obtain ⟨before, after, rfl⟩ := List.append_of_mem hmem
          simp only [List.mem_append, List.mem_cons, not_or] at hopen
          exact ⟨'"' :: before, after, by simp, hopen.2.2⟩
      · rintro ⟨before, after, htext, -⟩
        have hmem : ';' ∈ '"' :: cs := by simp [htext]
        exact .inr (by simpa using hmem)
    · have hfirst : c ≠ ';' := by
        rintro rfl
        exact Text.enclosed_iff.1 h [] cs rfl (by decide)
      have hpaired : Text.Paired [c] := Text.paired_of_not_mem (by simpa using Ne.symm hc)
      rw [← List.singleton_append] at h
      have hunclosed := unclosed_append_iff hpaired h
      rw [List.singleton_append] at hunclosed
      rw [hunclosed, ← ih (h.of_append_right hpaired), List.mem_cons]
      simp only [Piece.passed.injEq, Ne.symm hfirst, false_or]

end Sift.Token
