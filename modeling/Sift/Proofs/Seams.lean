import Sift.Proofs.Lossless

/-!
# Seams between tokens

Tokens are written into a text with a space between any two, and texts are put one behind the other.
Scanning finds the parts again unless something grows together where they meet: two words, or one of
`>`, `<`, `!` with an equals sign. A space keeps everything apart, so written tokens are always
found again.

* `wellFormed_of_mem_scan`: the tokens of a text are in the form in which they can be written.
* `token_round_trip`: **writing tokens and scanning them changes nothing**, whether they come from a
  text or not.
* `scan_append_operator`, `scan_append_word`: what grows together at a seam gives other tokens.
* `Token.Separates`: texts that keep apart what is on their two sides.
* `ofText_append_iff`: **texts are scanned one by one exactly if nothing grows together.**
-/

namespace Sift

namespace Token

variable {c : Char} {cs ds left middle run rest right : List Char} {t : Token} {ts : List Token}

/-! ### The tokens of a text are well formed -/

/-- A word can be written if it has characters, all of words, and is neither `and` nor `or` in any
case. -/
theorem wellFormed_word {s : String} : (word s).WellFormed ↔
    s ≠ "" ∧ (∀ c ∈ s.toList, isWordChar c = true) ∧ sameLetters s "and" = false ∧
      sameLetters s "or" = false := by
  have hgate : Gate.ofWord? s = none ↔
      sameLetters s "and" = false ∧ sameLetters s "or" = false := by
    unfold Gate.ofWord?
    cases sameLetters s "and" <;> cases sameLetters s "or" <;> simp
  have hempty : s.toList ≠ [] ↔ s ≠ "" := by simp
  show s.toList ≠ [] ∧ s.toList.all isWordChar = true ∧ Gate.ofWord? s = none ↔ _
  rw [hgate, hempty, List.all_eq_true]

/-- A quoted text can be written if the only quotes are the two around it. -/
theorem wellFormed_quoted {s : String} : (quoted s).WellFormed ↔
    ∃ body, (quoted s).shown.toList = '"' :: (body ++ ['"']) ∧ '"' ∉ body := by
  rw [quoted_shown]
  constructor
  · exact fun h => ⟨s.toList, rfl, h⟩
  · rintro ⟨body, hshown, hbody⟩
    obtain rfl : s.toList = body := List.append_cancel_right (List.cons.inj hshown).2
    exact hbody

theorem wellFormed_ofWord (hne : run ≠ []) (hrun : ∀ x ∈ run, isWordChar x = true) :
    (ofWord (String.ofList run)).WellFormed := by
  unfold ofWord
  split
  · trivial
  next hgate => exact ⟨by simpa using hne, by simpa using hrun, hgate⟩

/-- **One token** of a text is well formed. -/
theorem Leads.wellFormed (h : Leads cs t rest) : t.WellFormed := by
  cases h with
  | @quoted body rest hbody =>
    show '"' ∉ (String.ofList body).toList
    rwa [String.toList_ofList]
  | @word c run rest hc hrun _ =>
    exact wellFormed_ofWord (by simp) (List.forall_mem_cons.2 ⟨hc, hrun⟩)
  | operator op _ => trivial
  | openGroup => trivial
  | closeGroup => trivial

/-- **All tokens** of a text are well formed. -/
theorem wellFormed_of_mem_scan (h : t ∈ scan cs) : t.WellFormed := by
  induction cs using scan_induction with
  | nil => simp [scan] at h
  | skip c cs hskip ih =>
    rw [scan_skip hskip] at h
    exact ih h
  | take cs u rest hleads ih =>
    rw [scan_leads hleads] at h
    rcases List.mem_cons.1 h with rfl | h
    · exact hleads.wellFormed
    · exact ih h

/-! ### What grows together -/

/-- A text that ends with a word character ends with as many as there are. -/
theorem exists_last_run {a : Char} (ha : a ∈ cs.getLast?) (hword : isWordChar a = true) :
    ∃ left run, cs = left ++ run ∧ MaximalRun left run [] := by
  -- the run at the end is the one at the front of the reversed text
  have hhead : cs.reverse.head? = some a := by rw [List.head?_reverse, Option.mem_def.1 ha]
  obtain ⟨back, hback⟩ := List.head?_eq_some_iff.1 hhead
  refine ⟨(cs.reverse.dropWhile isWordChar).reverse, (cs.reverse.takeWhile isWordChar).reverse, ?_,
    ?_, ?_, ?_, ?_⟩
  · rw [← List.reverse_append, List.takeWhile_append_dropWhile, List.reverse_reverse]
  · simp [hback, hword]
  · exact fun x hx => mem_takeWhile (List.mem_reverse.1 hx)
  · intro x hx
    rw [List.getLast?_reverse] at hx
    exact head_dropWhile hx
  · simp

/-- A text that starts with a word character starts with as many as there are. -/
theorem exists_first_run {b : Char} (hb : b ∈ cs.head?) (hword : isWordChar b = true) :
    ∃ run right, cs = run ++ right ∧ MaximalRun [] run right := by
  obtain ⟨rest, rfl⟩ := List.head?_eq_some_iff.1 hb
  refine ⟨_, _, List.takeWhile_append_dropWhile.symm, ?_, ?_, by simp, fun _ => head_dropWhile⟩
  · simp [hword]
  · exact fun _ => mem_takeWhile

theorem MaximalRun.join {run' : List Char} (h : MaximalRun left run [])
    (h' : MaximalRun [] run' right) :
    MaximalRun left (run ++ run') right := by
  refine ⟨by simp [h.nonempty], fun x hx => ?_, h.before, h'.after⟩
  rcases List.mem_append.1 hx with hx | hx
  · exact h.letters x hx
  · exact h'.letters x hx

/-- As many word characters as there are become one token, and what is around them is scanned by
itself. -/
theorem MaximalRun.scan (h : MaximalRun left run right) (hquotes : Text.Paired left) :
    scan (left ++ (run ++ right)) = scan left ++ ofWord (String.ofList run) :: scan right := by
  have hapart : Apart left (run ++ right) := by
    intro a ha b hb
    have hword : isWordChar b = true := by
      rcases mem_head?_append hb with hb | ⟨hnil, -⟩
      · exact h.letters b (List.mem_of_mem_head? hb)
      · exact absurd hnil h.nonempty
    refine ⟨fun hboth => by simp [h.before a ha] at hboth, ?_⟩
    rintro ⟨-, rfl⟩
    exact absurd hword (by decide)
  rw [scan_append (.inl hquotes) hapart, scan_leads h.leads]

/-- **Two words that meet become one**, so that there is a token less than in the two texts. -/
theorem scan_append_word {run' : List Char} (hpaired : Text.Paired (left ++ run))
    (h : MaximalRun left run []) (h' : MaximalRun [] run' right) :
    scan (left ++ run ++ (run' ++ right)) ≠ scan (left ++ run) ++ scan (run' ++ right) := by
  have hquotes : Text.Paired left :=
    hpaired.of_append_plain fun hmem => absurd (h.letters _ hmem) (by decide)
  have hfirst : scan (left ++ run) = scan left ++ [ofWord (String.ofList run)] := by
    simpa [scan] using h.scan hquotes
  have hsecond : scan (run' ++ right) = ofWord (String.ofList run') :: scan right :=
    scan_leads h'.leads
  have hjoined : scan (left ++ run ++ (run' ++ right)) =
      scan left ++ ofWord (String.ofList (run ++ run')) :: scan right := by
    simpa using (h.join h').scan hquotes
  -- counted, because the words themselves do not tell: two gates may join to a word, and two words
  -- to a gate
  intro heq
  rw [hfirst, hsecond, hjoined] at heq
  have hlength := congrArg List.length heq
  simp only [List.length_append, List.length_cons, List.length_nil] at hlength
  omega

/-- **An equals sign behind** `>`, `<` or `!` **makes another operator.** -/
theorem scan_append_operator {a : Char} (hpaired : Text.Paired (cs ++ [a]))
    (ha : isOperatorStart a = true) :
    scan (cs ++ [a] ++ '=' :: ds) ≠ scan (cs ++ [a]) ++ scan ('=' :: ds) := by
  have hcases : a = '>' ∨ a = '<' ∨ a = '!' := by simpa [isOperatorStart, or_assoc] using ha
  have hjoined : ∃ op, op ≠ Operator.eq ∧ scan (a :: '=' :: ds) = .operator op :: scan ds := by
    rcases hcases with rfl | rfl | rfl
    · exact ⟨.ge, by decide, scan_leads (.operator .ge (by simp))⟩
    · exact ⟨.le, by decide, scan_leads (.operator .le (by simp))⟩
    · exact ⟨.ne, by decide, scan_leads (.operator .ne (by simp))⟩
  have hplain : a ≠ '"' ∧ isWordChar a = false ∧ a ≠ '=' := by
    rcases hcases with rfl | rfl | rfl <;> decide
  have hquotes : Text.Paired cs := hpaired.of_append_plain (by simpa using Ne.symm hplain.1)
  have hapart : ∀ more, Apart cs (a :: more) := fun _ => apart_of_head hplain.2.1 hplain.2.2
  obtain ⟨op, hop, hscan⟩ := hjoined
  have hequals : scan ('=' :: ds) = .operator .eq :: scan ds := scan_leads (.operator .eq (by simp))
  intro h
  rw [List.append_assoc, List.singleton_append, scan_append (.inl hquotes) (hapart _),
    scan_append (.inl hquotes) (hapart []), List.append_assoc] at h
  have hseam := List.append_cancel_left h
  rw [hscan, hequals, ← List.singleton_append, List.append_cons] at hseam
  -- one operator stands where there would be an equals sign at the end
  have hlast := congrArg List.getLast? (List.append_cancel_right hseam)
  rw [List.getLast?_concat] at hlast
  exact hop (by simpa using hlast)

/-- **Texts that are scanned one by one are apart.** -/
theorem apart_of_scan_append (hpaired : Text.Paired cs) (h : scan (cs ++ ds) = scan cs ++ scan ds) :
    Apart cs ds := by
  intro a ha b hb
  constructor
  · rintro ⟨hwa, hwb⟩
    obtain ⟨left, run, rfl, hrun⟩ := exists_last_run ha hwa
    obtain ⟨run', right, rfl, hrun'⟩ := exists_first_run hb hwb
    exact scan_append_word hpaired hrun hrun' h
  · rintro ⟨hop, rfl⟩
    obtain ⟨front, rfl⟩ := List.getLast?_eq_some_iff.1 ha
    obtain ⟨rest, rfl⟩ := List.head?_eq_some_iff.1 hb
    exact scan_append_operator hpaired hop h

/-! ### What keeps texts apart -/

/-- **A text that keeps apart what is on its two sides**, in front of `right`, and the tokens that
it is itself: a character that may be passed over there, a parenthesis, or a quoted text. -/
inductive Separates (right : List Char) : List Char → List Token → Prop where
  | overlooked {c : Char} (h : Overlooked c right) : Separates right [c] []
  | openGroup : Separates right ['('] [.openGroup]
  | closeGroup : Separates right [')'] [.closeGroup]
  | quoted {body : List Char} (unquoted : '"' ∉ body) :
      Separates right ('"' :: (body ++ ['"'])) [.quoted (String.ofList body)]

/-- A character that may be passed over is part of no word and starts no operator. -/
theorem Overlooked.apart (h : Overlooked c right) : Apart left (c :: right) := by
  rw [overlooked_iff] at h
  refine apart_of_head ?_ ?_
  · cases hword : isWordChar c with
    | false => rfl
    | true => simp [lexeme?_of_isWordChar hword] at h
  · rintro rfl
    simp [lexeme?] at h

/-- **What separates tokens**: the texts on its two sides are scanned by themselves. -/
theorem Separates.scan (h : Separates right middle ts) (hpaired : Text.Paired left) :
    scan (left ++ middle ++ right) = scan left ++ ts ++ scan right := by
  rw [List.append_assoc, List.append_assoc]
  cases h with
  | overlooked h =>
    rw [List.singleton_append, scan_append (.inl hpaired) h.apart, scan_skip (overlooked_iff.1 h),
      List.nil_append]
  | openGroup =>
    rw [List.singleton_append, scan_append (.inl hpaired) (apart_of_head (by decide) (by decide)),
      scan_leads .openGroup, List.singleton_append]
  | closeGroup =>
    rw [List.singleton_append, scan_append (.inl hpaired) (apart_of_head (by decide) (by decide)),
      scan_leads .closeGroup, List.singleton_append]
  | @quoted body hbody =>
    have hscan :=
      scan_append_quoted hpaired (s := String.ofList body) (by rwa [String.toList_ofList]) right
    simpa using hscan

end Token

/-- **Writing tokens and scanning them changes nothing.** Call a token well formed if it is a word
that has only word characters, at least one, and is neither `and` nor `or` in any case; or a text in
quotes without another quote in it; or any other token. Every text has well-formed tokens only, and
well-formed tokens in any order, written with a space between any two, are scanned back as they are.
So the tokens of a text are those of the text that they are written in. -/
theorem token_round_trip :
    (∀ s, (Token.word s).WellFormed ↔ s ≠ "" ∧ (∀ c ∈ s.toList, Token.isWordChar c = true) ∧
      sameLetters s "and" = false ∧ sameLetters s "or" = false) ∧
    (∀ s, (Token.quoted s).WellFormed ↔
      ∃ body, (Token.quoted s).shown.toList = '"' :: (body ++ ['"']) ∧ '"' ∉ body) ∧
    (∀ input, ∀ t ∈ Token.ofText input, t.WellFormed) ∧
    (∀ ts : List Token, (∀ t ∈ ts, t.WellFormed) → Token.ofText (Token.print ts) = ts) ∧
    ∀ input, Token.ofText (Token.print (Token.ofText input)) = Token.ofText input := by
  have hformed (input : String) : ∀ t ∈ Token.ofText input, t.WellFormed :=
    fun _ => Token.wellFormed_of_mem_scan
  refine ⟨fun _ => Token.wellFormed_word, fun _ => Token.wellFormed_quoted, hformed, fun ts h => ?_,
    fun input => ?_⟩
  · exact Token.ofText_print h
  · exact Token.ofText_print (hformed input)

/-- Operators that would join without the space, words that only start like a gate, and quoted texts
with nothing in them or with what would be tokens elsewhere. -/
theorem token_round_trip_adjacent :
    let ts : List Token :=
      [.operator .gt, .operator .eq, .word "orä", .gate .or, .word "-1/2", .word "x",
      .quoted "", .quoted " and >= ("]
    (∀ t ∈ ts, t.WellFormed) ∧ Token.print ts = "> = orä or -1/2 x \"\" \" and >= (\"" ∧
      Token.ofText (Token.print ts) = ts := by
  intro ts
  have hformed : ∀ t ∈ ts, t.WellFormed := by decide +kernel
  exact ⟨hformed, by decide +kernel, token_round_trip.2.2.2.1 ts hformed⟩

/-- **Texts are scanned one by one exactly if nothing grows together.** Let the quotes of a text
pair up, and put another text behind it. Its tokens and then those of the other text are the tokens
of the whole exactly if the last character of the one and the first of the other are not both word
characters, nor one of `>`, `<` and `!` with an equals sign behind it. So a blank, a parenthesis, a
quoted text and a character that is passed over always separate the tokens on their two sides. -/
theorem ofText_append_iff (s₁ s₂ : String) (hpaired : Text.Paired s₁.toList) :
    (Token.ofText (s₁ ++ s₂) = Token.ofText s₁ ++ Token.ofText s₂ ↔
      Token.Apart s₁.toList s₂.toList) ∧
    ∀ (middle : String) (ts : List Token), Token.Separates s₂.toList middle.toList ts →
      Token.ofText (s₁ ++ middle ++ s₂) = Token.ofText s₁ ++ ts ++ Token.ofText s₂ := by
  unfold Token.ofText
  simp only [String.toList_append]
  refine ⟨⟨Token.apart_of_scan_append hpaired, Token.scan_append (.inl hpaired)⟩,
    fun middle ts h => ?_⟩
  exact h.scan hpaired

/-- A negation sign is joined with an equals sign right behind it. With a quoted text between the
two, or with another sign that starts no token, it is passed over. -/
theorem ofText_append_iff_negation :
    Token.ofText ("a \"!\" !" ++ "= b") ≠ Token.ofText "a \"!\" !" ++ Token.ofText "= b" ∧
      Token.ofText ("a \"!\" !" ++ "\" = \"" ++ "= b") =
        [.word "a", .quoted "!", .quoted " = ", .operator .eq, .word "b"] ∧
      Token.ofText ("a \"!\" !" ++ ";" ++ "= b") =
        [.word "a", .quoted "!", .operator .eq, .word "b"] ∧
      Token.ofText ("a \"!\" !" ++ "(a") = [.word "a", .quoted "!", .openGroup, .word "a"] := by
  have hpaired : Text.Paired "a \"!\" !".toList := by decide
  have hleft : Token.ofText "a \"!\" !" = [.word "a", .quoted "!"] := by decide +kernel
  have hright : Token.ofText "= b" = [.operator .eq, .word "b"] := by decide +kernel
  have hquoted : Token.Separates "= b".toList "\" = \"".toList [.quoted " = "] :=
    .quoted (by decide : '"' ∉ " = ".toList)
  have hstray : Token.Separates "= b".toList ";".toList [] :=
    .overlooked (.inr (.inr (.inr ⟨by decide, by decide, by decide⟩)))
  obtain ⟨happend, hmiddle⟩ := ofText_append_iff _ "= b" hpaired
  refine ⟨?_, ?_, ?_, ?_⟩
  · rw [Ne, happend]
    exact fun hapart => (hapart '!' rfl '=' rfl).2 (by decide)
  · rw [hmiddle _ _ hquoted, hleft, hright]
    rfl
  · rw [hmiddle _ _ hstray, hleft, hright]
    rfl
  · have hapart : Token.Apart "a \"!\" !".toList "(a".toList :=
      Token.apart_of_head (by decide) (by decide)
    rw [(ofText_append_iff _ "(a" hpaired).1.2 hapart, hleft]
    decide +kernel

end Sift
