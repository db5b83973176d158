import Sift.Request
import Sift.Proofs.Scan

/-!
# Splitting and trimming written tokens

A separator inside quotes does not split a text, and written tokens have separators in quotes only.
So a filter made of written tokens is one piece, and nothing of it is trimmed.

* `Text.Whole`: texts that are not split and end outside quotes.
* `Text.whole_of_enclosed`: so are texts whose quotes pair up and whose separators all stand in
  quotes.
* `Text.Solid`: texts from which nothing is trimmed.
* `splitRequest_print`: **written tokens are a request without options.**
-/

namespace Sift

namespace Text

/-- Puts a text in front of the first piece. -/
def prependFirst (cs : List Char) (pieces : List (List Char)) : List (List Char) :=
  cs.foldr consFirst pieces

theorem prependFirst_cons (cs piece : List Char) (pieces : List (List Char)) :
    prependFirst cs (piece :: pieces) = (cs ++ piece) :: pieces := by
  induction cs with
  | nil => rfl
  | cons c cs ih =>
    show consFirst c (prependFirst cs (piece :: pieces)) = _
    rw [ih]
    rfl

theorem prependFirst_append (cs ds : List Char) (pieces : List (List Char)) :
    prependFirst (cs ++ ds) pieces = prependFirst cs (prependFirst ds pieces) := List.foldr_append

/-- **A text that is not split and ends outside quotes**, whatever follows it. -/
def Whole (separator : Char) (cs : List Char) : Prop :=
  ∀ rest, splitUnquoted separator false (cs ++ rest) =
    prependFirst cs (splitUnquoted separator false rest)

variable {separator : Char} {cs ds : List Char}

theorem Whole.append (hc : Whole separator cs) (hd : Whole separator ds) :
    Whole separator (cs ++ ds) := by
  intro rest
  rw [List.append_assoc, hc, hd, prependFirst_append]

/-- Such a text is the only piece of itself. -/
theorem Whole.split (h : Whole separator cs) : splitUnquoted separator false cs = [cs] := by
  have hnil := h []
  rw [List.append_nil] at hnil
  rw [hnil, splitUnquoted, prependFirst_cons, List.append_nil]

/-- A separator behind such a text splits it off. -/
theorem Whole.split_cons (h : Whole separator cs) (hsep : separator ≠ '"') (rest : List Char) :
    splitUnquoted separator false (cs ++ separator :: rest) =
      cs :: splitUnquoted separator false rest := by
  rw [h, splitUnquoted, if_neg hsep, if_pos ⟨rfl, by simp⟩, prependFirst_cons, List.append_nil]

/-- Neither quotes nor separators. -/
theorem whole_of_plain (hq : '"' ∉ cs) (hs : separator ∉ cs) : Whole separator cs := by
  intro rest
  induction cs with
  | nil => rfl
  | cons c cs ih =>
    simp only [List.mem_cons, not_or] at hq hs
    have hcq : ¬c = '"' := fun h => hq.1 h.symm
    have hcs : ¬(c = separator ∧ ¬false = true) := fun h => hs.1 h.1.symm
    rw [List.cons_append, splitUnquoted, if_neg hcq, if_neg hcs, ih hq.2 hs.2]
    rfl

/-- Inside quotes nothing splits. -/
theorem splitUnquoted_inside (hq : '"' ∉ cs) (rest : List Char) :
    splitUnquoted separator true (cs ++ rest) =
      prependFirst cs (splitUnquoted separator true rest) := by
  induction cs with
  | nil => rfl
  | cons c cs ih =>
    simp only [List.mem_cons, not_or] at hq
    have hcq : ¬c = '"' := fun h => hq.1 h.symm
    rw [List.cons_append, splitUnquoted, if_neg hcq, if_neg (by simp), ih hq.2]
    rfl

theorem whole_quoted (hq : '"' ∉ cs) : Whole separator ('"' :: (cs ++ ['"'])) := by
  intro rest
  have htext : '"' :: (cs ++ ['"']) ++ rest = '"' :: (cs ++ '"' :: rest) := by simp
  -- the first quote leads inside, where nothing splits, and the second one back outside
  rw [htext, splitUnquoted, if_pos rfl, Bool.not_false, splitUnquoted_inside hq, splitUnquoted,
    if_pos rfl, Bool.not_true]
  show consFirst '"' (prependFirst cs (prependFirst ['"'] _)) = _
  rw [← prependFirst_append]
  rfl

/-- The quotes of a text pair up. -/
def Paired (cs : List Char) : Prop := cs.count '"' % 2 = 0

instance (cs : List Char) : Decidable (Paired cs) := inferInstanceAs (Decidable (_ = _))

theorem paired_of_not_mem (h : '"' ∉ cs) : Paired cs := by
  unfold Paired
  rw [List.count_eq_zero.2 h]

theorem Paired.append_iff (h : Paired cs) : Paired (cs ++ ds) ↔ Paired ds := by
  unfold Paired at h ⊢
  rw [List.count_append]
  omega

theorem Paired.of_append_plain (h : Paired (cs ++ ds)) (hds : '"' ∉ ds) : Paired cs := by
  unfold Paired at h ⊢
  rwa [List.count_append, List.count_eq_zero.2 hds, Nat.add_zero] at h

theorem paired_quoted (h : '"' ∉ cs) : Paired ('"' :: (cs ++ ['"'])) := by
  simp [Paired, List.count_eq_zero.2 h]

/-- Whether a text that starts in or outside quotes ends in quotes. -/
def endsQuoted (inQuotes : Bool) (cs : List Char) : Bool := inQuotes ^^ cs.count '"' % 2 == 1

theorem endsQuoted_cons (inQuotes : Bool) (c : Char) (cs : List Char) :
    endsQuoted inQuotes (c :: cs) = endsQuoted (if c = '"' then !inQuotes else inQuotes) cs := by
  unfold endsQuoted
  by_cases hc : c = '"'
  · subst hc
    rcases Nat.mod_two_eq_zero_or_one (cs.count '"') with h | h <;> simp [Nat.add_mod, h]
  · simp [hc]

/-- **Every separator stands in quotes**, in a text that starts in or outside quotes. -/
def Enclosed (separator : Char) (inQuotes : Bool) (cs : List Char) : Prop :=
  ∀ n < cs.length, cs[n]? = some separator → endsQuoted inQuotes (cs.take n) = true

instance (separator : Char) (inQuotes : Bool) (cs : List Char) :
    Decidable (Enclosed separator inQuotes cs) :=
  inferInstanceAs (Decidable (∀ n < cs.length, _))

theorem Enclosed.tail {inQuotes : Bool} {c : Char} (h : Enclosed separator inQuotes (c :: cs)) :
    Enclosed separator (if c = '"' then !inQuotes else inQuotes) cs := by
  intro n hn hsep
  have hnext := h (n + 1) (by simpa using hn) (by simpa using hsep)
  rwa [List.take_succ_cons, endsQuoted_cons] at hnext

theorem endsQuoted_iff : endsQuoted false cs = true ↔ ¬Paired cs := by
  rcases Nat.mod_two_eq_zero_or_one (cs.count '"') with h | h <;> simp [endsQuoted, Paired, h]

/-- A text around the character at a place. -/
theorem eq_take_append_cons {c : Char} {n : Nat} (h : cs[n]? = some c) :
    cs = cs.take n ++ c :: cs.drop (n + 1) := by
  obtain ⟨hn, rfl⟩ := List.getElem?_eq_some_iff.1 h
  rw [← List.drop_eq_getElem_cons hn, List.take_append_drop]

/-- Outside quotes a separator would have its quotes paired up in front of it. -/
theorem enclosed_iff : Enclosed separator false cs ↔
    ∀ before after, cs = before ++ separator :: after → ¬Paired before := by
  constructor
  · rintro h before after rfl
    have hends := h before.length (by simp) (by simp)
    rwa [List.take_left, endsQuoted_iff] at hends
  · intro h n hn hsep
    rw [endsQuoted_iff]
    exact h _ _ (eq_take_append_cons hsep)

theorem Enclosed.of_append_left (h : Enclosed separator false (cs ++ ds)) :
    Enclosed separator false cs := by
  rw [enclosed_iff] at h ⊢
  rintro before after rfl
  exact h before (after ++ ds) (by simp)

/-- What follows a text whose quotes pair up is in quotes as it is by itself. -/
theorem Enclosed.of_append_right (h : Enclosed separator false (cs ++ ds)) (hpaired : Paired cs) :
    Enclosed separator false ds := by
  rw [enclosed_iff] at h ⊢
  rintro before after rfl hbefore
  exact h (cs ++ before) after (by simp) (hpaired.append_iff.2 hbefore)

/-- A text whose separators stand in quotes is not split, and ends in quotes or outside. -/
theorem splitUnquoted_enclosed {inQuotes : Bool} (h : Enclosed separator inQuotes cs)
    (rest : List Char) :
    splitUnquoted separator inQuotes (cs ++ rest) =
      prependFirst cs (splitUnquoted separator (endsQuoted inQuotes cs) rest) := by
  induction cs generalizing inQuotes with
  | nil => simp [endsQuoted, prependFirst]
  | cons c cs ih =>
    have htail := ih h.tail
    rw [List.cons_append, splitUnquoted, endsQuoted_cons]
    by_cases hc : c = '"'
    · rw [if_pos hc] at htail ⊢
      rw [htail, if_pos hc]
      rfl
    · have hsep : ¬(c = separator ∧ ¬inQuotes = true) := by
        rintro ⟨rfl, hout⟩
        have hfirst := h 0 (by simp) rfl
        simp [endsQuoted, hout] at hfirst
      rw [if_neg hc] at htail ⊢
      rw [if_neg hsep, htail, if_neg hc]
      rfl

theorem Enclosed.split (h : Enclosed separator false cs) :
    splitUnquoted separator false cs = [cs] := by
  have hsplit := splitUnquoted_enclosed h []
  rwa [List.append_nil, splitUnquoted, prependFirst_cons, List.append_nil] at hsplit

/-- **A text whose quotes pair up, with all separators in quotes, is whole.** -/
theorem whole_of_enclosed (hpaired : Paired cs) (h : Enclosed separator false cs) :
    Whole separator cs := by
  intro rest
  have hends : endsQuoted false cs = false := by
    unfold Paired at hpaired
    simp [endsQuoted, hpaired]
  rw [splitUnquoted_enclosed h rest, hends]

theorem splitUnquoted_ne_nil (separator : Char) (inQuotes : Bool) (cs : List Char) :
    splitUnquoted separator inQuotes cs ≠ [] := by
  have hfirst : ∀ c pieces, consFirst c pieces ≠ [] := by
    intro c pieces
    cases pieces <;> simp [consFirst]
  cases cs with
  | nil => simp [splitUnquoted]
  | cons c cs =>
    rw [splitUnquoted]
    split
    · exact hfirst _ _
    · split
      · simp
      · exact hfirst _ _

/-- What holds of each piece, and of two texts with a text between them once it holds of both, holds
of the pieces joined by that text. -/
theorem intercalate_closed {P : List Char → Prop} {between : List Char} {pieces : List (List Char)}
    (hjoin : ∀ a b, P a → P b → P (a ++ (between ++ b))) (hne : pieces ≠ [])
    (h : ∀ piece ∈ pieces, P piece) :
    P (between.intercalate pieces) := by
  induction pieces with
  | nil => exact absurd rfl hne
  | cons piece pieces ih =>
    have hpiece := h piece List.mem_cons_self
    cases pieces with
    | nil => simpa using hpiece
    | cons next pieces =>
      have hrest := ih (by simp) fun piece hmem => h piece (List.mem_cons_of_mem _ hmem)
      rw [List.intercalate_cons_cons, List.append_assoc]
      exact hjoin _ _ hpiece hrest

/-- **Whole pieces joined by the separator are split into these pieces.** -/
theorem splitUnquoted_intercalate {pieces : List (List Char)} (hsep : separator ≠ '"')
    (hne : pieces ≠ []) (h : ∀ piece ∈ pieces, Whole separator piece) :
    splitUnquoted separator false ([separator].intercalate pieces) = pieces := by
  induction pieces with
  | nil => exact absurd rfl hne
  | cons piece pieces ih =>
    have hpiece := h piece List.mem_cons_self
    cases pieces with
    | nil => simpa using hpiece.split
    | cons next pieces =>
      have hrest := ih (by simp) fun piece hmem => h piece (List.mem_cons_of_mem _ hmem)
      rw [List.intercalate_cons_cons, List.append_assoc, List.singleton_append,
        hpiece.split_cons hsep, hrest]

/-- Splitting at every occurrence of a character is that of lists. -/
theorem splitOnChar_eq_splitOn : splitOnChar separator cs = cs.splitOn separator := by
  induction cs with
  | nil => rfl
  | cons c cs ih =>
    obtain ⟨piece, pieces, hsplit⟩ := List.exists_cons_of_ne_nil (List.splitOn_ne_nil separator cs)
    rw [splitOnChar, List.splitOn_cons_eq_if_modifyHead, ih, hsplit]
    by_cases hc : c = separator <;> simp [hc, consFirst]

theorem splitOnChar_ne_nil (separator : Char) (cs : List Char) : splitOnChar separator cs ≠ [] := by
  rw [splitOnChar_eq_splitOn]
  exact List.splitOn_ne_nil separator cs

/-- No piece has the separator in it. -/
theorem not_mem_piece {piece : List Char} (h : piece ∈ splitOnChar separator cs) :
    separator ∉ piece := by
  induction cs generalizing piece with
  | nil => simp_all [splitOnChar]
  | cons c cs ih =>
    rw [splitOnChar] at h
    split at h
    · rcases List.mem_cons.1 h with rfl | h
      · simp
      · exact ih h
    next hc =>
      obtain ⟨first, rest, hsplit⟩ := List.exists_cons_of_ne_nil (splitOnChar_ne_nil separator cs)
      rw [hsplit] at h ih
      rcases List.mem_cons.1 h with rfl | h
      · simp [Ne.symm hc, ih List.mem_cons_self]
      · exact ih (List.mem_cons_of_mem _ h)

/-- A text with the separator in it has at least two pieces. -/
theorem two_le_pieces (h : separator ∈ cs) : 2 ≤ (splitOnChar separator cs).length := by
  obtain ⟨before, after, rfl⟩ := List.append_of_mem h
  have hbefore := List.length_pos_iff.2 (List.splitOn_ne_nil separator before)
  have hafter := List.length_pos_iff.2 (List.splitOn_ne_nil separator after)
  rw [splitOnChar_eq_splitOn, List.splitOn_append_cons_self, List.length_append]
  omega

/-- **A text from which nothing is trimmed**: it has a first and a last character, and they are not
blank. -/
structure Solid (cs : List Char) : Prop where
  first : ∃ c, cs.head? = some c ∧ isBlank c = false
  last : ∃ c, cs.getLast? = some c ∧ isBlank c = false

theorem solid_of_all (hne : cs ≠ []) (h : cs.all (!isBlank ·) = true) : Solid cs := by
  replace h : ∀ c ∈ cs, isBlank c = false := by simpa using h
  exact ⟨⟨cs.head hne, List.head?_eq_some_head hne, h _ (List.head_mem hne)⟩,
    ⟨cs.getLast hne, List.getLast?_eq_some_getLast hne, h _ (List.getLast_mem hne)⟩⟩

/-- What stands between the ends does not matter. -/
theorem Solid.join (hc : Solid cs) (hd : Solid ds) (between : List Char) :
    Solid (cs ++ (between ++ ds)) := by
  obtain ⟨⟨c, hc, hcb⟩, -⟩ := hc
  obtain ⟨-, ⟨d, hd, hdb⟩⟩ := hd
  exact ⟨⟨c, by simp [List.head?_append, hc], hcb⟩, ⟨d, by simp [List.getLast?_append, hd], hdb⟩⟩

theorem dropWhile_eq_self {p : Char → Bool} {c : Char} (h : cs.head? = some c) (hc : p c = false) :
    cs.dropWhile p = cs := by
  cases cs with
  | nil => rfl
  | cons x cs =>
    obtain rfl : x = c := Option.some.inj h
    simp [hc]

theorem Solid.trim (h : Solid cs) : trim cs = cs := by
  obtain ⟨⟨c, hc, hcb⟩, ⟨d, hd, hdb⟩⟩ := h
  unfold Text.trim trimEnd trimStart
  rw [dropWhile_eq_self hc hcb, dropWhile_eq_self (by rw [List.head?_reverse, hd]) hdb,
    List.reverse_reverse]

theorem mem_of_mem_trim {c : Char} (h : c ∈ trim cs) : c ∈ cs := by
  unfold trim trimEnd trimStart at h
  have hend := (List.dropWhile_sublist isBlank).subset (List.mem_reverse.1 h)
  exact (List.dropWhile_sublist isBlank).subset (List.mem_reverse.1 hend)

/-- A text is what is left of it when it is trimmed, with blanks on both sides. -/
theorem exists_blanks (cs : List Char) : ∃ left right, cs = left ++ (trim cs ++ right) ∧
    (∀ c ∈ left, isBlank c = true) ∧ ∀ c ∈ right, isBlank c = true := by
  refine ⟨cs.takeWhile isBlank, ((trimStart cs).reverse.takeWhile isBlank).reverse, ?_, ?_, ?_⟩
  · rw [trim, trimEnd, ← List.reverse_append, List.takeWhile_append_dropWhile, List.reverse_reverse,
      trimStart, List.takeWhile_append_dropWhile]
  · exact fun c => Token.mem_takeWhile
  · exact fun c hc => Token.mem_takeWhile (List.mem_reverse.1 hc)

/-- What is left of a text when it is trimmed cannot be trimmed further. -/
theorem solid_trim (h : trim cs ≠ []) : Solid (trim cs) := by
  have hfront : trim cs <+: trimStart cs := by
    have hsuffix := List.dropWhile_suffix isBlank (l := (trimStart cs).reverse)
    simpa [trim, trimEnd] using List.reverse_prefix.2 hsuffix
  have hstart : trimStart cs ≠ [] := hfront.ne_nil h
  constructor
  · refine ⟨_, List.head?_eq_some_head h, ?_⟩
    rw [hfront.head h]
    exact List.head_dropWhile_not isBlank hstart
  · have hend : (trimStart cs).reverse.dropWhile isBlank ≠ [] := by simpa [trim, trimEnd] using h
    refine ⟨_, ?_, List.head_dropWhile_not isBlank hend⟩
    unfold trim trimEnd
    rw [List.getLast?_reverse, List.head?_eq_some_head hend]

end Text

namespace Token

variable {t : Token} {ts : List Token}

theorem ne_of_isWordChar {c x : Char} (hc : isWordChar c = true) (hx : isWordChar x = false) :
    x ≠ c := by
  rintro rfl
  simp [hx] at hc

/-- A semicolon in a written token stands in quotes. -/
theorem shown_whole (ht : t.WellFormed) : Text.Whole ';' t.shown.toList := by
  cases t with
  | word s =>
    have hw := List.all_eq_true.1 ht.2.1
    exact Text.whole_of_plain (fun h => ne_of_isWordChar (hw _ h) (by decide) rfl)
      (fun h => ne_of_isWordChar (hw _ h) (by decide) rfl)
  | quoted s =>
    rw [quoted_shown]
    exact Text.whole_quoted ht
  | operator op => cases op <;> exact Text.whole_of_plain (by decide) (by decide)
  | gate g => cases g <;> exact Text.whole_of_plain (by decide) (by decide)
  | openGroup => exact Text.whole_of_plain (by decide) (by decide)
  | closeGroup => exact Text.whole_of_plain (by decide) (by decide)

/-- A written token neither starts nor ends with a blank, though a quoted text in it may. -/
theorem shown_solid (ht : t.WellFormed) : Text.Solid t.shown.toList := by
  cases t with
  | word s =>
    obtain ⟨hne, hw, -⟩ := ht
    refine Text.solid_of_all hne (List.all_eq_true.2 fun c hc => ?_)
    simp [isBlank_of_isWordChar (List.all_eq_true.1 hw c hc)]
  | quoted s =>
    have hquote : Text.Solid ['"'] := Text.solid_of_all (by decide) (by decide)
    rw [quoted_shown]
    exact hquote.join hquote s.toList
  | operator op => cases op <;> exact Text.solid_of_all (by decide) (by decide)
  | gate g => cases g <;> exact Text.solid_of_all (by decide) (by decide)
  | openGroup => exact Text.solid_of_all (by decide) (by decide)
  | closeGroup => exact Text.solid_of_all (by decide) (by decide)

theorem print_toList (ts : List Token) :
    (print ts).toList = [' '].intercalate (ts.map fun t => t.shown.toList) := by
  simp [print, Function.comp_def]

/-- What holds of each written token, and of two texts with a space between them once it holds of
both, holds of tokens written one after the other. -/
theorem print_closed {P : List Char → Prop} (hjoin : ∀ a b, P a → P b → P (a ++ ' ' :: b))
    (hne : ts ≠ []) (h : ∀ t ∈ ts, P t.shown.toList) : P (print ts).toList := by
  rw [print_toList]
  apply Text.intercalate_closed hjoin (by simpa using hne)
  intro piece hpiece
  obtain ⟨t, ht, rfl⟩ := List.mem_map.1 hpiece
  exact h t ht

/-- **Written tokens are a request without options**, whatever stands in quotes. -/
theorem splitRequest_print (hne : ts ≠ []) (h : ∀ t ∈ ts, t.WellFormed) :
    splitRequest (print ts) = .ok (print ts, "") := by
  have hspace : Text.Whole ';' [' '] := Text.whole_of_plain (by decide) (by decide)
  have hwhole : Text.Whole ';' (print ts).toList :=
    print_closed (fun a b ha hb => ha.append (hspace.append hb)) hne
      fun t ht => shown_whole (h t ht)
  have hsolid : Text.Solid (print ts).toList :=
    print_closed (fun a b ha hb => ha.join hb [' ']) hne fun t ht => shown_solid (h t ht)
  unfold splitRequest
  rw [hwhole.split]
  simp only [hsolid.trim, String.ofList_toList]

end Token

end Sift
