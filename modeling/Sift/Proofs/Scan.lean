import Sift.Condition.Printer

/-!
# Scanning written tokens

Tokens written one after the other, with a space between any two, are scanned back to the same
tokens. This needs each token to be of the form in which scanning gives it.

* `Token.Leads`: the token at the front of a text, told without scanning.
* `scan_leads`: the token at the front of a text is scanned first.
* `Token.WellFormed`: the form in which scanning gives tokens.
* `ofText_print`: **writing tokens and scanning them changes nothing.**
-/

namespace Sift

/-! ### Classes of characters -/

namespace Text

/-- The code points of blanks, one by one. -/
def blankCodes : List Nat :=
  [0x9, 0xA, 0xB, 0xC, 0xD, 0x20, 0x85, 0xA0, 0x1680, 0x2000, 0x2001, 0x2002, 0x2003, 0x2004,
   0x2005, 0x2006, 0x2007, 0x2008, 0x2009, 0x200A, 0x2028, 0x2029, 0x202F, 0x205F, 0x3000]

theorem toNat_mem_blankCodes {c : Char} (h : isBlank c = true) : c.toNat ∈ blankCodes := by
  simp only [isBlank, inRanges, blankRanges, List.any_cons, List.any_nil, Bool.or_eq_true,
    Bool.and_eq_true, decide_eq_true_eq, Bool.false_eq_true, or_false] at h
  simp only [blankCodes, List.mem_cons, List.not_mem_nil, or_false]
  omega

/-- A class of characters that has none of these code points has no blank. -/
theorem isBlank_eq_false {p : Char → Bool} (hp : ∀ n ∈ blankCodes, p (Char.ofNat n) = false)
    {c : Char} (h : p c = true) : isBlank c = false := by
  cases hb : isBlank c with
  | false => rfl
  | true =>
    have hn := hp _ (toNat_mem_blankCodes hb)
    rw [Char.ofNat_toNat, h] at hn
    simp at hn

variable {p : Char → Bool} {run rest : List Char}

/-- A run of a class of characters **stops** in front of the text, which is empty or starts with
another character. -/
def Stops (p : Char → Bool) (rest : List Char) : Prop := ∀ x ∈ rest.head?, p x = false

theorem takeWhile_run (hrun : ∀ x ∈ run, p x = true) (hrest : Stops p rest) :
    (run ++ rest).takeWhile p = run := by
  rw [List.takeWhile_append_of_pos hrun]
  cases rest with
  | nil => simp
  | cons c rest => simp [hrest c rfl]

theorem dropWhile_run (hrun : ∀ x ∈ run, p x = true) (hrest : Stops p rest) :
    (run ++ rest).dropWhile p = rest := by
  rw [List.dropWhile_append_of_pos hrun]
  cases rest with
  | nil => rfl
  | cons c rest => simp [hrest c rfl]

end Text

namespace Token

/-- No character of words is blank. -/
theorem isBlank_of_isWordChar {c : Char} (h : isWordChar c = true) : Text.isBlank c = false :=
  -- the blanks are few, so they are looked up among the characters of words, not the other way
  -- round
  Text.isBlank_eq_false (by decide +kernel) h

/-- Words are told from all other tokens by their first character. -/
theorem lexeme?_of_isWordChar {c : Char} (h : isWordChar c = true) (cs : List Char) :
    lexeme? c cs =
      some (ofWord (String.ofList (c :: cs.takeWhile isWordChar)), cs.dropWhile isWordChar) := by
  unfold lexeme?
  split
  case h_11 => rw [if_pos h]
  all_goals exact absurd h (by decide)

/-! ### What is scanned first -/

/-- **A token leads a text**, which goes on with `rest`. A word is as long as it can be, and so is
an operator. -/
inductive Leads : List Char → Token → List Char → Prop where
  | quoted {body rest : List Char} (unquoted : '"' ∉ body) :
      Leads ('"' :: (body ++ '"' :: rest)) (.quoted (String.ofList body)) rest
  | word {c : Char} {run rest : List Char} (first : isWordChar c = true)
      (letters : ∀ x ∈ run, isWordChar x = true)
      (longest : ∀ x ∈ rest.head?, isWordChar x = false) :
      Leads (c :: (run ++ rest)) (ofWord (String.ofList (c :: run))) rest
  | operator {rest : List Char} (op : Operator)
      (longest : op = .gt ∨ op = .lt → rest.head? ≠ some '=') :
      Leads (op.symbol.toList ++ rest) (.operator op) rest
  | openGroup {rest : List Char} : Leads ('(' :: rest) .openGroup rest
  | closeGroup {rest : List Char} : Leads (')' :: rest) .closeGroup rest

variable {c : Char} {cs rest : List Char} {t : Token}

/-- What is left of a text after a run of a class of characters starts with no character of the
class. -/
theorem head_dropWhile {p : Char → Bool} {x : Char} (h : x ∈ (cs.dropWhile p).head?) :
    p x = false := by
  have hnot := List.head?_dropWhile_not p cs
  rw [Option.mem_def.1 h] at hnot
  exact hnot

theorem mem_takeWhile {p : Char → Bool} {x : Char} (h : x ∈ cs.takeWhile p) : p x = true :=
  List.all_eq_true.1 List.all_takeWhile x h

theorem leads_quoted (h : cs.dropWhile isUnquoted = c :: rest) :
    Leads ('"' :: cs) (.quoted (String.ofList (cs.takeWhile isUnquoted))) rest := by
  have hhead : c ∈ (cs.dropWhile isUnquoted).head? := by simp [h]
  have hc : isUnquoted c = false := head_dropWhile hhead
  obtain rfl : c = '"' := by simpa [isUnquoted] using hc
  have hbody : '"' ∉ cs.takeWhile isUnquoted := fun hmem => absurd (mem_takeWhile hmem) (by decide)
  have hcs : cs = cs.takeWhile isUnquoted ++ '"' :: rest := by
    rw [← h, List.takeWhile_append_dropWhile]
  have hleads : Leads _ _ rest := .quoted hbody
  rwa [← hcs] at hleads

theorem leads_word (h : isWordChar c = true) : Leads (c :: cs)
    (ofWord (String.ofList (c :: cs.takeWhile isWordChar))) (cs.dropWhile isWordChar) := by
  have hletters : ∀ x ∈ cs.takeWhile isWordChar, isWordChar x = true := fun _ => mem_takeWhile
  have hlongest : ∀ x ∈ (cs.dropWhile isWordChar).head?, isWordChar x = false :=
    fun _ => head_dropWhile
  have hleads := Leads.word h hletters hlongest
  rwa [List.takeWhile_append_dropWhile] at hleads

/-- Every token that is found leads the text. -/
theorem leads_of_lexeme? (h : lexeme? c cs = some (t, rest)) : Leads (c :: cs) t rest := by
  unfold lexeme? at h
  split at h
  case h_1 =>
    split at h
    · simp at h
    next hd =>
      obtain ⟨rfl, rfl⟩ := Prod.mk.inj (Option.some.inj h)
      exact leads_quoted hd
  case h_11 =>
    split at h
    next hc =>
      obtain ⟨rfl, rfl⟩ := Prod.mk.inj (Option.some.inj h)
      exact leads_word hc
    · simp at h
  all_goals obtain ⟨rfl, rfl⟩ := Prod.mk.inj (Option.some.inj h)
  case h_2 => exact .operator .ge (by simp)
  case h_3 => exact .operator .le (by simp)
  case h_4 => exact .operator .ne (by simp)
  case h_5 => exact .operator .eq (by simp)
  case h_6 hne =>
    refine .operator .gt fun _ hhead => ?_
    obtain ⟨rest', rfl⟩ := List.head?_eq_some_iff.1 hhead
    exact hne _ rfl
  case h_7 hne =>
    refine .operator .lt fun _ hhead => ?_
    obtain ⟨rest', rfl⟩ := List.head?_eq_some_iff.1 hhead
    exact hne _ rfl
  case h_8 => exact .operator .present (by simp)
  case h_9 => exact .openGroup
  case h_10 => exact .closeGroup

theorem scan_blank (h : Text.isBlank c = true) (cs : List Char) : scan (c :: cs) = scan cs := by
  rw [scan, if_pos h]

theorem scan_lexeme (hb : Text.isBlank c = false) (h : lexeme? c cs = some (t, rest)) :
    scan (c :: cs) = t :: scan rest := by
  rw [scan, if_neg (by simp [hb])]
  split
  next t' rest' h' =>
    rw [h] at h'
    obtain ⟨rfl, rfl⟩ := Prod.mk.inj (Option.some.inj h')
    rfl
  next h' => simp [h] at h'

theorem ne_cons_of_head? {x : Char} (h : cs.head? ≠ some x) (ds : List Char) : cs ≠ x :: ds := by
  rintro rfl
  exact h rfl

/-- **A token that leads a text is scanned first.** -/
theorem scan_leads (h : Leads cs t rest) : scan cs = t :: scan rest := by
  cases h with
  | @quoted body rest hbody =>
    have hopen : ∀ c ∈ body, isUnquoted c = true := by
      intro c hc
      have hne : c ≠ '"' := fun h => hbody (h ▸ hc)
      simp [isUnquoted, hne]
    have hclose : isUnquoted '"' = false := by decide
    apply scan_lexeme (by decide)
    simp [lexeme?, List.takeWhile_append_of_pos hopen, List.dropWhile_append_of_pos hopen, hclose]
  | @word c run rest hc hrun hlongest =>
    apply scan_lexeme (isBlank_of_isWordChar hc)
    rw [lexeme?_of_isWordChar hc, Text.takeWhile_run hrun hlongest,
      Text.dropWhile_run hrun hlongest]
  | operator op hlongest =>
    cases op with
    | gt => exact scan_lexeme (by decide) (lexeme?.eq_6 _ (ne_cons_of_head? (hlongest (.inl rfl))))
    | lt => exact scan_lexeme (by decide) (lexeme?.eq_7 _ (ne_cons_of_head? (hlongest (.inr rfl))))
    | _ => exact scan_lexeme (by decide) rfl
  | openGroup => exact scan_lexeme (by decide) rfl
  | closeGroup => exact scan_lexeme (by decide) rfl

/-! ### Written tokens -/

/-- **The form in which scanning gives tokens**: a word has characters, all of words, and names no
gate; a quoted text has no quote in it. -/
def WellFormed : Token → Prop
  | .word s => s.toList ≠ [] ∧ s.toList.all isWordChar = true ∧ Gate.ofWord? s = none
  | .quoted s => '"' ∉ s.toList
  | _ => True

instance : (t : Token) → Decidable t.WellFormed
  | .word s => inferInstanceAs (Decidable (s.toList ≠ [] ∧ _ ∧ _))
  | .quoted s => inferInstanceAs (Decidable ('"' ∉ s.toList))
  | .operator _ | .gate _ | .openGroup | .closeGroup => inferInstanceAs (Decidable True)

theorem quoted_shown (s : String) :
    (quoted s).shown.toList = '"' :: (s.toList ++ ['"']) := by simp [shown]

/-- A run of word characters that ends before a space or at the end of the text is one word. -/
theorem leads_run {w : List Char} (hne : w ≠ []) (hw : w.all isWordChar = true)
    (hrest : ∀ c ∈ rest.head?, c = ' ') : Leads (w ++ rest) (ofWord (String.ofList w)) rest := by
  obtain ⟨c, cs, rfl⟩ := List.exists_cons_of_ne_nil hne
  obtain ⟨hc, hcs⟩ : isWordChar c = true ∧ ∀ x ∈ cs, isWordChar x = true := by simpa using hw
  refine .word hc hcs fun x hx => ?_
  obtain rfl : x = ' ' := hrest x hx
  decide

/-- A written token leads the text, if a space or nothing follows it. -/
theorem leads_shown (ht : t.WellFormed) (hrest : ∀ c ∈ rest.head?, c = ' ') :
    Leads (t.shown.toList ++ rest) t rest := by
  cases t with
  | word s =>
    obtain ⟨hne, hw, hg⟩ := ht
    have hleads := leads_run hne hw hrest
    rwa [String.ofList_toList, ofWord, hg] at hleads
  | quoted s =>
    have hleads : Leads _ _ rest := .quoted ht
    rw [String.ofList_toList] at hleads
    simpa [shown] using hleads
  | operator op =>
    -- the space keeps `>` and `<` from joining with what follows
    refine .operator op fun _ hhead => ?_
    exact absurd (hrest '=' hhead) (by decide)
  | gate g =>
    cases g with
    | and => exact leads_run (by decide) (by decide) hrest
    | or => exact leads_run (by decide) (by decide) hrest
  | openGroup => exact .openGroup
  | closeGroup => exact .closeGroup

/-- **A written token is scanned first**, if a space or nothing follows it. -/
theorem scan_shown (ht : t.WellFormed) (hrest : ∀ c ∈ rest.head?, c = ' ') :
    scan (t.shown.toList ++ rest) = t :: scan rest :=
  scan_leads (leads_shown ht hrest)

/-! ### Tokens written one after the other -/

@[simp] theorem print_nil : print [] = "" := rfl

@[simp] theorem print_singleton (t : Token) : print [t] = t.shown := by simp [print]

theorem print_cons_cons (t u : Token) (ts : List Token) :
    (print (t :: u :: ts)).toList = t.shown.toList ++ ' ' :: (print (u :: ts)).toList := by
  unfold print
  rw [List.map_cons, List.map_cons, String.intercalate_cons_cons]
  simp

/-- **Writing well-formed tokens and scanning them changes nothing.** -/
theorem ofText_print {ts : List Token} (h : ∀ t ∈ ts, t.WellFormed) : ofText (print ts) = ts := by
  unfold ofText
  induction ts with
  | nil => simp [scan]
  | cons t ts ih =>
    have ht := h t List.mem_cons_self
    have hts : ∀ t ∈ ts, t.WellFormed := fun t ht => h t (List.mem_cons_of_mem _ ht)
    cases ts with
    | nil =>
      have hscan : scan (t.shown.toList ++ []) = t :: scan [] := scan_shown ht (by simp)
      simpa [scan] using hscan
    | cons u ts =>
      rw [print_cons_cons, scan_shown ht (by simp), scan_blank (by decide), ih hts]

end Token

end Sift
