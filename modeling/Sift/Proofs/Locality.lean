import Mathlib.Data.List.TakeWhile
import Sift.Proofs.Split

/-!
# Scanning is local

A text is scanned in two halves, unless the cut goes through quotes, a word or an operator. A quote
looks for the next one over all the rest of the text, so the first half has to have as many quotes
that open as quotes that close.

* `lexeme?_eq_none_iff`: where no token starts.
* `Leads.append`: the token at the front of a text does not change when a text is put behind it.
* `scan_append`: **two texts that are apart are scanned one by one.**
* `scan_trim`: blanks around a text do not matter.
-/

namespace Sift.Token

variable {c : Char} {cs ds rest : List Char} {t : Token}

/-! ### Where no token starts -/

/-- The signs that tokens other than words start with. -/
def signs : List Char := ['"', '=', '>', '<', '!', ':', '(', ')']

/-- Characters that no token starts with. -/
def isStray (c : Char) : Bool := !isWordChar c && !signs.contains c

theorem dropWhile_isUnquoted_eq_nil : cs.dropWhile isUnquoted = [] ↔ '"' ∉ cs := by
  rw [List.dropWhile_eq_nil_iff]
  constructor
  · exact fun h hmem => absurd (h _ hmem) (by decide)
  · intro h x hx
    have hne : x ≠ '"' := fun heq => h (heq ▸ hx)
    simp [isUnquoted, hne]

/-- **Where no token starts**: at a quote that is not closed, a negation sign alone, or a stray
character. -/
theorem lexeme?_eq_none_iff : lexeme? c cs = none ↔
    (c = '"' ∧ '"' ∉ cs) ∨ (c = '!' ∧ cs.head? ≠ some '=') ∨ isStray c = true := by
  unfold lexeme?
  split
  case h_1 =>
    split
    next hd => simp [dropWhile_isUnquoted_eq_nil.1 hd]
    next hd =>
      have hmem : '"' ∈ cs := by
        by_contra hno
        simp [dropWhile_isUnquoted_eq_nil.2 hno] at hd
      simp [hmem, isStray, signs]
  case h_11 _ _ hquote heq hgt hlt hcolon hopen hclose _ _ hne =>
    replace hne : c = '!' → cs.head? ≠ some '=' := by
      intro hc hhead
      obtain ⟨rest, hrest⟩ := List.head?_eq_some_iff.1 hhead
      exact hne rest hc hrest
    have hword : isWordChar '!' = false := by decide
    by_cases hc : c = '!'
    · subst hc
      simp [hword, hne rfl]
    · have hsigns : c ∉ signs := by
        simp only [signs, List.mem_cons, List.not_mem_nil, or_false, not_or]
        exact ⟨hquote, heq, hgt, hlt, hc, hcolon, hopen, hclose⟩
      have hquote' : c ≠ '"' := hquote
      simp [isStray, hquote', hc, hsigns]
  all_goals simp [isStray, signs]

/-- Where no token starts, scanning goes on behind the character. -/
theorem scan_skip (h : lexeme? c cs = none) : scan (c :: cs) = scan cs := by
  by_cases hb : Text.isBlank c = true
  · exact scan_blank hb cs
  · rw [scan, if_neg hb]
    split
    next h' => simp [h] at h'
    next => rfl

/-! ### Texts behind a token -/

/-- The characters that a longer operator may start with. -/
def isOperatorStart (c : Char) : Bool := c == '>' || c == '<' || c == '!'

/-- **Two texts are apart**: no word and no operator goes on from the first into the second. -/
def Apart (cs ds : List Char) : Prop :=
  ∀ a ∈ cs.getLast?, ∀ b ∈ ds.head?,
    ¬(isWordChar a = true ∧ isWordChar b = true) ∧ ¬(isOperatorStart a = true ∧ b = '=')

theorem Apart.of_append (h : Apart (cs ++ rest) ds) : Apart rest ds := by
  intro a ha
  exact h a (by simp [List.getLast?_append, Option.mem_def.1 ha])

theorem Apart.of_cons (h : Apart (c :: cs) ds) : Apart cs ds := by
  rw [← List.singleton_append] at h
  exact h.of_append

/-- A text is apart from one that starts with neither a word character nor an equals sign. -/
theorem apart_of_head (hword : isWordChar c = false) (hsign : c ≠ '=') : Apart cs (c :: ds) := by
  intro a _ b hb
  obtain rfl : c = b := Option.some.inj hb
  exact ⟨fun h => by simp [hword] at h, fun h => hsign h.2⟩

/-- A token takes both quotes around a text, or none. -/
theorem Leads.taken (h : Leads cs t rest) : ∃ front, Text.Paired front ∧ cs = front ++ rest := by
  cases h with
  | @quoted body rest hbody => exact ⟨'"' :: (body ++ ['"']), Text.paired_quoted hbody, by simp⟩
  | @word c run rest hc hrun _ =>
    have hword : '"' ∉ c :: run := by
      intro hmem
      have hquote : isWordChar '"' = true := by
        rcases List.mem_cons.1 hmem with rfl | hmem
        · exact hc
        · exact hrun _ hmem
      exact absurd hquote (by decide)
    exact ⟨c :: run, Text.paired_of_not_mem hword, rfl⟩
  | operator op _ => exact ⟨op.symbol.toList, by cases op <;> decide, rfl⟩
  | openGroup => exact ⟨['('], by decide, rfl⟩
  | closeGroup => exact ⟨[')'], by decide, rfl⟩

/-- What follows a token that goes up to the end of the text is the text behind. -/
theorem mem_head?_append {x : Char} (h : x ∈ (rest ++ ds).head?) :
    x ∈ rest.head? ∨ rest = [] ∧ x ∈ ds.head? := by
  cases rest with
  | nil => exact .inr ⟨rfl, h⟩
  | cons y rest => exact .inl h

/-- **The token at the front stays** when a text that is apart is put behind. -/
theorem Leads.append (h : Leads cs t rest) (hapart : Apart cs ds) :
    Leads (cs ++ ds) t (rest ++ ds) := by
  cases h with
  | quoted hbody => simpa using Leads.quoted hbody
  | @word c run rest hc hrun hlongest =>
    rw [List.cons_append, List.append_assoc]
    refine .word hc hrun fun x hx => ?_
    rcases mem_head?_append hx with hx | ⟨rfl, hx⟩
    · exact hlongest x hx
    · -- the text ends with the word, so the seam is behind its last letter
      have hlast : isWordChar ((c :: run).getLast (by simp)) = true := by
        rcases List.mem_cons.1 (List.getLast_mem (by simp : c :: run ≠ [])) with h | h
        · rw [h, hc]
        · exact hrun _ h
      rw [List.append_nil] at hapart
      have hseam := (hapart _ (List.getLast?_eq_some_getLast (by simp)) x hx).1
      simpa [hlast] using hseam
  | operator op hlongest =>
    rw [List.append_assoc]
    refine .operator op fun hop hhead => ?_
    rcases mem_head?_append hhead with hx | ⟨rfl, hx⟩
    · exact hlongest hop hx
    · rcases hop with rfl | rfl
      · exact (hapart '>' rfl '=' hx).2 (by decide)
      · exact (hapart '<' rfl '=' hx).2 (by decide)
  | openGroup => exact .openGroup
  | closeGroup => exact .closeGroup

/-! ### Scanning in two halves -/

/-- Where no token starts, none starts when a text is put behind either. -/
theorem lexeme?_append_eq_none (hquotes : Text.Paired (c :: cs) ∨ '"' ∉ ds)
    (hapart : Apart (c :: cs) ds) (h : lexeme? c cs = none) : lexeme? c (cs ++ ds) = none := by
  rw [lexeme?_eq_none_iff] at h ⊢
  rcases h with ⟨rfl, hopen⟩ | ⟨rfl, hhead⟩ | hstray
  · -- a quote that is not closed would leave the quotes of the first text unpaired
    refine .inl ⟨rfl, ?_⟩
    rcases hquotes with hpaired | hds
    · simp [Text.Paired, List.count_eq_zero.2 hopen] at hpaired
    · simp [hopen, hds]
  · refine .inr (.inl ⟨rfl, fun hx => ?_⟩)
    rcases mem_head?_append hx with hx | ⟨rfl, hx⟩
    · exact hhead hx
    · exact (hapart '!' rfl '=' hx).2 (by decide)
  · exact .inr (.inr hstray)

/-- A quote where no token starts is not closed. -/
theorem unclosed_of_skip (hskip : lexeme? '"' cs = none) : '"' ∉ cs := by
  rcases lexeme?_eq_none_iff.1 hskip with ⟨-, hopen⟩ | ⟨hc, -⟩ | hstray
  · exact hopen
  · exact absurd hc (by decide)
  · exact absurd hstray (by decide)

/-- Where no token starts there is no quote of a pair. -/
theorem paired_of_skip (hskip : lexeme? c cs = none) (h : Text.Paired (c :: cs)) :
    Text.Paired cs := by
  by_cases hc : c = '"'
  · subst hc
    simp [Text.Paired, List.count_eq_zero.2 (unclosed_of_skip hskip)] at h
  · simpa [Text.Paired, List.count_cons, hc] using h

/-- **The steps of scanning.** What holds of the empty text, and passes over a character where no
token starts and over a token, holds of every text. By induction on the length. -/
theorem scan_induction {P : List Char → Prop} (nil : P [])
    (skip : ∀ c cs, lexeme? c cs = none → P cs → P (c :: cs))
    (take : ∀ cs t rest, Leads cs t rest → P rest → P cs) (cs : List Char) : P cs := by
  induction hn : cs.length using Nat.strong_induction_on generalizing cs with
  | _ n ih =>
    cases cs with
    | nil => exact nil
    | cons c cs =>
      cases hlex : lexeme? c cs with
      | none => exact skip c cs hlex (ih _ (by simp [← hn]) cs rfl)
      | some found =>
        obtain ⟨t, rest⟩ := found
        have hlength := lexeme?_rest_length hlex
        exact take _ t rest (leads_of_lexeme? hlex) (ih _
          (by simp only [← hn, List.length_cons]; omega) rest rfl)

/-- **Two texts that are apart are scanned one by one**, if the quotes of the first pair up or the
second has none. -/
theorem scan_append (hquotes : Text.Paired cs ∨ '"' ∉ ds) (hapart : Apart cs ds) :
    scan (cs ++ ds) = scan cs ++ scan ds := by
  induction cs using scan_induction with
  | nil => simp [scan]
  | skip c cs hskip ih =>
    have hquotes' : Text.Paired cs ∨ '"' ∉ ds := hquotes.imp_left (paired_of_skip hskip)
    have happ := lexeme?_append_eq_none hquotes hapart hskip
    rw [List.cons_append, scan_skip happ, scan_skip hskip]
    exact ih hquotes' hapart.of_cons
  | take cs t rest hleads ih =>
    obtain ⟨front, hpaired, rfl⟩ := hleads.taken
    have happ := hleads.append hapart
    rw [scan_leads happ, scan_leads hleads, List.cons_append]
    rw [ih (hquotes.imp_left hpaired.append_iff.1) hapart.of_append]

/-- A quoted text behind a text whose quotes pair up is one token. -/
theorem scan_append_quoted (hpaired : Text.Paired cs) {s : String} (hs : '"' ∉ s.toList)
    (ds : List Char) :
    scan (cs ++ '"' :: (s.toList ++ '"' :: ds)) = scan cs ++ .quoted s :: scan ds := by
  have hapart : Apart cs ('"' :: (s.toList ++ '"' :: ds)) := apart_of_head (by decide) (by decide)
  rw [scan_append (.inl hpaired) hapart, scan_leads (.quoted hs), String.ofList_toList]

/-! ### Blanks around a text -/

theorem scan_blanks (h : ∀ c ∈ cs, Text.isBlank c = true) (ds : List Char) :
    scan (cs ++ ds) = scan ds := by
  induction cs with
  | nil => rfl
  | cons c cs ih =>
    rw [List.cons_append, scan_blank (h c List.mem_cons_self)]
    exact ih fun c hc => h c (List.mem_cons_of_mem _ hc)

theorem apart_of_blank (h : ∀ c ∈ ds, Text.isBlank c = true) : Apart cs ds := by
  intro a _ b hb
  have hblank : Text.isBlank b = true := h b (List.mem_of_mem_head? hb)
  constructor
  · rintro ⟨-, hword⟩
    simp [isBlank_of_isWordChar hword] at hblank
  · rintro ⟨-, rfl⟩
    exact absurd hblank (by decide)

/-- **Blanks around a text do not matter.** -/
theorem scan_trim (cs : List Char) : scan (Text.trim cs) = scan cs := by
  obtain ⟨left, right, hcs, hleft, hright⟩ := Text.exists_blanks cs
  have hquote : '"' ∉ right := fun h => absurd (hright _ h) (by decide)
  have hnone : scan right = [] := by
    have hscan := scan_blanks hright []
    rwa [List.append_nil, scan] at hscan
  calc scan (Text.trim cs) = scan (Text.trim cs) ++ scan right := by rw [hnone, List.append_nil]
    _ = scan (Text.trim cs ++ right) := (scan_append (.inr hquote) (apart_of_blank hright)).symm
    _ = scan (left ++ (Text.trim cs ++ right)) := (scan_blanks hleft _).symm
    _ = scan cs := by rw [← hcs]

end Sift.Token
