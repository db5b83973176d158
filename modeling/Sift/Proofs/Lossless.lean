import Sift.Proofs.Pieces

/-!
# Scanning loses nothing significant

The pieces of a scanned text are told here by what stands around them, without scanning: how a token
is written where it stands, and which characters may be passed over. A text can be cut into such
pieces in one way only, so the tokens are given by this alone.

* `Token.MaximalRun`: word characters that cannot be made more on either side.
* `Token.WrittenAs`: a token as it stands in a text.
* `Token.Overlooked`: a character that may be passed over, and `overlooked_iff`: the places where no
  token starts.
* `Token.Cut`: pieces that fit what is around them.
* `cut_pieces`: the pieces of a text are a cut, and `scan_of_cut`: the tokens of a cut are those of
  the text.
* `ofText_eq_iff_cut`: **the tokens of a text are those that it can be cut into.**
-/

namespace Sift

theorem Gate.ofWord?_eq_some {s : String} {g : Gate} :
    Gate.ofWord? s = some g ↔ sameLetters g.word s = true := by
  have hcomm : sameLetters g.word s = sameLetters s g.word := BEq.comm
  have hdiffer : sameLetters s "and" = true → sameLetters s "or" = true → False := by
    intro hand hor
    have heq := (eq_of_beq hand).symm.trans (eq_of_beq hor)
    exact absurd heq (by decide)
  rw [hcomm]
  unfold ofWord?
  cases g with
  | and => split <;> simp_all [word]
  | or => split <;> simp_all [word]

namespace Token

variable {c : Char} {cs left text right rest : List Char} {t : Token} {ps : List Piece} {p : Piece}

/-! ### Tokens and gaps in a text -/

/-- Word characters between two texts, **as many as there are**. -/
structure MaximalRun (left text right : List Char) : Prop where
  nonempty : text ≠ []
  letters : ∀ x ∈ text, isWordChar x = true
  before : ∀ x ∈ left.getLast?, isWordChar x = false
  after : ∀ x ∈ right.head?, isWordChar x = false

/-- The characters show the token: a gate in either case, any other as it is written. -/
def Shows (text : List Char) : Token → Prop
  | .gate g => sameLetters (gate g).shown (String.ofList text) = true
  | t => t.shown.toList = text

/-- **A token as it stands in a text**, with `left` in front of it and `right` behind it. -/
structure WrittenAs (left text right : List Char) (t : Token) : Prop where
  shows : t.Shows text
  word : ∀ s, t = .word s → MaximalRun left text right ∧ Gate.ofWord? s = none
  gate : ∀ g, t = .gate g → MaximalRun left text right
  operator : t = .operator .gt ∨ t = .operator .lt → right.head? ≠ some '='
  quoted : ∀ s, t = .quoted s → ∃ body, text = '"' :: (body ++ ['"']) ∧ '"' ∉ body

/-- **A character that may be passed over**, in front of `right`: a blank, a negation sign alone, a
quote without another one behind it, or a character that is part of no token outside quotes. -/
def Overlooked (c : Char) (right : List Char) : Prop :=
  Text.isBlank c = true ∨ (c = '!' ∧ right.head? ≠ some '=') ∨ (c = '"' ∧ '"' ∉ right) ∨
    (isWordChar c = false ∧ Text.isBlank c = false ∧ c ∉ signs)

/-- A piece that fits what is around it. -/
def Piece.InPlace (left right : List Char) : Piece → Prop
  | .taken t text => t.WrittenAs left text right
  | .passed c => Overlooked c right

/-- **Pieces that a text can be cut into** behind the text `left`: each fits what is around it. -/
def Cut (left : List Char) (ps : List Piece) : Prop :=
  ∀ before p after, ps = before ++ p :: after →
    p.InPlace (left ++ before.flatMap Piece.text) (after.flatMap Piece.text)

theorem cut_nil : Cut left [] := by simp [Cut]

theorem cut_cons :
    Cut left (p :: ps) ↔ p.InPlace left (ps.flatMap Piece.text) ∧ Cut (left ++ p.text) ps := by
  constructor
  · intro h
    refine ⟨by simpa using h [] p ps rfl, fun before x after hps => ?_⟩
    have hx := h (p :: before) x after (by rw [hps]; rfl)
    rwa [List.flatMap_cons, ← List.append_assoc] at hx
  · rintro ⟨hp, hps⟩ before x after h
    cases before with
    | nil =>
      obtain ⟨rfl, rfl⟩ := List.cons.inj h
      simpa using hp
    | cons y before =>
      obtain ⟨rfl, rfl⟩ := List.cons.inj h
      rw [List.flatMap_cons, ← List.append_assoc]
      exact hps before x after rfl

/-! ### Where no token starts -/

theorem isStray_of_isBlank (h : Text.isBlank c = true) : isStray c = true := by
  have hword : isWordChar c = false := by
    cases hword : isWordChar c with
    | false => rfl
    | true => simp [isBlank_of_isWordChar hword] at h
  have hsigns : c ∉ signs := by
    intro hmem
    have hall : signs.all (! Text.isBlank ·) = true := by decide
    simpa [h] using List.all_eq_true.1 hall c hmem
  simp [isStray, hword, hsigns]

/-- **The characters that may be passed over are those at which no token starts.** -/
theorem overlooked_iff : Overlooked c right ↔ lexeme? c right = none := by
  have hstray : isStray c = true ↔ isWordChar c = false ∧ c ∉ signs := by simp [isStray]
  rw [lexeme?_eq_none_iff]
  constructor
  · rintro (hblank | hnot | hquote | ⟨hword, -, hsigns⟩)
    · exact .inr (.inr (isStray_of_isBlank hblank))
    · exact .inr (.inl hnot)
    · exact .inl hquote
    · exact .inr (.inr (hstray.2 ⟨hword, hsigns⟩))
  · rintro (hquote | hnot | h)
    · exact .inr (.inr (.inl hquote))
    · exact .inr (.inl hnot)
    · obtain ⟨hword, hsigns⟩ := hstray.1 h
      cases hblank : Text.isBlank c with
      | true => exact .inl hblank
      | false => exact .inr (.inr (.inr ⟨hword, hblank, hsigns⟩))

/-! ### The pieces of a text are a cut -/

/-- No word goes on from the first text into the second. -/
def Seam (left cs : List Char) : Prop :=
  ∀ a ∈ left.getLast?, ∀ b ∈ cs.head?, isWordChar a = true → isWordChar b = false

theorem seam_of_head (h : ∀ b ∈ cs.head?, isWordChar b = false) : Seam left cs :=
  fun _ _ b hb _ => h b hb

theorem seam_of_last (hlast : text.getLast? = some c) (h : isWordChar c = false) :
    Seam (left ++ text) cs := by
  intro a ha b _ hword
  rw [List.getLast?_append, hlast] at ha
  obtain rfl := Option.some.inj ha
  simp [h] at hword

theorem maximalRun_of_seam (hseam : Seam left (c :: cs))
    (letters : ∀ x ∈ c :: text, isWordChar x = true)
    (after : ∀ x ∈ right.head?, isWordChar x = false) : MaximalRun left (c :: text) right := by
  refine ⟨by simp, letters, fun x hx => ?_, after⟩
  cases hword : isWordChar x with
  | false => rfl
  | true =>
    have hc : isWordChar c = false := hseam x hx c rfl hword
    simp [letters c List.mem_cons_self] at hc

/-- As many word characters as there are make a word, or the gate that it names. -/
theorem MaximalRun.writtenAs (h : MaximalRun left text right) :
    (ofWord (String.ofList text)).WrittenAs left text right := by
  unfold ofWord
  cases hgate : Gate.ofWord? (String.ofList text) with
  | none => exact ⟨by simp [Shows, shown], by simpa using ⟨h, hgate⟩, by simp, by simp, by simp⟩
  | some g => exact ⟨Gate.ofWord?_eq_some.1 hgate, by simp, fun _ _ => h, by simp, by simp⟩

/-- **One token** of a text is written as it stands there, and no word goes on behind it. -/
theorem Leads.writtenAs (h : Leads cs t rest) (htext : cs = text ++ rest) (hseam : Seam left cs) :
    t.WrittenAs left text rest ∧ Seam (left ++ text) rest := by
  cases h with
  | @quoted body rest hbody =>
    have hwhole : '"' :: (body ++ ['"']) ++ rest = text ++ rest := by simpa using htext
    obtain rfl := List.append_cancel_right hwhole
    refine ⟨⟨by simp [Shows, shown], by simp, by simp, by simp, fun _ _ => ⟨body, rfl, hbody⟩⟩, ?_⟩
    have hlast : ('"' :: (body ++ ['"'])).getLast? = some '"' := by
      rw [← List.cons_append, List.getLast?_concat]
    exact seam_of_last hlast (by decide)
  | @word c run rest hc hrun hlongest =>
    obtain rfl : c :: run = text := List.append_cancel_right htext
    have hletters : ∀ x ∈ c :: run, isWordChar x = true := List.forall_mem_cons.2 ⟨hc, hrun⟩
    exact ⟨(maximalRun_of_seam hseam hletters hlongest).writtenAs, seam_of_head hlongest⟩
  | operator op hlongest =>
    obtain rfl := List.append_cancel_right htext
    refine ⟨⟨rfl, by simp, by simp, by simpa using hlongest, by simp⟩, ?_⟩
    have hlast : ∃ c, op.symbol.toList.getLast? = some c ∧ isWordChar c = false := by
      cases op <;> exact ⟨_, rfl, by decide⟩
    obtain ⟨c, hc, hword⟩ := hlast
    exact seam_of_last hc hword
  | openGroup =>
    obtain rfl : ['('] = text := List.append_cancel_right htext
    exact ⟨⟨rfl, by simp, by simp, by simp, by simp⟩, seam_of_last rfl (by decide)⟩
  | closeGroup =>
    obtain rfl : [')'] = text := List.append_cancel_right htext
    exact ⟨⟨rfl, by simp, by simp, by simp, by simp⟩, seam_of_last rfl (by decide)⟩

/-- **The pieces of a text are a cut of it**, behind any text that no word goes on from. -/
theorem cut_pieces (hseam : Seam left cs) : Cut left (pieces cs) := by
  fun_induction pieces cs generalizing left with
  | case1 => exact cut_nil
  | case2 c cs t rest hlex ih =>
    have hleads := leads_of_lexeme? hlex
    obtain ⟨front, -, htext⟩ := hleads.taken
    obtain ⟨hwritten, hnext⟩ := hleads.writtenAs htext hseam
    rw [take_front htext, cut_cons, pieces_text]
    exact ⟨hwritten, ih hnext⟩
  | case3 c cs hlex ih =>
    have hc : isWordChar c = false := by
      cases hword : isWordChar c with
      | false => rfl
      | true => simp [lexeme?_of_isWordChar hword] at hlex
    rw [cut_cons, pieces_text]
    exact ⟨overlooked_iff.2 hlex, ih (seam_of_last rfl hc)⟩

/-! ### A cut gives the tokens of its text -/

theorem MaximalRun.leads (h : MaximalRun left text right) :
    Leads (text ++ right) (ofWord (String.ofList text)) right := by
  obtain ⟨hne, hletters, -, hafter⟩ := h
  obtain ⟨c, run, rfl⟩ := List.exists_cons_of_ne_nil hne
  obtain ⟨hc, hrun⟩ := List.forall_mem_cons.1 hletters
  exact .word hc hrun hafter

/-- A token that stands in a text leads what is left of the text there. -/
theorem WrittenAs.leads (h : t.WrittenAs left text right) : Leads (text ++ right) t right := by
  cases t with
  | word s =>
    obtain ⟨hrun, hno⟩ := h.word s rfl
    have hshows : s.toList = text := h.shows
    subst hshows
    have hleads := hrun.leads
    rwa [String.ofList_toList, ofWord, hno] at hleads
  | quoted s =>
    obtain ⟨body, rfl, hbody⟩ := h.quoted s rfl
    have hshows : '"' :: (s.toList ++ ['"']) = '"' :: (body ++ ['"']) :=
      (quoted_shown s).symm.trans h.shows
    obtain rfl : s.toList = body := List.append_cancel_right (List.cons.inj hshows).2
    have hleads : Leads _ _ right := .quoted hbody
    simpa using hleads
  | operator op =>
    have hshows : op.symbol.toList = text := h.shows
    subst hshows
    exact .operator op (by simpa using h.operator)
  | gate g =>
    have hgate : Gate.ofWord? (String.ofList text) = some g := Gate.ofWord?_eq_some.2 h.shows
    have hleads := (h.gate g rfl).leads
    rwa [ofWord, hgate] at hleads
  | openGroup =>
    obtain rfl : ['('] = text := h.shows
    exact .openGroup
  | closeGroup =>
    obtain rfl : [')'] = text := h.shows
    exact .closeGroup

/-- **The tokens of a cut are the tokens of its text.** -/
theorem scan_of_cut (h : Cut left ps) :
    scan (ps.flatMap Piece.text) = ps.filterMap Piece.token? := by
  induction ps generalizing left with
  | nil => simp [scan]
  | cons p ps ih =>
    obtain ⟨hp, hps⟩ := cut_cons.1 h
    cases p with
    | taken t text =>
      have hleads := WrittenAs.leads hp
      rw [List.flatMap_cons, Piece.text, scan_leads hleads, ih hps]
      rfl
    | passed c =>
      rw [List.flatMap_cons, Piece.text, List.singleton_append, scan_skip (overlooked_iff.1 hp),
        ih hps]
      rfl

end Token

/-- **Scanning loses nothing significant.** The tokens of a text are those of a cut of the whole
text into tokens, each written as it stands there, and characters that may be passed over; and no
cut of the text gives other tokens. -/
theorem ofText_eq_iff_cut (input : String) (ts : List Token) : Token.ofText input = ts ↔
    ∃ ps : List Token.Piece, ps.flatMap Token.Piece.text = input.toList ∧
      ps.filterMap Token.Piece.token? = ts ∧ Token.Cut [] ps := by
  unfold Token.ofText
  constructor
  · rintro rfl
    have hseam : Token.Seam [] input.toList := by simp [Token.Seam]
    exact ⟨_, Token.pieces_text _, Token.pieces_token? _, Token.cut_pieces hseam⟩
  · rintro ⟨ps, htext, htokens, hcut⟩
    rw [← htext, ← htokens]
    exact Token.scan_of_cut hcut

end Sift
