import Sift.Proofs.Separation

/-!
# The grammar of option clauses

A clause is cut at the commas outside quotes, and each fragment is then read by itself:

    clause   := fragment (',' fragment)*
    fragment := blank* key blank* '=' blank* value blank*
    key      := [A-Za-z0-9_-]+
    value    := '"' [^"]* '"' | [A-Za-z0-9_+.:-]+

`Fragment` states this grammar apart from the reader, as a fragment cut into its parts. Each part
ends where the next character cannot go on with it, so there is one way only to cut a fragment, and
the reader finds it. Quotes pair up in every fragment, so the commas that join fragments are those
at which the clause is cut.

* `Text.run_unique`: a text can be cut behind a run of one class of characters in one way only.
* `Text.Fragmented`: the fragments of a text between separators outside quotes, and
  `Text.splitUnquoted_eq_iff`: these are the pieces that the text is split into.
* `Options.Fragment`: a fragment in its parts, and `Fragment.text_injective`: its text determines
  them.
* `Options.readPair?_eq_some_iff`: the reader accepts exactly the fragments.
* `pairs_iff_fragments`: **a clause has pairs exactly if it consists of fragments**; otherwise the
  error has the first part that is none.
-/

namespace Sift

/-! ### Runs of characters -/

namespace Text

variable {p : Char → Bool} {run run' rest rest' cs front : List Char} {c separator : Char}
  {pieces : List (List Char)}

theorem stops_nil : Stops p [] := by simp [Stops]

theorem stops_cons (hc : p c = false) : Stops p (c :: rest) := by simpa [Stops] using hc

theorem stops_append (hrun : ∀ x ∈ run, p x = false) (hrest : run = [] → Stops p rest) :
    Stops p (run ++ rest) := by
  cases run with
  | nil => exact hrest rfl
  | cons c run => exact stops_cons (hrun c List.mem_cons_self)

/-- **A text is cut behind a run in one way only.** -/
theorem run_unique (hrun : ∀ x ∈ run, p x = true) (hrun' : ∀ x ∈ run', p x = true)
    (hrest : Stops p rest)
    (hrest' : Stops p rest') (h : run ++ rest = run' ++ rest') : run = run' ∧ rest = rest' := by
  constructor
  · rw [← takeWhile_run hrun hrest, h, takeWhile_run hrun' hrest']
  · rw [← dropWhile_run hrun hrest, h, dropWhile_run hrun' hrest']

theorem trim_ne_nil (hmem : c ∈ cs) (hc : isBlank c = false) : trim cs ≠ [] := by
  intro hnil
  obtain ⟨left, right, hcs, hleft, hright⟩ := exists_blanks cs
  rw [hnil, List.nil_append] at hcs
  have hblank : isBlank c = true := by
    rw [hcs] at hmem
    rcases List.mem_append.1 hmem with hmem | hmem
    · exact hleft c hmem
    · exact hright c hmem
  simp [hc] at hblank

/-! ### Fragments between separators -/

/-- **The fragments of a text** between its separators outside quotes. A separator in a fragment
stands in quotes, and the quotes of every fragment with a separator behind it pair up, so that this
one does not. -/
structure Fragmented (separator : Char) (cs : List Char) (pieces : List (List Char)) : Prop where
  nonempty : pieces ≠ []
  joined : [separator].intercalate pieces = cs
  enclosed : ∀ piece ∈ pieces, Enclosed separator false piece
  paired : ∀ piece ∈ pieces.dropLast, Paired piece

theorem fragmented_singleton (h : Enclosed separator false cs) : Fragmented separator cs [cs] :=
  ⟨by simp, by simp, by simpa using h, by simp⟩

theorem fragmented_cons_iff (hne : pieces ≠ []) : Fragmented separator cs (front :: pieces) ↔
    ∃ rest, cs = front ++ separator :: rest ∧ Paired front ∧ Enclosed separator false front ∧
      Fragmented separator rest pieces := by
  obtain ⟨next, more, rfl⟩ := List.exists_cons_of_ne_nil hne
  constructor
  · rintro ⟨-, hjoined, henclosed, hpaired⟩
    rw [List.dropLast_cons_of_ne_nil hne] at hpaired
    obtain ⟨hfront, hmore⟩ := List.forall_mem_cons.1 henclosed
    obtain ⟨hfront', hmore'⟩ := List.forall_mem_cons.1 hpaired
    refine ⟨[separator].intercalate (next :: more), ?_, hfront', hfront, hne, rfl, hmore, hmore'⟩
    rw [← hjoined, List.intercalate_cons_cons, List.append_assoc, List.singleton_append]
  · rintro ⟨rest, rfl, hpaired, henclosed, hrest⟩
    refine ⟨by simp, ?_, List.forall_mem_cons.2 ⟨henclosed, hrest.enclosed⟩, ?_⟩
    · rw [List.intercalate_cons_cons, hrest.joined, List.append_assoc, List.singleton_append]
    · rw [List.dropLast_cons_of_ne_nil hne]
      exact List.forall_mem_cons.2 ⟨hpaired, hrest.paired⟩

/-- The pieces of a text are its fragments. By induction on the length: the text has no separator
outside quotes, or it goes on behind the first one. -/
theorem fragmented_splitUnquoted (hsep : separator ≠ '"') (cs : List Char) :
    Fragmented separator cs (splitUnquoted separator false cs) := by
  induction hn : cs.length using Nat.strong_induction_on generalizing cs with
  | _ n ih =>
    by_cases hnone : Enclosed separator false cs
    · rw [hnone.split]
      exact fragmented_singleton hnone
    · obtain ⟨front, rest, rfl, hpaired, hfirst⟩ := exists_first hnone
      have hrest :=
        ih rest.length (by simp only [← hn, List.length_append, List.length_cons]; omega) rest rfl
      rw [splitUnquoted_first hsep hpaired hfirst, fragmented_cons_iff hrest.nonempty]
      exact ⟨rest, rfl, hpaired, hfirst, hrest⟩

/-- **A text is split into its fragments, and has no others.** -/
theorem splitUnquoted_eq_iff (hsep : separator ≠ '"') :
    splitUnquoted separator false cs = pieces ↔ Fragmented separator cs pieces := by
  constructor
  · rintro rfl
    exact fragmented_splitUnquoted hsep cs
  · intro h
    -- a quote may be open in the last fragment, so `splitUnquoted_intercalate` is not enough
    induction pieces generalizing cs with
    | nil => exact absurd rfl h.nonempty
    | cons front pieces ih =>
      by_cases hne : pieces = []
      · subst hne
        obtain rfl : front = cs := by simpa using h.joined
        exact (h.enclosed front List.mem_cons_self).split
      · obtain ⟨rest, rfl, hpaired, henclosed, hrest⟩ := (fragmented_cons_iff hne).1 h
        rw [splitUnquoted_first hsep hpaired henclosed, ih hrest]

end Text

/-! ### Fragments in their parts -/

namespace Options

/-- Letters and digits of ASCII. -/
def Alphanumeric (c : Char) : Prop :=
  ('A' ≤ c ∧ c ≤ 'Z') ∨ ('a' ≤ c ∧ c ≤ 'z') ∨ ('0' ≤ c ∧ c ≤ '9')

/-- Characters of keys. -/
def KeyChar (c : Char) : Prop := Alphanumeric c ∨ c = '_' ∨ c = '-'

/-- Characters of values without quotes. -/
def BareChar (c : Char) : Prop := Alphanumeric c ∨ c = '_' ∨ c = '+' ∨ c = '-' ∨ c = '.' ∨ c = ':'

/-- Blanks, any number of them. -/
abbrev Blanks : Type := { cs : List Char // ∀ c ∈ cs, Text.isBlank c = true }

/-- A key. -/
abbrev Key : Type := { cs : List Char // cs ≠ [] ∧ ∀ c ∈ cs, KeyChar c }

/-- A value, in quotes or without. -/
inductive Value where
  | quoted (body : List Char) (unquoted : '"' ∉ body)
  | bare (run : List Char) (nonempty : run ≠ []) (letters : ∀ c ∈ run, BareChar c)

namespace Value

/-- The value as it is written. -/
def written : Value → List Char
  | .quoted body _ => '"' :: (body ++ ['"'])
  | .bare run _ _ => run

/-- The value itself, without the quotes around it. -/
def text : Value → List Char
  | .quoted body _ => body
  | .bare run _ _ => run

end Value

/-- **A fragment of a clause in its parts.** -/
structure Fragment where
  lead : Blanks
  key : Key
  beforeSign : Blanks
  behindSign : Blanks
  value : Value
  trail : Blanks

namespace Fragment

/-- The fragment as it is written. -/
def text (f : Fragment) : List Char :=
  f.lead.val ++ (f.key.val ++ (f.beforeSign.val ++ '=' ::
    (f.behindSign.val ++ (f.value.written ++ f.trail.val))))

/-- The key and the value of the fragment. -/
def pair (f : Fragment) : String × String := (String.ofList f.key.val, String.ofList f.value.text)

end Fragment

/-! ### Classes of characters -/

variable {c : Char} {cs text rest rest' : List Char} {p : String × String}

theorem isAlphanum_iff : c.isAlphanum = true ↔ Alphanumeric c := by
  delta Char.isAlphanum Char.isAlpha Char.isUpper Char.isLower Char.isDigit
  simp only [Bool.or_eq_true, Bool.and_eq_true, decide_eq_true_eq, Alphanumeric, Char.le_def,
    or_assoc]

theorem isKeyChar_iff : isKeyChar c = true ↔ KeyChar c := by
  simp [isKeyChar, KeyChar, isAlphanum_iff, or_assoc]

theorem isBareChar_iff : isBareChar c = true ↔ BareChar c := by
  simp [isBareChar, BareChar, isAlphanum_iff, or_assoc]

theorem isBlank_of_isKeyChar (h : isKeyChar c = true) : Text.isBlank c = false :=
  Text.isBlank_eq_false (by decide) h

theorem isBlank_of_isBareChar (h : isBareChar c = true) : Text.isBlank c = false :=
  Text.isBlank_eq_false (by decide) h

/-- No blank belongs to a class of characters without blanks. -/
theorem eq_false_of_isBlank {q : Char → Bool} (hq : ∀ c, q c = true → Text.isBlank c = false)
    (h : Text.isBlank c = true) : q c = false := by
  cases hc : q c with
  | false => rfl
  | true => simp [hq c hc] at h

/-! ### Where each part stops -/

namespace Key

variable (k : Key)

theorem isKeyChar (hc : c ∈ k.val) : Options.isKeyChar c = true :=
  isKeyChar_iff.2 (k.property.2 c hc)

/-- Blanks in front of a key stop there. -/
theorem stops_blank : Text.Stops Text.isBlank (k.val ++ rest) :=
  Text.stops_append (fun _ hc => isBlank_of_isKeyChar (isKeyChar k hc))
    fun hnil => absurd hnil k.property.1

end Key

/-- A key stops at the blanks in front of the equals sign, or at the sign. -/
theorem Blanks.stops_key (b : Blanks) : Text.Stops isKeyChar (b.val ++ '=' :: rest) :=
  Text.stops_append
    (fun c hc => eq_false_of_isBlank (fun _ => isBlank_of_isKeyChar) (b.property c hc))
    fun _ => Text.stops_cons (by decide)

/-- A value without quotes stops at blanks, or at the end. -/
theorem Blanks.stops_bare (b : Blanks) : Text.Stops isBareChar b.val := by
  have hstop : Text.Stops isBareChar (b.val ++ []) :=
    Text.stops_append
      (fun c hc => eq_false_of_isBlank (fun _ => isBlank_of_isBareChar) (b.property c hc))
      fun _ => Text.stops_nil
  rwa [List.append_nil] at hstop

namespace Value

variable (v w : Value)

/-- Blanks in front of a value stop there. -/
theorem stops_blank : Text.Stops Text.isBlank (v.written ++ rest) := by
  cases v with
  | quoted body _ => exact Text.stops_cons (by decide)
  | bare run hne hrun =>
    exact Text.stops_append (fun c hc => isBlank_of_isBareChar (isBareChar_iff.2 (hrun c hc)))
      fun hnil => absurd hnil hne

theorem ne_quote_of_not_mem (h : '"' ∉ cs) : ∀ c ∈ cs, (c != '"') = true := by
  intro c hc
  have hne : c ≠ '"' := fun heq => h (heq ▸ hc)
  simpa using hne

/-- A value without quotes does not start with one. -/
theorem bare_ne_quote {run more : List Char} (hne : run ≠ []) (hrun : ∀ c ∈ run, BareChar c)
    (body : List Char) :
    run ++ more ≠ '"' :: body := by
  intro heq
  obtain ⟨c, run, rfl⟩ := List.exists_cons_of_ne_nil hne
  obtain rfl : c = '"' := (List.cons.inj heq).1
  exact absurd (isBareChar_iff.2 (hrun _ List.mem_cons_self)) (by decide)

/-- **The value at the front of a text is the only one**, if the text cannot go on with it. -/
theorem written_unique (hrest : Text.Stops isBareChar rest) (hrest' : Text.Stops isBareChar rest')
    (h : v.written ++ rest = w.written ++ rest') : v = w ∧ rest = rest' := by
  cases v with
  | quoted body hbody =>
    cases w with
    | quoted body' hbody' =>
      have htail : body ++ '"' :: rest = body' ++ '"' :: rest' := by simpa [written] using h
      obtain ⟨rfl, hclose⟩ :=
        Text.run_unique (ne_quote_of_not_mem hbody) (ne_quote_of_not_mem hbody')
        (Text.stops_cons (by decide)) (Text.stops_cons (by decide)) htail
      exact ⟨rfl, (List.cons.inj hclose).2⟩
    | bare run hne hrun => exact absurd h.symm (bare_ne_quote hne hrun _)
  | bare run hne hrun =>
    cases w with
    | quoted body hbody => exact absurd h (bare_ne_quote hne hrun _)
    | bare run' hne' hrun' =>
      obtain ⟨rfl, hmore⟩ := Text.run_unique (fun c hc => isBareChar_iff.2 (hrun c hc))
        (fun c hc => isBareChar_iff.2 (hrun' c hc)) hrest hrest' h
      exact ⟨rfl, hmore⟩

end Value

/-- **A fragment is cut into its parts in one way only.** -/
theorem Fragment.text_injective : Function.Injective Fragment.text := by
  intro f g h
  -- part by part: a run of one class of characters, stopped by the first character of what follows
  obtain ⟨hlead, h⟩ :=
    Text.run_unique f.lead.property g.lead.property (Key.stops_blank _) (Key.stops_blank _) h
  obtain ⟨hkey, h⟩ :=
    Text.run_unique (fun _ => Key.isKeyChar _) (fun _ => Key.isKeyChar _) (Blanks.stops_key _)
    (Blanks.stops_key _) h
  obtain ⟨hbefore, h⟩ :=
    Text.run_unique f.beforeSign.property g.beforeSign.property (Text.stops_cons (by decide))
    (Text.stops_cons (by decide)) h
  obtain ⟨hbehind, h⟩ :=
    Text.run_unique f.behindSign.property g.behindSign.property (Value.stops_blank _)
    (Value.stops_blank _) (List.cons.inj h).2
  obtain ⟨hvalue, htrail⟩ := Value.written_unique _ _ (Blanks.stops_bare _) (Blanks.stops_bare _) h
  cases f
  cases g
  simp only [Fragment.mk.injEq]
  exact ⟨Subtype.ext hlead, Subtype.ext hkey, Subtype.ext hbefore, Subtype.ext hbehind, hvalue,
    Subtype.ext htrail⟩

/-! ### Reading a fragment -/

/-- A written value is read up to its end. -/
theorem readValue?_written (v : Value) (hrest : Text.Stops isBareChar rest) :
    readValue? (v.written ++ rest) = some (v.text, rest) := by
  cases v with
  | quoted body hbody =>
    have hclose : Text.Stops (· != '"') ('"' :: rest) := Text.stops_cons (by decide)
    have hwritten : (Value.quoted body hbody).written ++ rest = '"' :: (body ++ '"' :: rest) := by
      simp [Value.written]
    rw [hwritten, readValue?, Text.dropWhile_run (Value.ne_quote_of_not_mem hbody) hclose,
      Text.takeWhile_run (Value.ne_quote_of_not_mem hbody) hclose]
    rfl
  | bare run hne hrun =>
    have hbare : ∀ c ∈ run, isBareChar c = true := fun c hc => isBareChar_iff.2 (hrun c hc)
    show readValue? (run ++ rest) = some (run, rest)
    -- the case without quotes is the second one, for texts that do not start with a quote
    rw [readValue?.eq_2 _ (Value.bare_ne_quote hne hrun)]
    simp only [Text.takeWhile_run hbare hrest, Text.dropWhile_run hbare hrest, if_neg hne]

/-- What is read as a value is one. -/
theorem exists_value (h : readValue? cs = some (text, rest)) :
    ∃ v : Value, v.written ++ rest = cs ∧ v.text = text := by
  unfold readValue? at h
  split at h
  next cs =>
    split at h
    next x more hdrop =>
      obtain ⟨rfl, rfl⟩ := Prod.mk.inj (Option.some.inj h)
      have hhead : x ∈ (cs.dropWhile (· != '"')).head? := by rw [hdrop]; rfl
      obtain rfl : x = '"' := by simpa using Token.head_dropWhile hhead
      have hbody : '"' ∉ cs.takeWhile (· != '"') :=
        fun hmem => absurd (Token.mem_takeWhile hmem) (by decide)
      refine ⟨.quoted _ hbody, ?_, rfl⟩
      simp only [Value.written, List.cons_append, List.append_assoc, List.nil_append]
      rw [← hdrop, List.takeWhile_append_dropWhile]
    next => simp at h
  next cs _ =>
    simp only at h
    split at h
    · simp at h
    next hne =>
      obtain ⟨rfl, rfl⟩ := Prod.mk.inj (Option.some.inj h)
      exact ⟨.bare _ hne fun c hc => isBareChar_iff.1 (Token.mem_takeWhile hc),
        List.takeWhile_append_dropWhile, rfl⟩

/-- **What a fragment is read from**: a key, an equals sign, and a value with nothing but blanks
behind it. -/
theorem readPair?_eq_some : readPair? cs = some p ↔ ∃ rest value trail,
    (Text.trimStart cs).takeWhile isKeyChar ≠ [] ∧
    Text.trimStart ((Text.trimStart cs).dropWhile isKeyChar) = '=' :: rest ∧
    readValue? (Text.trimStart rest) = some (value, trail) ∧ Text.trimStart trail = [] ∧
    p = (String.ofList ((Text.trimStart cs).takeWhile isKeyChar), String.ofList value) := by
  constructor
  · intro h
    unfold readPair? at h
    simp only at h
    split at h
    · simp at h
    next hne =>
      split at h
      next rest hsign =>
        obtain ⟨⟨value, trail⟩, hvalue, h⟩ := Option.bind_eq_some_iff.1 h
        simp only at h
        split at h
        next htrail =>
          exact ⟨rest, value, trail, hne, hsign, hvalue, htrail, (Option.some.inj h).symm⟩
        next => simp at h
      next => simp at h
  · rintro ⟨rest, value, trail, hne, hsign, hvalue, htrail, rfl⟩
    simp only [readPair?, if_neg hne, hsign, hvalue, Option.bind_eq_bind, Option.bind_some,
      if_pos htrail]

/-- The blanks at the front of a text. -/
def Blanks.front (cs : List Char) : Blanks :=
  ⟨cs.takeWhile Text.isBlank, fun _ => Token.mem_takeWhile⟩

theorem Blanks.front_append (cs : List Char) : (Blanks.front cs).val ++ Text.trimStart cs = cs :=
  List.takeWhile_append_dropWhile

theorem Blanks.trimStart_append (b : Blanks) (hrest : Text.Stops Text.isBlank rest) :
    Text.trimStart (b.val ++ rest) = rest := Text.dropWhile_run b.property hrest

/-- A written fragment is read as its pair. -/
theorem readPair?_text (f : Fragment) : readPair? f.text = some f.pair := by
  have hstart : Text.trimStart f.text = f.key.val ++ (f.beforeSign.val ++ '=' ::
      (f.behindSign.val ++ (f.value.written ++ f.trail.val))) :=
    f.lead.trimStart_append (Key.stops_blank _)
  have hkey : (Text.trimStart f.text).takeWhile isKeyChar = f.key.val := by
    rw [hstart, Text.takeWhile_run (fun _ => Key.isKeyChar _) f.beforeSign.stops_key]
  refine readPair?_eq_some.2 ⟨f.behindSign.val ++ (f.value.written ++ f.trail.val), f.value.text,
    f.trail.val, ?_, ?_, ?_, ?_, ?_⟩
  · rw [hkey]
    exact f.key.property.1
  · rw [hstart, Text.dropWhile_run (fun _ => Key.isKeyChar _) f.beforeSign.stops_key,
      f.beforeSign.trimStart_append (Text.stops_cons (by decide))]
  · rw [f.behindSign.trimStart_append f.value.stops_blank, readValue?_written _ f.trail.stops_bare]
  · exact List.dropWhile_eq_nil_iff.2 f.trail.property
  · rw [hkey]
    rfl

/-- What is read as a pair is a fragment. -/
theorem exists_fragment (h : readPair? cs = some p) : ∃ f : Fragment, f.text = cs ∧ f.pair = p := by
  obtain ⟨rest, value, trail, hne, hsign, hvalue, htrail, rfl⟩ := readPair?_eq_some.1 h
  obtain ⟨v, hwritten, rfl⟩ := exists_value hvalue
  let key : Key :=
    ⟨(Text.trimStart cs).takeWhile isKeyChar, hne,
      fun c hc => isKeyChar_iff.1 (Token.mem_takeWhile hc)⟩
  let blanks : Blanks := ⟨trail, List.dropWhile_eq_nil_iff.1 htrail⟩
  refine ⟨⟨.front cs, key, .front ((Text.trimStart cs).dropWhile isKeyChar), .front rest, v,
    blanks⟩, ?_, rfl⟩
  unfold Fragment.text
  rw [hwritten, Blanks.front_append, ← hsign, Blanks.front_append, List.takeWhile_append_dropWhile,
    Blanks.front_append]

/-- **The reader accepts exactly the fragments.** -/
theorem readPair?_eq_some_iff :
    readPair? cs = some p ↔ ∃ f : Fragment, f.text = cs ∧ f.pair = p := by
  constructor
  · exact exists_fragment
  · rintro ⟨f, rfl, rfl⟩
    exact readPair?_text f

/-! ### Fragments joined to a clause -/

/-- A character that may stand in a fragment in quotes only. -/
def Foreign (c : Char) : Prop :=
  Text.isBlank c = false ∧ isKeyChar c = false ∧ isBareChar c = false ∧ c ≠ '='

instance (c : Char) : Decidable (Foreign c) := inferInstanceAs (Decidable (_ ∧ _ ∧ _ ∧ _))

theorem Blanks.not_mem (b : Blanks) (h : Text.isBlank c = false) : c ∉ b.val := by
  intro hmem
  simp [b.property c hmem] at h

theorem Value.bare_not_mem {run : List Char} (hrun : ∀ c ∈ run, BareChar c)
    (h : isBareChar c = false) : c ∉ run := by
  intro hmem
  simp [isBareChar_iff.2 (hrun c hmem)] at h

namespace Fragment

/-- The fragment up to its value. -/
def front (f : Fragment) : List Char :=
  f.lead.val ++ (f.key.val ++ (f.beforeSign.val ++ '=' :: f.behindSign.val))

theorem text_eq (f : Fragment) :
    f.text = f.front ++ (f.value.written ++ f.trail.val) := by simp [text, front]

theorem not_mem_front (f : Fragment) (h : Foreign c) : c ∉ f.front := by
  obtain ⟨hblank, hkey, -, hsign⟩ := h
  have hkey' : c ∉ f.key.val := fun hmem => by simp [Key.isKeyChar _ hmem] at hkey
  simp only [front, List.mem_append, List.mem_cons, not_or]
  exact ⟨f.lead.not_mem hblank, hkey', f.beforeSign.not_mem hblank, hsign,
    f.behindSign.not_mem hblank⟩

/-- **A foreign character does not split a fragment.** -/
theorem whole (f : Fragment) (h : Foreign c) : Text.Whole c f.text := by
  have hquote : Foreign '"' := by decide
  have hvalue : Text.Whole c f.value.written := by
    cases f.value with
    | quoted body hbody => exact Text.whole_quoted hbody
    | bare run _ hrun =>
      exact Text.whole_of_plain (Value.bare_not_mem hrun (by decide))
        (Value.bare_not_mem hrun h.2.2.1)
  rw [text_eq]
  exact (Text.whole_of_plain (f.not_mem_front hquote) (f.not_mem_front h)).append
    (hvalue.append (Text.whole_of_plain (f.trail.not_mem hquote.1) (f.trail.not_mem h.1)))

/-- **The quotes of a fragment pair up.** -/
theorem paired (f : Fragment) : Text.Paired f.text := by
  have hquote : Foreign '"' := by decide
  have hvalue : Text.Paired f.value.written := by
    cases f.value with
    | quoted body hbody => exact Text.paired_quoted hbody
    | bare run _ hrun => exact Text.paired_of_not_mem (Value.bare_not_mem hrun (by decide))
  rw [text_eq, (Text.paired_of_not_mem (f.not_mem_front hquote)).append_iff, hvalue.append_iff]
  exact Text.paired_of_not_mem (f.trail.not_mem hquote.1)

end Fragment

/-- **A clause consists of fragments**, with commas between them. -/
structure Spells (fs : List Fragment) (clause : String) : Prop where
  nonempty : fs ≠ []
  joined : [','].intercalate (fs.map Fragment.text) = clause.toList

variable {fs gs : List Fragment} {clause : String} {pieces : List (List Char)}
  {ps : List (String × String)} {e : QueryError}

/-- The fragments that a clause consists of are those between its commas outside quotes. -/
theorem Spells.split (h : Spells fs clause) :
    Text.splitUnquoted ',' false clause.toList = fs.map Fragment.text := by
  have hne : fs.map Fragment.text ≠ [] := by simpa using h.nonempty
  rw [← h.joined]
  refine Text.splitUnquoted_intercalate (by decide) hne fun piece hpiece => ?_
  obtain ⟨f, -, rfl⟩ := List.mem_map.1 hpiece
  exact f.whole (by decide)

theorem Spells.unique (h : Spells fs clause) (h' : Spells gs clause) : fs = gs :=
  (List.map_inj_right fun _ _ heq => Fragment.text_injective heq).1 (h.split.symm.trans h'.split)

theorem Spells.paired (h : Spells fs clause) : Text.Paired clause.toList := by
  have hcomma : Text.Paired [','] := by decide
  rw [← h.joined]
  refine Text.intercalate_closed (fun a b ha hb => ?_) (by simpa using h.nonempty)
    fun piece hpiece => ?_
  · exact ha.append_iff.2 (hcomma.append_iff.2 hb)
  · obtain ⟨f, -, rfl⟩ := List.mem_map.1 hpiece
    exact f.paired

/-- The text is a fragment. -/
def IsFragment (cs : List Char) : Prop := ∃ f : Fragment, f.text = cs

theorem pair_eq_ok_iff : pair cs = .ok p ↔ ∃ f : Fragment, f.text = cs ∧ f.pair = p := by
  rw [← readPair?_eq_some_iff, pair]
  cases readPair? cs <;> simp

theorem exists_pair_eq_ok_iff : (∃ p, pair cs = .ok p) ↔ IsFragment cs := by
  constructor
  · rintro ⟨p, hp⟩
    obtain ⟨f, hf, -⟩ := pair_eq_ok_iff.1 hp
    exact ⟨f, hf⟩
  · rintro ⟨f, rfl⟩
    exact ⟨f.pair, pair_eq_ok_iff.2 ⟨f, rfl, rfl⟩⟩

theorem pair_eq_error_iff : pair cs = .error e ↔
    ¬IsFragment cs ∧ e = .invalidOption (String.ofList (Text.trim cs)) := by
  rw [← exists_pair_eq_ok_iff, pair]
  cases readPair? cs <;> simp [eq_comm]

/-- **All fragments** are read as pairs exactly if each is one. -/
theorem mapM_pair_eq_ok : pieces.mapM pair = .ok ps ↔
    ∃ fs : List Fragment, fs.map Fragment.text = pieces ∧ fs.map Fragment.pair = ps := by
  constructor
  · intro h
    induction pieces generalizing ps with
    | nil =>
      obtain rfl := Except.ok.inj h
      exact ⟨[], rfl, rfl⟩
    | cons piece pieces ih =>
      rw [List.mapM_cons] at h
      obtain ⟨p, hp, h⟩ := bind_eq_ok.1 h
      obtain ⟨ps, hps, h⟩ := bind_eq_ok.1 h
      obtain rfl := Except.ok.inj h
      obtain ⟨f, rfl, rfl⟩ := pair_eq_ok_iff.1 hp
      obtain ⟨fs, rfl, rfl⟩ := ih hps
      exact ⟨f :: fs, rfl, rfl⟩
  · rintro ⟨fs, rfl, rfl⟩
    rw [List.mapM_map]
    exact mapM_ok fun f _ => pair_eq_ok_iff.2 ⟨f, rfl, rfl⟩

theorem pairs_of_not_blank (hclause : ∃ c ∈ clause.toList, Text.isBlank c = false) :
    pairs clause = (Text.splitUnquoted ',' false clause.toList).mapM pair := by
  obtain ⟨c, hmem, hc⟩ := hclause
  exact if_neg (Text.trim_ne_nil hmem hc)

theorem pairs_eq_ok_iff (hclause : ∃ c ∈ clause.toList, Text.isBlank c = false) :
    pairs clause = .ok ps ↔ ∃ fs, Spells fs clause ∧ fs.map Fragment.pair = ps := by
  rw [pairs_of_not_blank hclause, mapM_pair_eq_ok]
  constructor
  · rintro ⟨fs, htexts, hps⟩
    have hfragmented := (Text.splitUnquoted_eq_iff (by decide)).1 htexts.symm
    exact ⟨fs, ⟨by simpa using hfragmented.nonempty, hfragmented.joined⟩, hps⟩
  · rintro ⟨fs, hspells, hps⟩
    exact ⟨fs, hspells.split.symm, hps⟩

/-- **The first part of a clause that is no fragment**, of those between commas outside quotes. -/
def FirstOffence (clause : String) (bad : List Char) : Prop :=
  ∃ before after, Text.Fragmented ',' clause.toList (before ++ bad :: after) ∧
    (∀ piece ∈ before, IsFragment piece) ∧ ¬IsFragment bad

theorem pairs_eq_error_iff (hclause : ∃ c ∈ clause.toList, Text.isBlank c = false) :
    pairs clause = .error e ↔
    ∃ bad, FirstOffence clause bad ∧ e = .invalidOption (String.ofList (Text.trim bad)) := by
  have hcomma : ',' ≠ '"' := by decide
  rw [pairs_of_not_blank hclause, mapM_eq_error_iff]
  simp only [exists_pair_eq_ok_iff, pair_eq_error_iff, Text.splitUnquoted_eq_iff hcomma]
  constructor
  · rintro ⟨before, bad, after, hfragmented, hbefore, hbad, he⟩
    exact ⟨bad, ⟨before, after, hfragmented, hbefore, hbad⟩, he⟩
  · rintro ⟨bad, ⟨before, after, hfragmented, hbefore, hbad⟩, he⟩
    exact ⟨before, bad, after, hfragmented, hbefore, hbad, he⟩

end Options

/-- **A clause has pairs exactly if it consists of fragments.** Take a clause that is not blank. Its
pairs are the keys and values of the fragments that it consists of, in order, where a value loses
exactly the quotes around it; and it consists of them in one way only. If it does not consist of
fragments, it is refused for the first of its parts between commas outside quotes that is none, with
the text of that part, trimmed. A clause whose quotes do not pair up is always refused. -/
theorem pairs_iff_fragments (clause : String)
    (hclause : ∃ c ∈ clause.toList, Text.isBlank c = false) :
    (∀ ps, Options.pairs clause = .ok ps ↔
      ∃ fs, Options.Spells fs clause ∧ fs.map Options.Fragment.pair = ps) ∧
    (∀ fs gs, Options.Spells fs clause → Options.Spells gs clause → fs = gs) ∧
    (∀ e, Options.pairs clause = .error e ↔ ∃ bad, Options.FirstOffence clause bad ∧
      e = .invalidOption (String.ofList (Text.trim bad))) ∧
    (¬Text.Paired clause.toList → ∃ e, Options.pairs clause = .error e ∧
      e.code = "INVALID_OPTION") := by
  refine ⟨fun ps => Options.pairs_eq_ok_iff hclause, fun fs gs => Options.Spells.unique,
    fun e => Options.pairs_eq_error_iff hclause, fun hodd => ?_⟩
  cases hresult : Options.pairs clause with
  | ok ps =>
    obtain ⟨fs, hspells, -⟩ := (Options.pairs_eq_ok_iff hclause).1 hresult
    exact absurd hspells.paired hodd
  | error e =>
    obtain ⟨bad, -, rfl⟩ := (Options.pairs_eq_error_iff hclause).1 hresult
    exact ⟨_, rfl, rfl⟩

/-- A value with a comma, an equals sign and a line break in quotes and one without quotes; a clause
that ends with a comma, where the empty part behind it is refused; and a quote that is not closed,
which takes the rest of the clause with it. -/
theorem pairs_iff_fragments_quoted :
    (∃ fs, Options.Spells fs "\tk=\"a,=\n\" ,size = -5" ∧
        fs.map Options.Fragment.pair = [("k", "a,=\n"), ("size", "-5")]) ∧
      (∃ bad, Options.FirstOffence "size = 10 , " bad ∧ String.ofList (Text.trim bad) = "") ∧
      ∃ bad, Options.FirstOffence "size = 10, k = \"a, b = 1 " bad ∧
        String.ofList (Text.trim bad) = "k = \"a, b = 1" := by
  have hvalues : Options.pairs "\tk=\"a,=\n\" ,size = -5" =
      .ok [("k", "a,=\n"), ("size", "-5")] := by decide +kernel
  have hcomma : Options.pairs "size = 10 , " = .error (.invalidOption "") := by decide +kernel
  have hquote : Options.pairs "size = 10, k = \"a, b = 1 " =
      .error (.invalidOption "k = \"a, b = 1") := by decide +kernel
  have hoffence {clause text : String} (hclause : ∃ c ∈ clause.toList, Text.isBlank c = false)
      (h : Options.pairs clause = .error (.invalidOption text)) :
      ∃ bad, Options.FirstOffence clause bad ∧ String.ofList (Text.trim bad) = text := by
    obtain ⟨bad, hbad, htext⟩ := ((pairs_iff_fragments clause hclause).2.2.1 _).1 h
    exact ⟨bad, hbad, (QueryError.invalidOption.inj htext).symm⟩
  exact ⟨((pairs_iff_fragments _ ⟨'k', by decide, by decide⟩).1 _).1 hvalues,
    hoffence ⟨'s', by decide, by decide⟩ hcomma, hoffence ⟨'s', by decide, by decide⟩ hquote⟩

end Sift
