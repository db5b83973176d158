import Sift.Proofs.Appending
import Sift.Proofs.Invariant

/-!
# Values with and without quotes

A value may stand in quotes or, if it is a single word, without them. Nothing tells the two apart
afterwards: behind an operator the machine either has stopped or takes the next token as a value,
and of a value it keeps only the text. Elsewhere quotes do count, since a text in quotes is never
the name of a field.

* `Token.value?_word`: a word without quotes in it stands for itself.
* `Filter.expected_of_operator`: behind an operator a value is expected, in whatever state it was
  read.
* `Filter.step_value_congr`, `Filter.run_value_congr`: tokens that stand for one text do the same
  there.
* `ofTokens_quoted_value`: **quoting a value changes nothing.**
-/

namespace Sift

/-- A text without quotes has none around it. -/
theorem Token.value?_word {w : String} (h : '"' ∉ w.toList) : (Token.word w).value? = some w := by
  have hsame : unquoted w = w := by
    unfold unquoted
    split
    next cs htext => simp [htext] at h
    next => rfl
  rw [value?, hsame]

namespace Filter

variable {ctx : Context} {s s' : State} {v v' : Token} {text field : String} {op : Operator}

/-- **Behind an operator a value is expected.** Where a condition starts, and where a value is
expected already, an operator is refused. -/
theorem expected_of_operator (h : step ctx s (.operator op) = .ok s') :
    ∃ field, s'.expected = .value field op := by
  obtain ⟨cur, encl, next⟩ := s
  cases next with
  | field => simp [step, stepField] at h
  | operator field =>
    obtain ⟨op', hop, rfl⟩ := step_operator_cases h
    obtain rfl := Token.operator.inj hop
    exact ⟨field, rfl⟩
  | value field op' => simp [step, stepValue, Token.value?] at h

/-- **One token**: where a value is expected, only the text counts that a token stands for. -/
theorem step_value_congr (hs : s.expected = .value field op) (hv : v.value? = some text)
    (hv' : v'.value? = some text) : step ctx s v = step ctx s v' := by
  obtain ⟨cur, encl, next⟩ := s
  obtain rfl : next = .value field op := hs
  rw [step_value_eq hv, step_value_eq hv']

/-- **Several tokens**: the one behind an operator can be any that stands for the text, in every
state and whatever follows. -/
theorem run_value_congr (hv : v.value? = some text) (hv' : v'.value? = some text) (s : State)
    (op : Operator) (us : List Token) :
    run ctx s (.operator op :: v :: us) = run ctx s (.operator op :: v' :: us) := by
  rw [run_cons, run_cons]
  -- an operator that is refused stops both runs, and one that is taken leaves both with a value
  -- expected
  cases hstep : step ctx s (.operator op) with
  | error e => rfl
  | ok s' =>
    obtain ⟨field, hexpected⟩ := expected_of_operator hstep
    show run ctx s' (v :: us) = run ctx s' (v' :: us)
    rw [run_cons, run_cons, step_value_congr hexpected hv hv']

/-- The tokens of a filter, with another token for a value. -/
theorem ofTokens_value_congr (hv : v.value? = some text) (hv' : v'.value? = some text)
    (ts us : List Token) (op : Operator) :
    ofTokens ctx (ts ++ .operator op :: v :: us) =
      ofTokens ctx (ts ++ .operator op :: v' :: us) := by
  unfold ofTokens
  rw [run_append, run_append]
  simp only [run_value_congr hv hv']

end Filter

/-- **Quoting a value changes nothing.** Take any fields, zone and instant, and any tokens with an
operator and behind it a word without a double quote in it. With the word in quotes they are read as
the same tree, or refused with the same error, wherever the operator stands and whatever is around
it. -/
theorem ofTokens_quoted_value (ctx : Context) (ts us : List Token) (op : Operator) (w : String)
    (hw : '"' ∉ w.toList) :
    Filter.ofTokens ctx (ts ++ [.operator op, .word w] ++ us) =
      Filter.ofTokens ctx (ts ++ [.operator op, .quoted w] ++ us) := by
  have hquoted : (Token.quoted w).value? = some w := rfl
  rw [List.append_assoc, List.append_assoc]
  exact Filter.ofTokens_value_congr (Token.value?_word hw) hquoted ts us op

/-- A list in a group, a number that cannot be read with its text in the error, and an operator that
has no field. -/
theorem ofTokens_quoted_value_nested :
    let ctx : Context := ⟨.mixed, .utc, ⟨0, 0⟩⟩
    Filter.ofTokens ctx [.openGroup, .word "tag", .operator .ne, .quoted "x/y", .closeGroup] =
        .ok (.group .and [.group .and [.leaf ⟨"tag", .ne, .list [.text "x", .text "y"]⟩]]) ∧
      Filter.ofTokens ctx [.openGroup, .word "age", .operator .gt, .quoted "x", .closeGroup] =
        .error (.invalidValue "x" "age" (.notNumber .double)) ∧
      Filter.ofTokens ctx [.operator .eq, .quoted "x", .closeGroup] =
          .error (.fieldMissing .eq) := by
  intro ctx
  refine ⟨?_, ?_, ?_⟩
  · have h :=
      ofTokens_quoted_value ctx [.openGroup, .word "tag"] [.closeGroup] .ne "x/y" (by decide)
    exact h.symm.trans (by rfl)
  · have h := ofTokens_quoted_value ctx [.openGroup, .word "age"] [.closeGroup] .gt "x" (by decide)
    exact h.symm.trans (by rfl)
  · have h := ofTokens_quoted_value ctx [] [.closeGroup] .eq "x" (by decide)
    exact h.symm.trans (by rfl)

end Sift
