import Sift.Text.Number

/-!
# Numbers in writing

Decimal digits stand for a number, and a number is written in decimal digits. Written numbers are
read back, with a sign or with zeros in front.

* `Text.IsNumeral`: texts of digits.
* `Text.readInt64?_numeral`: digits are read if their number fits 64 bits.
* `Text.DenotesInt64`, `Text.readInt64?_eq_some_iff`: the texts that numbers are read from.
* `Text.readInt64?_toString`: a written number is read back.
* `Text.digitsValue_padded`, `Text.length_padded`: a number with leading zeros keeps its value and
  has the width.
* `Text.padded_digitsValue`: digits are the text of their value.
-/

namespace Sift.Text

/-! ### Digits -/

/-- **A text of digits**, at least one. -/
def IsNumeral (cs : List Char) : Prop := cs ≠ [] ∧ cs.all Char.isDigit = true

instance (cs : List Char) : Decidable (IsNumeral cs) := inferInstanceAs (Decidable (_ ∧ _))

theorem IsNumeral.isDigit {cs : List Char} (h : IsNumeral cs) : ∀ c ∈ cs, c.isDigit = true :=
  List.all_eq_true.1 h.2

theorem readNat?_numeral {cs : List Char} (h : IsNumeral cs) :
    readNat? cs = some (digitsValue cs) := if_pos h

/-- The first digit is no sign, so digits are read as they are. -/
theorem readInt?_numeral {cs : List Char} (h : IsNumeral cs) :
    readInt? cs = some (digitsValue cs : Int) := by
  rw [readInt?, readNat?_numeral h]
  · rfl
  · rintro rest rfl
    exact absurd (h.isDigit '-' List.mem_cons_self) (by decide)
  · rintro rest rfl
    exact absurd (h.isDigit '+' List.mem_cons_self) (by decide)

/-- **Digits are read if their number fits 64 bits**, whatever their length. -/
theorem readInt64?_numeral {cs : List Char} (h : IsNumeral cs) :
    readInt64? (String.ofList cs) =
      if digitsValue cs < 0x8000000000000000 then some (digitsValue cs : Int) else none := by
  have hfits : IsInt64 (digitsValue cs) ↔ digitsValue cs < 0x8000000000000000 := by
    rw [IsInt64]
    omega
  rw [readInt64?, String.toList_ofList, readInt?_numeral h]
  by_cases hlt : digitsValue cs < 0x8000000000000000
  · simp [hfits, hlt]
  · simp [hfits, hlt]

/-- **A text that denotes a number of 64 bits**: digits, perhaps with a sign. -/
def DenotesInt64 (s : String) (n : Int) : Prop :=
  IsInt64 n ∧ ∃ digits, IsNumeral digits ∧
    ((s.toList = digits ∨ s.toList = '+' :: digits) ∧ n = digitsValue digits ∨
      s.toList = '-' :: digits ∧ n = -digitsValue digits)

theorem readNat?_eq_some_iff {cs : List Char} {n : Nat} :
    readNat? cs = some n ↔ IsNumeral cs ∧ digitsValue cs = n := by
  rw [readNat?, Option.ite_none_right_eq_some, Option.some.injEq]
  rfl

theorem readInt?_eq_some_iff {cs : List Char} {n : Int} : readInt? cs = some n ↔
    ∃ digits, IsNumeral digits ∧ ((cs = digits ∨ cs = '+' :: digits) ∧ n = digitsValue digits ∨
      cs = '-' :: digits ∧ n = -digitsValue digits) := by
  constructor
  · intro h
    unfold readInt? at h
    split at h
    · next digits =>
      obtain ⟨m, hm, rfl⟩ := Option.map_eq_some_iff.1 h
      obtain ⟨k, hk, hm⟩ := Option.bind_eq_some_iff.1 hm
      obtain rfl := Option.some.inj hm
      obtain ⟨hdigits, rfl⟩ := readNat?_eq_some_iff.1 hk
      exact ⟨digits, hdigits, .inr ⟨rfl, rfl⟩⟩
    · next digits =>
      obtain ⟨m, hm, rfl⟩ := Option.map_eq_some_iff.1 h
      obtain ⟨hdigits, rfl⟩ := readNat?_eq_some_iff.1 hm
      exact ⟨digits, hdigits, .inl ⟨.inr rfl, rfl⟩⟩
    · obtain ⟨m, hm, rfl⟩ := Option.map_eq_some_iff.1 h
      obtain ⟨hdigits, rfl⟩ := readNat?_eq_some_iff.1 hm
      exact ⟨cs, hdigits, .inl ⟨.inl rfl, rfl⟩⟩
  · rintro ⟨digits, hdigits, ⟨rfl | rfl, rfl⟩ | ⟨rfl, rfl⟩⟩
    · exact readInt?_numeral hdigits
    · rw [readInt?, readNat?_numeral hdigits]
      rfl
    · rw [readInt?, readNat?_numeral hdigits]
      rfl

/-- **Numbers of 64 bits are read from the texts that denote them.** -/
theorem readInt64?_eq_some_iff {s : String} {n : Int} :
    readInt64? s = some n ↔ DenotesInt64 s n := by
  rw [readInt64?, Option.filter_eq_some_iff, readInt?_eq_some_iff, decide_eq_true_iff, DenotesInt64,
    and_comm]

/-! ### Written numbers -/

theorem toDigits_isNumeral (n : Nat) : IsNumeral (Nat.toDigits 10 n) :=
  ⟨Nat.toDigits_ne_nil, List.all_eq_true.2 fun _ hc =>
    Nat.isDigit_of_mem_toDigits (by decide) (by decide) hc⟩

theorem digitsValue_toDigits (n : Nat) : digitsValue (Nat.toDigits 10 n) = n :=
  Nat.ofDigitChars_ten_toDigits

theorem toList_toString_int (n : Int) :
    (toString n).toList = (if 0 ≤ n then [] else ['-']) ++ Nat.toDigits 10 n.natAbs := by
  rw [Int.toString_eq_repr, Int.repr_eq_if]
  by_cases h : 0 ≤ n
  · have habs : n.toNat = n.natAbs := by omega
    simp [h, habs]
  · have habs : (-n).toNat = n.natAbs := by omega
    simp [h, habs]

theorem readInt?_toString (n : Int) : readInt? (toString n).toList = some n := by
  rw [toList_toString_int]
  by_cases h : 0 ≤ n
  · have hvalue : (n.natAbs : Int) = n := by omega
    rw [if_pos h, List.nil_append, readInt?_numeral (toDigits_isNumeral _), digitsValue_toDigits,
      hvalue]
  · have hvalue : -(n.natAbs : Int) = n := by omega
    rw [if_neg h, List.singleton_append, readInt?, readNat?_numeral (toDigits_isNumeral _),
      digitsValue_toDigits]
    exact congrArg some hvalue

/-- **A written number is read back**, over the whole range of 64 bits. -/
theorem readInt64?_toString {n : Int} (h : IsInt64 n) : readInt64? (toString n) = some n := by
  rw [readInt64?, readInt?_toString]
  simp [h]

theorem quote_not_mem_toString (n : Int) : '"' ∉ (toString n).toList := by
  rw [toList_toString_int]
  intro hmem
  rcases List.mem_append.1 hmem with hmem | hmem
  · by_cases h : 0 ≤ n <;> simp [h] at hmem
  · exact absurd ((toDigits_isNumeral _).isDigit _ hmem) (by decide)

/-! ### Leading zeros -/

theorem padded_isDigit (width n : Nat) : ∀ c ∈ padded width n, c.isDigit = true := by
  intro c hc
  rcases List.mem_append.1 hc with hc | hc
  · rw [(List.mem_replicate.1 hc).2]
    rfl
  · exact (toDigits_isNumeral n).isDigit c hc

theorem digitsValue_zeros (count : Nat) (cs : List Char) :
    digitsValue (List.replicate count '0' ++ cs) = digitsValue cs := by
  have hzeros : (List.replicate count '0').foldl (fun n c => 10 * n + digitValue c) 0 = 0 := by
    induction count with
    | zero => rfl
    | succ count ih =>
      rw [List.replicate_succ, List.foldl_cons]
      exact ih
  rw [digitsValue, List.foldl_append, hzeros]
  rfl

/-- Leading zeros do not count. -/
theorem digitsValue_padded (width n : Nat) : digitsValue (padded width n) = n := by
  rw [padded, digitsValue_zeros, digitsValue_toDigits]

/-- A number that fits the width has the width. -/
theorem length_padded {width n : Nat} (hwidth : 0 < width) (h : n < Nat.pow 10 width) :
    (padded width n).length = width := by
  have hlength := (Nat.length_toDigits_le_iff (by decide) hwidth).2 h
  rw [padded, List.length_append, List.length_replicate]
  omega

/-! ### Digits of one width -/

theorem toNat_of_isDigit {c : Char} (h : c.isDigit = true) : 48 ≤ c.toNat ∧ c.toNat ≤ 57 :=
  Char.isDigit_iff_toNat.1 h

theorem digitValue_eq (c : Char) : digitValue c = c.toNat - 48 := rfl

/-- Digits are known by their number and their value, whatever has been read before them. -/
theorem digits_unique {cs ds : List Char} (hlength : cs.length = ds.length)
    (hcs : ∀ c ∈ cs, c.isDigit = true) (hds : ∀ d ∈ ds, d.isDigit = true) {a b : Nat}
    (h : cs.foldl (fun n c => 10 * n + digitValue c) a =
      ds.foldl (fun n c => 10 * n + digitValue c) b) :
    a = b ∧ cs = ds := by
  -- on the digits, for all values `a` and `b` in front: equal values behind the first digit make
  -- both sides of it equal
  induction cs generalizing ds a b with
  | nil =>
    obtain rfl := List.length_eq_zero_iff.1 hlength.symm
    exact ⟨h, rfl⟩
  | cons c cs ih =>
    obtain ⟨d, ds, rfl⟩ := List.exists_cons_of_length_eq_add_one hlength.symm
    obtain ⟨hc, hcs⟩ := List.forall_mem_cons.1 hcs
    obtain ⟨hd, hds⟩ := List.forall_mem_cons.1 hds
    obtain ⟨hab, rfl⟩ := ih (Nat.succ.inj hlength) hcs hds h
    have hc := toNat_of_isDigit hc
    have hd := toNat_of_isDigit hd
    simp only [digitValue_eq] at hab
    exact ⟨by omega, congrArg (· :: cs) (Char.toNat_inj.1 (by omega))⟩

theorem digits_lt {cs : List Char} (hcs : ∀ c ∈ cs, c.isDigit = true) (a : Nat) :
    cs.foldl (fun n c => 10 * n + digitValue c) a < (a + 1) * Nat.pow 10 cs.length := by
  induction cs generalizing a with
  | nil => exact Nat.lt_of_lt_of_eq (Nat.lt_succ_self a) (Nat.mul_one _).symm
  | cons c cs ih =>
    obtain ⟨hc, hcs⟩ := List.forall_mem_cons.1 hcs
    have hc := toNat_of_isDigit hc
    have hvalue : 10 * a + digitValue c + 1 ≤ (a + 1) * 10 := by
      rw [digitValue_eq]
      omega
    calc (c :: cs).foldl (fun n c => 10 * n + digitValue c) a
        < (10 * a + digitValue c + 1) * Nat.pow 10 cs.length := ih hcs _
      _ ≤ (a + 1) * 10 * Nat.pow 10 cs.length := Nat.mul_le_mul_right _ hvalue
      _ = (a + 1) * Nat.pow 10 (cs.length + 1) := by
        rw [Nat.mul_assoc, Nat.mul_comm 10]
        rfl

theorem digitsValue_lt {cs : List Char} (hcs : ∀ c ∈ cs, c.isDigit = true) :
    digitsValue cs < Nat.pow 10 cs.length :=
  Nat.lt_of_lt_of_eq (digits_lt hcs 0) (Nat.one_mul _)

/-- **Digits are the text of their value**, padded to their number. -/
theorem padded_digitsValue {cs : List Char} (h : IsNumeral cs) :
    padded cs.length (digitsValue cs) = cs := by
  have hlength := length_padded (List.length_pos_iff.2 h.1) (digitsValue_lt h.isDigit)
  exact (digits_unique hlength (padded_isDigit _ _) h.isDigit (digitsValue_padded _ _)).2

end Sift.Text
