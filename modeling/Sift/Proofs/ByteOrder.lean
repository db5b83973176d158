import Mathlib.Data.List.Lex

/-!
# Texts in the order of their bytes

Texts are compared by code points. UTF-8 is made so that their bytes compare in the same way: a
character with more bytes has a greater first byte, and of two characters with equally many bytes
the greater one has the greater byte at the first place where they differ.

* `Text.BytesBefore`: the order of bytes.
* `Text.encode_lex`: the bytes of two characters, whatever follows them.
* `Text.lt_iff_bytesBefore`: **the order of code points is the order of bytes.**
-/

namespace Sift.Text

/-- The bytes of a text in UTF-8. -/
def bytes (s : String) : List UInt8 := s.toUTF8.data.toList

/-- The order of bytes as numbers. -/
def ByteLt (a b : UInt8) : Prop := a.toNat < b.toNat

/-- **The order of texts by their bytes.** -/
def BytesBefore (s t : String) : Prop := List.Lex ByteLt (bytes s) (bytes t)

theorem bytes_eq (s : String) : bytes s = s.toList.flatMap String.utf8EncodeChar := by
  have hencode : s.toUTF8 = (s.toList.flatMap String.utf8EncodeChar).toByteArray :=
    String.utf8Encode_toList.symm
  rw [bytes, hencode, List.data_toByteArray]

/-! ### One character -/

variable {x y : List UInt8} {m n : Nat} {c d : Char}

theorem lex_of_lt (hn : n < 256) (h : m < n) :
    List.Lex ByteLt (UInt8.ofNat m :: x) (UInt8.ofNat n :: y) := by
  refine .rel ?_
  unfold ByteLt
  rw [UInt8.toNat_ofNat', UInt8.toNat_ofNat']
  omega

/-- Bytes that are equal leave the decision to those behind them. -/
theorem lex_of_le (hn : n < 256) (hle : m ≤ n) (h : m = n → List.Lex ByteLt x y) :
    List.Lex ByteLt (UInt8.ofNat m :: x) (UInt8.ofNat n :: y) := by
  rcases Nat.eq_or_lt_of_le hle with rfl | hlt
  · exact .cons (h rfl)
  · exact lex_of_lt hn hlt

theorem codePoint_lt (c : Char) : c.val.toNat < 1114112 := by
  rcases c.valid with h | h
  · have hsmall : c.val.toNat < 55296 := h
    omega
  · exact h.2

/-- **A greater character has greater bytes**, whatever follows the two. -/
theorem encode_lex (h : c < d) :
    List.Lex ByteLt (String.utf8EncodeChar c ++ x) (String.utf8EncodeChar d ++ y) := by
  have hlt : c.val.toNat < d.val.toNat := h
  have hd := codePoint_lt d
  delta String.utf8EncodeChar
  generalize c.val.toNat = v, d.val.toNat = w at *
  dsimp only
  split_ifs <;> simp only [List.cons_append, List.nil_append]
  all_goals try omega
  -- the first byte decides between different lengths, and in ASCII
  all_goals try exact lex_of_lt (by omega) (by omega)
  -- equal lengths: the code points are compared from the highest bits down, six at a time
  · refine lex_of_le (by omega) (by omega) fun h₁ => ?_
    exact lex_of_lt (by omega) (by omega)
  · refine lex_of_le (by omega) (by omega) fun h₁ => ?_
    refine lex_of_le (by omega) (by omega) fun h₂ => ?_
    exact lex_of_lt (by omega) (by omega)
  · refine lex_of_le (by omega) (by omega) fun h₁ => ?_
    refine lex_of_le (by omega) (by omega) fun h₂ => ?_
    refine lex_of_le (by omega) (by omega) fun h₃ => ?_
    exact lex_of_lt (by omega) (by omega)

/-! ### Texts -/

theorem flatMap_encode_lex {cs ds : List Char} (h : List.Lex (· < ·) cs ds) :
    List.Lex ByteLt (cs.flatMap String.utf8EncodeChar) (ds.flatMap String.utf8EncodeChar) := by
  induction h with
  | @nil d ds =>
    have hne : String.utf8EncodeChar d ≠ [] := String.utf8EncodeChar_ne_nil
    obtain ⟨b, bs, hd⟩ := List.exists_cons_of_ne_nil hne
    rw [List.flatMap_cons, hd]
    exact .nil
  | rel hlt =>
    rw [List.flatMap_cons, List.flatMap_cons]
    exact encode_lex hlt
  | cons _ ih =>
    rw [List.flatMap_cons, List.flatMap_cons]
    exact List.Lex.append_left ByteLt ih _

theorem bytesBefore_of_lt {s t : String} (h : s < t) : BytesBefore s t := by
  unfold BytesBefore
  rw [bytes_eq, bytes_eq]
  exact flatMap_encode_lex h

/-- **The order of code points is the order of bytes.** -/
theorem lt_iff_bytesBefore {s t : String} : s < t ↔ BytesBefore s t := by
  refine ⟨bytesBefore_of_lt, fun h => ?_⟩
  have hasymm : ¬BytesBefore t s := List.lex_asymm (fun hab => Nat.lt_asymm hab) h
  have hle : s ≤ t := String.not_lt.1 fun hts => hasymm (bytesBefore_of_lt hts)
  by_contra hnot
  obtain rfl := String.le_antisymm hle (String.not_lt.1 hnot)
  exact hasymm h

end Sift.Text
