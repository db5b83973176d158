import Sift.Json.Reader

/-!
# Objects that have been read are sorted

Whatever order the fields of an object are written in, they are listed in increasing order of their
keys once the object has been read, and each key once. So a walk through a document that has been
read meets the fields of every object in one order.

* `Json.Ordered`: values whose objects are sorted, at every depth.
* `Json.value?_ordered`, `Json.ordered_of_read?`: **values that have been read are ordered.**
-/

namespace Sift.Json

/-- **A value whose objects list their keys in increasing order**, at every depth. -/
inductive Ordered : Json → Prop where
  | null : Ordered .null
  | bool (b : Bool) : Ordered (.bool b)
  | int (n : Int) : Ordered (.int n)
  | float (x : Float) : Ordered (.float x)
  | str (s : String) : Ordered (.str s)
  | arr {items : List Json} (items_ordered : ∀ v ∈ items, Ordered v) : Ordered (.arr items)
  | obj {fields : List (String × Json)} (sorted : SortedKeys fields)
      (values_ordered : ∀ f ∈ fields, Ordered f.2) :
      Ordered (.obj fields)

variable {cs rest : List Char} {v : Json}

theorem exists_mem_of_get? {key : String} {w : Json} (h : v.get? key = some w) :
    ∃ fields, v = .obj fields ∧ (key, w) ∈ fields := by
  cases v with
  | obj fields =>
    obtain ⟨before, after, heq, -⟩ :=
      List.lookup_eq_some_iff.1 (show fields.lookup key = some w from h)
    exact ⟨fields, rfl, heq ▸ List.mem_append_right before List.mem_cons_self⟩
  | null | bool | int | float | str | arr => cases h

theorem Ordered.fields {fields : List (String × Json)} (h : (Json.obj fields).Ordered) :
    SortedKeys fields ∧ ∀ f ∈ fields, f.2.Ordered := by
  cases h with
  | obj sorted values_ordered => exact ⟨sorted, values_ordered⟩

theorem ordered_of_get? {key : String} {w : Json} (hv : v.Ordered) (h : v.get? key = some w) :
    w.Ordered := by
  obtain ⟨fields, rfl, hmem⟩ := exists_mem_of_get? h
  exact hv.fields.2 _ hmem

theorem wholeNumber?_ordered {negative : Bool} {n : Nat} (h : wholeNumber? negative n = some v) :
    v.Ordered := by
  unfold wholeNumber? at h
  split at h
  · obtain ⟨-, h⟩ := Option.ite_none_right_eq_some.1 h
    obtain rfl := Option.some.inj h
    exact .int _
  · obtain ⟨-, h⟩ := Option.ite_none_right_eq_some.1 h
    obtain rfl := Option.some.inj h
    exact .int _

theorem unsignedNumber?_ordered {negative : Bool}
    (h : unsignedNumber? negative cs = some (v, rest)) : v.Ordered := by
  obtain ⟨⟨whole, cs₁⟩, -, h⟩ := Option.bind_eq_some_iff.1 h
  obtain ⟨⟨fraction, cs₂⟩, -, h⟩ := Option.bind_eq_some_iff.1 h
  obtain ⟨⟨⟨hasExponent, negativeExponent, exponent⟩, cs₃⟩, -, h⟩ := Option.bind_eq_some_iff.1 h
  simp only at h
  split at h
  · next w hexact =>
    obtain ⟨rfl, -⟩ := Prod.mk.inj (Option.some.inj h)
    obtain ⟨-, hwhole⟩ := Option.ite_none_right_eq_some.1 hexact
    exact wholeNumber?_ordered hwhole
  · obtain ⟨x, -, h⟩ := Option.bind_eq_some_iff.1 h
    obtain ⟨rfl, -⟩ := Prod.mk.inj (Option.some.inj h)
    exact .float _

theorem number?_ordered (h : number? cs = some (v, rest)) : v.Ordered := by
  unfold number? at h
  split at h
  · exact unsignedNumber?_ordered h
  · exact unsignedNumber?_ordered h

section Items

variable {item : Text.Reader Json} (hitem : ∀ cs v rest, item cs = some (v, rest) → v.Ordered)

include hitem

theorem arrayItems?_ordered {rounds : Nat} {acc : List Json} (hacc : ∀ x ∈ acc, x.Ordered)
    (h : arrayItems? item rounds acc cs = some (v, rest)) : v.Ordered := by
  induction rounds generalizing acc cs with
  | zero => cases h
  | succ rounds ih =>
    rw [arrayItems?] at h
    obtain ⟨⟨w, cs₁⟩, hw, h⟩ := Option.bind_eq_some_iff.1 h
    have hnext : ∀ x ∈ w :: acc, x.Ordered := List.forall_mem_cons.2 ⟨hitem _ _ _ hw, hacc⟩
    simp only at h
    split at h
    · exact ih hnext h
    · obtain ⟨rfl, -⟩ := Prod.mk.inj (Option.some.inj h)
      exact .arr fun x hx => hnext x (List.mem_reverse.1 hx)
    · cases h

/-- A field that is read is set in its place. -/
theorem objectFields?_ordered {length rounds : Nat} {acc : List (String × Json)}
    (hsorted : SortedKeys acc)
    (hacc : ∀ f ∈ acc, f.2.Ordered) (h : objectFields? length item rounds acc cs = some (v, rest)) :
    v.Ordered := by
  induction rounds generalizing acc cs with
  | zero => cases h
  | succ rounds ih =>
    rw [objectFields?] at h
    split at h
    · obtain ⟨⟨key, cs₁⟩, -, h⟩ := Option.bind_eq_some_iff.1 h
      simp only at h
      split at h
      · obtain ⟨⟨w, cs₂⟩, hw, h⟩ := Option.bind_eq_some_iff.1 h
        have hsorted' : SortedKeys (insertSorted key w acc) := sortedKeys_insertSorted hsorted
        have hacc' : ∀ f ∈ insertSorted key w acc, f.2.Ordered := by
          intro f hf
          rcases mem_insertSorted hf with rfl | hf
          · exact hitem _ _ _ hw
          · exact hacc f hf
        simp only at h
        split at h
        · exact ih hsorted' hacc' h
        · obtain ⟨rfl, -⟩ := Prod.mk.inj (Option.some.inj h)
          exact .obj hsorted' hacc'
        · cases h
      · cases h
    · cases h

end Items

/-- A value is ordered once the values in it are, which nest less deep. -/
theorem value?_step {length depth : Nat}
    (hitem : ∀ d, depth = d + 1 → ∀ cs v rest, value? length d cs = some (v, rest) → v.Ordered)
    (h : value? length depth cs = some (v, rest)) : v.Ordered := by
  unfold value? at h
  split at h
  · obtain ⟨rfl, -⟩ := Prod.mk.inj (Option.some.inj h)
    exact .null
  · obtain ⟨rfl, -⟩ := Prod.mk.inj (Option.some.inj h)
    exact .bool _
  · obtain ⟨rfl, -⟩ := Prod.mk.inj (Option.some.inj h)
    exact .bool _
  · obtain ⟨⟨s, cs₁⟩, -, h⟩ := Option.map_eq_some_iff.1 h
    obtain ⟨rfl, -⟩ := Prod.mk.inj h
    exact .str s
  · split at h
    · cases h
    · next depth =>
      split at h
      · obtain ⟨rfl, -⟩ := Prod.mk.inj (Option.some.inj h)
        exact .arr (by simp)
      · exact arrayItems?_ordered (hitem depth rfl) (by simp) h
  · split at h
    · cases h
    · next depth =>
      split at h
      · obtain ⟨rfl, -⟩ := Prod.mk.inj (Option.some.inj h)
        exact .obj List.Pairwise.nil (by simp)
      · exact objectFields?_ordered (hitem depth rfl) List.Pairwise.nil (by simp) h
  · exact number?_ordered h

/-- **Values that are read are ordered**, however deep they nest. -/
theorem value?_ordered {length depth : Nat} (h : value? length depth cs = some (v, rest)) :
    v.Ordered := by
  induction depth generalizing cs v rest with
  | zero => exact value?_step (fun d hd => absurd hd.symm (Nat.succ_ne_zero d)) h
  | succ depth ih =>
    refine value?_step (fun d hd cs v rest hv => ?_) h
    obtain rfl := Nat.succ.inj hd
    exact ih hv

/-- A document that has been read is ordered. -/
theorem ordered_of_read? {s : String} (h : read? s = some v) : v.Ordered := by
  obtain ⟨⟨w, rest⟩, hvalue, h⟩ := Option.bind_eq_some_iff.1 h
  obtain ⟨-, h⟩ := Option.ite_none_right_eq_some.1 h
  obtain rfl := Option.some.inj h
  exact value?_ordered hvalue

end Sift.Json
