import Sift.Field.Catalog

/-!
# Fields of a catalog

A field that is added has its new entry and the others keep theirs, so of several fields added under
one path the last one counts.

* `lookup_insertSorted`, `Catalog.get?_insert`: what is found after a field has been added.
* `Catalog.get?_insertAll_of_not_mem`, `Catalog.get?_insertAll_last`: what is found after several
  fields have been added.
-/

namespace Sift

theorem lookup_cons_eq_ite {α : Type} (key : String) (value : α) (l : List (String × α))
    (k : String) :
    ((key, value) :: l).lookup k = if k = key then some value else l.lookup k := by
  by_cases hk : k = key
  · simp [hk]
  · have hne : (k == key) = false := by simpa using hk
    rw [List.lookup_cons, hne, if_neg hk]

/-- A key that has been set has its new value, and the others keep theirs. -/
theorem lookup_insertSorted {α : Type} (key : String) (value : α) (l : List (String × α))
    (k : String) :
    (insertSorted key value l).lookup k = if k = key then some value else l.lookup k := by
  induction l with
  | nil => exact lookup_cons_eq_ite key value [] k
  | cons p rest ih =>
    obtain ⟨k', v⟩ := p
    rw [insertSorted]
    split
    · exact lookup_cons_eq_ite key value _ k
    · split
      next heq =>
        subst heq
        by_cases hk : k = key <;> simp only [lookup_cons_eq_ite, hk, if_true, if_false]
      next hne =>
        rw [lookup_cons_eq_ite, ih, lookup_cons_eq_ite]
        by_cases hk : k = key
        · rw [hk, if_neg hne, if_pos rfl, if_pos rfl]
        · simp only [if_neg hk]

/-- If something in a list has a property, there is a last one that has it. -/
theorem exists_last {α : Type} {p : α → Prop} {l : List α} (h : ∃ x ∈ l, p x) :
    ∃ before x after, l = before ++ x :: after ∧ p x ∧ ∀ y ∈ after, ¬p y := by
  induction l with
  | nil => simp at h
  | cons a l ih =>
    by_cases hl : ∃ x ∈ l, p x
    · obtain ⟨before, x, after, rfl, hx, hafter⟩ := ih hl
      exact ⟨a :: before, x, after, rfl, hx, hafter⟩
    · obtain ⟨x, hx, hpx⟩ := h
      rcases List.mem_cons.1 hx with rfl | hx
      · exact ⟨[], x, l, rfl, hpx, fun y hy hpy => hl ⟨y, hy, hpy⟩⟩
      · exact absurd ⟨x, hx, hpx⟩ hl

namespace Catalog

variable {c : Catalog} {path : String} {added : List (String × FieldEntry)}

theorem get?_insert (c : Catalog) (added : String) (entry : FieldEntry) (path : String) :
    (c.insert added entry).get? path = if path = added then some entry else c.get? path :=
  lookup_insertSorted added entry c.fields path

/-- Several fields added, one after the other. -/
def insertAll (c : Catalog) (added : List (String × FieldEntry)) : Catalog :=
  added.foldl (fun c f => c.insert f.1 f.2) c

theorem get?_insertAll_of_not_mem (h : ∀ f ∈ added, f.1 ≠ path) :
    (c.insertAll added).get? path = c.get? path := by
  induction added generalizing c with
  | nil => rfl
  | cons f added ih =>
    have hf : path ≠ f.1 := Ne.symm (h f List.mem_cons_self)
    rw [insertAll, List.foldl_cons, ← insertAll, ih fun f hf => h f (List.mem_cons_of_mem _ hf),
      get?_insert, if_neg hf]

/-- **The last field added under a path counts.** -/
theorem get?_insertAll_last {before after : List (String × FieldEntry)} {entry : FieldEntry}
    (h : ∀ f ∈ after, f.1 ≠ path) :
    (c.insertAll (before ++ (path, entry) :: after)).get? path = some entry := by
  have hsplit : c.insertAll (before ++ (path, entry) :: after) =
      ((c.insertAll before).insert path entry).insertAll after := by
    rw [insertAll, List.foldl_append]
    rfl
  rw [hsplit, get?_insertAll_of_not_mem h, get?_insert, if_pos rfl]

theorem lookup_of_get? {entry : FieldEntry} (h : c.get? path = some entry) :
    c.lookup.contains path = true ∧ c.lookup.declared path = entry.declared ∧
      c.lookup.indexed path = entry.indexed := by
  simp [lookup, h]

theorem not_contains_of_get? (h : c.get? path = none) : c.lookup.contains path = false := by
  simp [lookup, h]

end Catalog

end Sift
