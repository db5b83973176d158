/-!
# Pairs sorted by key

A finite map from strings is kept as a list of pairs with strictly increasing keys. Strings are
ordered by code points, which is also the order of their UTF-8 bytes.

* `SortedKeys`: the invariant.
* `insertSorted`: sets the value of a key.
* `sortedKeys_insertSorted`: setting a value keeps the invariant.
-/

namespace Sift

variable {α : Type}

/-- Keys increase strictly, so no key occurs twice. -/
def SortedKeys (l : List (String × α)) : Prop := l.Pairwise fun a b => a.1 < b.1

/-- Sets the value of `key`, in its place among the sorted keys. -/
def insertSorted (key : String) (value : α) : List (String × α) → List (String × α)
  | [] => [(key, value)]
  | (k, v) :: rest =>
    if key < k then (key, value) :: (k, v) :: rest
    else if key = k then (key, value) :: rest
    else (k, v) :: insertSorted key value rest

/-- Sets the values of several keys, later pairs last. -/
def insertAll (pairs : List (String × α)) (l : List (String × α)) : List (String × α) :=
  pairs.foldl (fun l p => insertSorted p.1 p.2 l) l

theorem mem_insertSorted {key : String} {value : α} {l : List (String × α)} {p : String × α}
    (h : p ∈ insertSorted key value l) : p = (key, value) ∨ p ∈ l := by
  induction l with
  | nil => simp_all [insertSorted]
  | cons q rest ih =>
    obtain ⟨k, v⟩ := q
    simp only [insertSorted] at h
    split at h
    · exact List.mem_cons.1 h
    · split at h
      · exact (List.mem_cons.1 h).imp id (List.mem_cons_of_mem _)
      · rcases List.mem_cons.1 h with rfl | h
        · exact .inr List.mem_cons_self
        · exact (ih h).imp id (List.mem_cons_of_mem _)

/-- **Setting a value keeps the keys sorted.** -/
theorem sortedKeys_insertSorted {key : String} {value : α} {l : List (String × α)}
    (h : SortedKeys l) : SortedKeys (insertSorted key value l) := by
  induction l with
  | nil => simp [insertSorted, SortedKeys]
  | cons q rest ih =>
    obtain ⟨k, v⟩ := q
    have hrest := List.pairwise_cons.1 h
    simp only [insertSorted]
    split
    next hlt =>
      refine List.pairwise_cons.2 ⟨fun p hp => ?_, h⟩
      rcases List.mem_cons.1 hp with rfl | hp
      · exact hlt
      · exact String.lt_trans hlt (hrest.1 p hp)
    next hge =>
      split
      next heq =>
        subst heq
        exact List.pairwise_cons.2 ⟨fun p hp => hrest.1 p hp, hrest.2⟩
      next hne =>
        refine List.pairwise_cons.2 ⟨fun p hp => ?_, ih hrest.2⟩
        rcases mem_insertSorted hp with rfl | hp
        · show k < key
          rcases Decidable.em (k < key) with hlt | hnlt
          · exact hlt
          · exact absurd (String.le_antisymm (String.not_lt.1 hnlt) (String.not_lt.1 hge)) hne
        · exact hrest.1 p hp

end Sift
