import Mathlib.Data.List.Dedup
import Sift.Proofs.ByteOrder
import Sift.Proofs.Catalog

/-!
# Catalogs by their additions

A catalog is made by adding fields one after the other, typed, not indexed or untyped, in any order
and any path several times. What it lists and what it answers depends on the last addition under
each path and on nothing else.

* `Catalog.mem_fields`, `Catalog.eq_of_get?`: a catalog is what it finds.
* `Catalog.get?_insertAll_iff`, `Catalog.size_insertAll`: several entries set.
* `Catalog.Addition`, `Catalog.ofAdditions`: fields added one after the other.
* `additions_listed`: **the listing has the last addition under each path, in the order of bytes.**
-/

namespace Sift

namespace SortedKeys

variable {α : Type} {l : List (String × α)} {key : String} {value : α}

theorem nodup_keys (h : SortedKeys l) : (l.map Prod.fst).Nodup := by
  refine List.pairwise_map.2 (h.imp fun hlt heq => ?_)
  rw [heq] at hlt
  exact String.lt_irrefl _ hlt

/-- A key stands in a sorted list once, so what is found under it is what stands with it. -/
theorem mem_iff_lookup (h : SortedKeys l) : (key, value) ∈ l ↔ l.lookup key = some value := by
  constructor
  · intro hmem
    induction l with
    | nil => cases hmem
    | cons p rest ih =>
      obtain ⟨k, v⟩ := p
      obtain ⟨hlt, hsorted⟩ := List.pairwise_cons.1 h
      rw [lookup_cons_eq_ite]
      rcases List.mem_cons.1 hmem with heq | hrest
      · obtain ⟨rfl, rfl⟩ := Prod.mk.inj heq
        exact if_pos rfl
      · have hlt : k < key := hlt _ hrest
        have hk : key ≠ k := by
          rintro rfl
          exact String.lt_irrefl _ hlt
        rw [if_neg hk]
        exact ih hsorted hrest
  · intro hlookup
    obtain ⟨before, after, rfl, -⟩ := List.lookup_eq_some_iff.1 hlookup
    exact List.mem_append_right before List.mem_cons_self

end SortedKeys

namespace Catalog

/-- A field that is added to a catalog. -/
inductive Addition where
  /-- With a declared type. -/
  | typed (path declared : String)
  /-- With a declared type, but not indexed. -/
  | unindexed (path declared : String)
  /-- Without a declared type. -/
  | untyped (path : String)
deriving Repr, DecidableEq

namespace Addition

/-- The path of the field. -/
def path : Addition → String
  | .typed path _ => path
  | .unindexed path _ => path
  | .untyped path => path

/-- What is known of the field. -/
def entry : Addition → FieldEntry
  | .typed _ declared => ⟨some declared, true⟩
  | .unindexed _ declared => ⟨some declared, false⟩
  | .untyped _ => ⟨none, true⟩

/-- The catalog with the field added. -/
def apply (c : Catalog) : Addition → Catalog
  | .typed path declared => c.addField path declared
  | .unindexed path declared => c.addUnindexed path declared
  | .untyped path => c.addUntyped path

theorem apply_eq_insert (c : Catalog) (a : Addition) : a.apply c = c.insert a.path a.entry := by
  cases a <;> rfl

/-- **The last addition under a path.** -/
def IsLast (as : List Addition) (path : String) (a : Addition) : Prop :=
  ∃ before after, as = before ++ a :: after ∧ a.path = path ∧ ∀ b ∈ after, b.path ≠ path

end Addition

/-- The catalog with fields added one after the other. -/
def ofAdditions (as : List Addition) : Catalog := as.foldl (fun c a => a.apply c) empty

variable {c c' : Catalog} {path : String} {e : FieldEntry} {es : List (String × FieldEntry)}
  {as bs : List Addition}

/-! ### What a catalog lists -/

theorem mem_fields : (path, e) ∈ c.fields ↔ c.get? path = some e := c.sorted.mem_iff_lookup

/-- **Catalogs that find the same entries are equal**: sorted listings with the same members do not
differ. -/
theorem eq_of_get? (h : ∀ path, c.get? path = c'.get? path) : c = c' := by
  have hperm : c.fields.Perm c'.fields := by
    rw [List.perm_ext_iff_of_nodup c.sorted.nodup_keys.of_map c'.sorted.nodup_keys.of_map]
    rintro ⟨path, e⟩
    rw [mem_fields, mem_fields, h]
  have hasymm : ∀ a b : String × FieldEntry, a ∈ c.fields → b ∈ c'.fields → a.1 < b.1 → b.1 < a.1 →
      a = b := by
    intro a b _ _ hab hba
    exact absurd hba (String.lt_asymm hab)
  have hfields : c.fields = c'.fields := hperm.eq_of_pairwise hasymm c.sorted c'.sorted
  cases c
  cases c'
  cases hfields
  rfl

/-- **The last of several entries under a path.** -/
def LastEntry (es : List (String × FieldEntry)) (path : String) (e : FieldEntry) : Prop :=
  ∃ before after, es = before ++ (path, e) :: after ∧ ∀ f ∈ after, f.1 ≠ path

theorem get?_insertAll_iff : (empty.insertAll es).get? path = some e ↔ LastEntry es path e := by
  constructor
  · intro h
    by_cases hpath : ∃ f ∈ es, f.1 = path
    · obtain ⟨before, ⟨_, e'⟩, after, rfl, rfl, hafter⟩ := exists_last hpath
      rw [get?_insertAll_last hafter] at h
      obtain rfl := Option.some.inj h
      exact ⟨before, after, rfl, hafter⟩
    · have hnone : (empty.insertAll es).get? path = none :=
        get?_insertAll_of_not_mem fun f hf heq => hpath ⟨f, hf, heq⟩
      rw [hnone] at h
      cases h
  · rintro ⟨before, after, rfl, hafter⟩
    exact get?_insertAll_last hafter

/-- A catalog has as many fields as there are different paths among the entries set. -/
theorem size_insertAll (es : List (String × FieldEntry)) :
    (empty.insertAll es).size = (es.map Prod.fst).dedup.length := by
  have hperm : ((empty.insertAll es).fields.map Prod.fst).Perm (es.map Prod.fst).dedup := by
    rw [List.perm_ext_iff_of_nodup (empty.insertAll es).sorted.nodup_keys (List.nodup_dedup _)]
    intro path
    rw [List.mem_dedup, List.mem_map, List.mem_map]
    constructor
    · rintro ⟨⟨_, e⟩, hmem, rfl⟩
      obtain ⟨before, after, rfl, -⟩ := get?_insertAll_iff.1 (mem_fields.1 hmem)
      exact ⟨_, List.mem_append_right before List.mem_cons_self, rfl⟩
    · intro hpath
      obtain ⟨before, ⟨_, e⟩, after, rfl, rfl, hafter⟩ := exists_last hpath
      exact ⟨_, mem_fields.2 (get?_insertAll_iff.2 ⟨before, after, rfl, hafter⟩), rfl⟩
  rw [size, ← hperm.length_eq, List.length_map]

/-! ### What additions make -/

theorem ofAdditions_eq (as : List Addition) :
    ofAdditions as = empty.insertAll (as.map fun a => (a.path, a.entry)) := by
  unfold ofAdditions insertAll
  rw [List.foldl_map]
  simp only [Addition.apply_eq_insert]

theorem lastEntry_map_iff :
    LastEntry (as.map fun a => (a.path, a.entry)) path e ↔
      ∃ a, Addition.IsLast as path a ∧ a.entry = e := by
  constructor
  · rintro ⟨before, after, heq, hafter⟩
    obtain ⟨xs, ys, rfl, -, hys⟩ := List.map_eq_append_iff.1 heq
    obtain ⟨a, zs, rfl, ha, rfl⟩ := List.map_eq_cons_iff.1 hys
    obtain ⟨rfl, rfl⟩ := Prod.mk.inj ha
    refine ⟨a, ⟨xs, zs, rfl, rfl, fun b hb => ?_⟩, rfl⟩
    exact hafter _ (List.mem_map_of_mem hb)
  · rintro ⟨a, ⟨before, after, rfl, rfl, hafter⟩, rfl⟩
    refine ⟨_, _, List.map_append, fun f hf => ?_⟩
    obtain ⟨b, hb, rfl⟩ := List.mem_map.1 hf
    exact hafter b hb

theorem get?_ofAdditions_iff :
    (ofAdditions as).get? path = some e ↔ ∃ a, Addition.IsLast as path a ∧ a.entry = e := by
  rw [ofAdditions_eq, get?_insertAll_iff, lastEntry_map_iff]

/-- An addition does not count once a later one has its path. -/
theorem Addition.isLast_cons_of_mem {a b x : Addition} (hb : b ∈ as) (hpath : b.path = a.path) :
    IsLast (a :: as) path x ↔ IsLast as path x := by
  constructor
  · rintro ⟨before, after, heq, rfl, hafter⟩
    cases before with
    | nil =>
      obtain ⟨rfl, rfl⟩ := List.cons.inj heq
      exact absurd hpath (hafter b hb)
    | cons _ before =>
      obtain ⟨-, rfl⟩ := List.cons.inj heq
      exact ⟨before, after, rfl, rfl, hafter⟩
  · rintro ⟨before, after, rfl, hx, hafter⟩
    exact ⟨a :: before, after, rfl, hx, hafter⟩

/-- **The last additions make the catalog.** -/
theorem ofAdditions_congr (h : ∀ path a, Addition.IsLast as path a ↔ Addition.IsLast bs path a) :
    ofAdditions as = ofAdditions bs := by
  refine eq_of_get? fun path => Option.ext fun e => ?_
  simp only [get?_ofAdditions_iff, h]

end Catalog

open Catalog

/-- **A catalog lists the last addition under each path.** Its fields are in strictly increasing
order of the bytes of their paths, as many as there are different paths, and its three answers are
those of the listing, for a path that is listed and for any other. Additions that end with the same
one under each path make the same catalog. -/
theorem additions_listed (as : List Addition) :
    let c := ofAdditions as
    c.fields.Pairwise (fun f g => Text.BytesBefore f.1 g.1) ∧ (c.fields.map Prod.fst).Nodup ∧
    c.fields.length = c.size ∧ c.size = (as.map Addition.path).dedup.length ∧
    (∀ path e, (path, e) ∈ c.fields ↔ ∃ a, Addition.IsLast as path a ∧ a.entry = e) ∧
    (∀ path, c.lookup.contains path = true ↔ ∃ e, (path, e) ∈ c.fields) ∧
    (∀ path type, c.lookup.declared path = some type ↔
      ∃ e, (path, e) ∈ c.fields ∧ e.declared = some type) ∧
    (∀ path, c.lookup.indexed path = true ↔ ∃ e, (path, e) ∈ c.fields ∧ e.indexed = true) ∧
    ∀ bs, (∀ path a, Addition.IsLast as path a ↔ Addition.IsLast bs path a) →
        ofAdditions bs = c := by
  intro c
  have hsize : c.size = (as.map Addition.path).dedup.length := by
    have hpaths : (as.map fun a => (a.path, a.entry)).map Prod.fst = as.map Addition.path := by
      rw [List.map_map]
      rfl
    rw [← hpaths, ← size_insertAll, ← ofAdditions_eq]
  refine ⟨c.sorted.imp Text.lt_iff_bytesBefore.1, c.sorted.nodup_keys, rfl, hsize, ?_, ?_, ?_, ?_,
    ?_⟩
  · intro path e
    rw [mem_fields, get?_ofAdditions_iff]
  · intro path
    simp only [mem_fields]
    exact Option.isSome_iff_exists
  · intro path type
    simp only [mem_fields]
    exact Option.bind_eq_some_iff
  · intro path
    simp only [mem_fields]
    show ((c.get? path).map FieldEntry.indexed).getD false = true ↔ _
    cases c.get? path <;> simp
  · intro bs h
    exact (ofAdditions_congr h).symm

/-- A typed field replaced by an untyped one and another replaced by one that is not indexed: the
earlier additions leave no trace, and `z` is listed in front of `é`, which has the greater first
byte. -/
theorem additions_listed_replaced :
    let kept : List Addition := [.untyped "é", .unindexed "z" "date"]
    let all : List Addition := .typed "z" "text" :: .typed "é" "long" :: kept
    ofAdditions kept = ofAdditions all ∧
      (ofAdditions all).fields = [("z", ⟨some "date", false⟩), ("é", ⟨none, true⟩)] ∧
      (ofAdditions all).size = 2 ∧ Text.BytesBefore "z" "é" := by
  intro kept all
  have hlast : ∀ path a, Addition.IsLast all path a ↔ Addition.IsLast kept path a := by
    intro path a
    have hz : Addition.unindexed "z" "date" ∈ Addition.typed "é" "long" :: kept := by decide
    have he : Addition.untyped "é" ∈ kept := by decide
    calc Addition.IsLast all path a
        ↔ Addition.IsLast (.typed "é" "long" :: kept) path a := Addition.isLast_cons_of_mem hz rfl
      _ ↔ Addition.IsLast kept path a := Addition.isLast_cons_of_mem he rfl
  obtain ⟨hsorted, -, -, hsize, -, -, -, -, hsame⟩ := additions_listed all
  have hfields : (ofAdditions all).fields = [("z", ⟨some "date", false⟩), ("é", ⟨none, true⟩)] := by
    decide
  refine ⟨hsame kept hlast, hfields, hsize.trans (by decide), ?_⟩
  rw [hfields] at hsorted
  exact (List.pairwise_cons.1 hsorted).1 _ List.mem_cons_self

end Sift
