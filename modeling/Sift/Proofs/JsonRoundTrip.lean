import Sift.Report
import Sift.Proofs.Decode
import Sift.Proofs.Double

/-!
# Trees and reports come back from JSON

Nothing in the JSON form of a tree tells leaves from groups or values from lists, so a reader takes
the first form that fits. A written tree is still read back as it was: no form fits it that comes
before its own. What is read need not have been written that way. It may be an array of parts, an
object with further fields or one that is both a leaf and a group, and whole numbers become doubles.
The tree that such a value is read as is again one that comes back.

* `Json.Finite`: the JSON values there are, with numbers of 64 bits and finite doubles.
* `Condition.ofJson?_eq`, `Operand.ofJson?_eq`: reading takes the first form that fits.
* `Condition.ofJson?_toJson`: a written tree is read back.
* `Condition.finite_of_ofJson?`: a tree that has been read has finite numbers.
* `json_round_trip`: **trees and reports come back from JSON**, however they were read.
-/

namespace Sift

/-- **The numbers of a JSON value**: whole numbers fit 64 bits, with a sign or without, and doubles
are finite. -/
inductive Json.Finite : Json → Prop where
  | null : Finite .null
  | bool (b : Bool) : Finite (.bool b)
  | int {n : Int} (lower : -0x8000000000000000 ≤ n) (upper : n < 0x10000000000000000) :
      Finite (.int n)
  | float {x : Float} (finite : x.isFinite = true) : Finite (.float x)
  | str (s : String) : Finite (.str s)
  | arr {items : List Json} (items_finite : ∀ v ∈ items, Finite v) : Finite (.arr items)
  | obj {fields : List (String × Json)} (values_finite : ∀ f ∈ fields, Finite f.2) :
      Finite (.obj fields)

namespace Json

/-- The values in an array or an object. -/
def parts : Json → List Json
  | .arr items => items
  | .obj fields => fields.map Prod.snd
  | _ => []

theorem Finite.of_mem_parts {v part : Json} (h : v.Finite) (hpart : part ∈ v.parts) :
    part.Finite := by
  cases h with
  | arr items_finite => exact items_finite part hpart
  | obj values_finite =>
    obtain ⟨f, hf, rfl⟩ := List.mem_map.1 hpart
    exact values_finite f hf
  | null | bool | int | float | str => cases hpart

/-- What holds of a value once it holds of the values in it, holds of every value. -/
@[elab_as_elim]
theorem Finite.parts_induction {motive : Json → Prop} {v : Json} (h : v.Finite)
    (step : ∀ v : Json, v.Finite → (∀ part ∈ v.parts, motive part) → motive v) : motive v := by
  have atom {v : Json} (hv : v.Finite) (hparts : v.parts = []) : motive v :=
    step v hv (by simp [hparts])
  induction h with
  | null => exact atom .null rfl
  | bool b => exact atom (.bool b) rfl
  | int lower upper => exact atom (.int lower upper) rfl
  | float finite => exact atom (.float finite) rfl
  | str s => exact atom (.str s) rfl
  | arr items_finite ih => exact step _ (.arr items_finite) ih
  | obj values_finite ih =>
    refine step _ (.obj values_finite) fun part hpart => ?_
    obtain ⟨f, hf, rfl⟩ := List.mem_map.1 hpart
    exact ih f hf

theorem mem_parts_of_lookup {fields : List (String × Json)} {key : String} {v : Json}
    (h : fields.lookup key = some v) : v ∈ (Json.obj fields).parts := by
  obtain ⟨before, after, rfl, -⟩ := List.lookup_eq_some_iff.1 h
  simp [parts]

end Json

/-- All numbers in a tree are finite. -/
def Condition.Finite (c : Condition) : Prop := c.EveryLeaf fun l => ∀ v ∈ l.operand.values, v.Finite

/-! ### The first form that fits -/

/-- A leaf from an object, or from the array of its parts. -/
def Leaf.ofJson? : Json → Option Leaf
  | .obj fields => Leaf.ofFields? fields
  | .arr [field, operator, value] => Leaf.ofParts? field operator value
  | _ => none

/-- A group from an object, or from the array of its parts. -/
def Condition.groupOfJson? : Json → Option Condition
  | .obj fields =>
    groupOf? ((fields.lookup "conditions").bind children?) (fields.lookup "logicGate")
  | .arr [children, gate] => groupOf? (children? children) (some gate)
  | _ => none

/-- The scalars of an array. -/
def Scalar.listOfJson? (v : Json) : Option (List Scalar) := v.items?.bind (·.mapM Scalar.ofJson?)

theorem Condition.childrenField?_eq (fields : List (String × Json)) :
    childrenField? fields = (fields.lookup "conditions").bind children? := by
  induction fields with
  | nil => rfl
  | cons f fields ih =>
    obtain ⟨key, v⟩ := f
    by_cases hkey : key = "conditions"
    · simp [childrenField?, hkey]
    · have hne : ("conditions" == key) = false := by simpa using Ne.symm hkey
      rw [childrenField?, if_neg hkey, List.lookup_cons, hne, ih]

/-- **A tree is read as a leaf if it can be, else as a group.** -/
theorem Condition.ofJson?_eq (v : Json) :
    ofJson? v = ((Leaf.ofJson? v).map .leaf).or (groupOfJson? v) := by
  cases v with
  | obj fields =>
    rw [ofJson?, childrenField?_eq, Leaf.ofJson?, groupOfJson?]
    cases Leaf.ofFields? fields <;> rfl
  | arr items =>
    match items with
    | [] => rfl
    | [_] => rfl
    | [_, _] => rfl
    | [field, operator, value] =>
      rw [ofJson?, Leaf.ofJson?]
      cases Leaf.ofParts? field operator value <;> rfl
    | _ :: _ :: _ :: _ :: _ => rfl
  | _ => rfl

/-- A value is read as a scalar if it can be, else as a list. -/
theorem Operand.ofJson?_eq (v : Json) :
    Operand.ofJson? v = ((Scalar.ofJson? v).map .single).or ((Scalar.listOfJson? v).map .list) := by
  cases v <;> rfl

/-! ### What has been written -/

theorem Operand.ofJson?_toJson {operand : Operand} (h : ∀ v ∈ operand.values, v.Finite) :
    Operand.ofJson? operand.toJson = some operand := by
  cases operand with
  | single v =>
    have hv := Scalar.ofJson?_toJson (h v List.mem_cons_self)
    rw [Operand.toJson, Operand.ofJson?_eq, hv]
    rfl
  | list vs =>
    have hvs : ∀ v ∈ vs, v.Finite := h
    rw [Operand.toJson, Operand.ofJson?, Scalar.mapM_ofJson?_toJson hvs]
    rfl

theorem Operator.ofJson?_symbol (op : Operator) : Operator.ofJson? (.str op.symbol) = some op := by
  cases op <;> decide

theorem Gate.ofJson?_word (g : Gate) : Gate.ofJson? (.str g.word) = some g := by
  cases g <;> decide

theorem Leaf.ofParts?_eq_some {field operator value : Json} {l : Leaf} :
    Leaf.ofParts? field operator value = some l ↔ field.text? = some l.field ∧
      Operator.ofJson? operator = some l.operator ∧ Operand.ofJson? value = some l.operand := by
  simp only [Leaf.ofParts?, Option.bind_eq_bind, Option.bind_eq_some_iff, Option.some.injEq]
  constructor
  · rintro ⟨_, hfield, _, hoperator, _, hoperand, rfl⟩
    exact ⟨hfield, hoperator, hoperand⟩
  · rintro ⟨hfield, hoperator, hoperand⟩
    exact ⟨_, hfield, _, hoperator, _, hoperand, rfl⟩

theorem Leaf.ofJson?_toJson {l : Leaf} (h : ∀ v ∈ l.operand.values, v.Finite) :
    Leaf.ofJson? l.toJson = some l := by
  have hparts : Leaf.ofParts? (.str l.field) (.str l.operator.symbol) l.operand.toJson = some l :=
    Leaf.ofParts?_eq_some.2 ⟨rfl, Operator.ofJson?_symbol l.operator, Operand.ofJson?_toJson h⟩
  exact hparts

namespace Condition

variable {v : Json} {t : Condition} {cs : List Condition}

theorem groupOf?_eq_some {children : Option (List Condition)} {gate : Option Json} :
    groupOf? children gate = some t ↔
      ∃ word g cs, gate = some word ∧ Gate.ofJson? word = some g ∧ children = some cs ∧
        t = .group g cs := by
  simp only [groupOf?, Option.bind_eq_bind, Option.bind_eq_some_iff, Option.some.injEq]
  constructor
  · rintro ⟨word, hgate, g, hg, cs, hcs, rfl⟩
    exact ⟨word, g, cs, hgate, hg, hcs, rfl⟩
  · rintro ⟨word, g, cs, hgate, hg, hcs, rfl⟩
    exact ⟨word, hgate, g, hg, cs, hcs, rfl⟩

theorem ofJsonAll?_toJsonAll (h : ∀ c ∈ cs, ofJson? c.toJson = some c) :
    ofJsonAll? (toJsonAll cs) = some cs := by
  induction cs with
  | nil => rfl
  | cons c rest ih =>
    have hc := h c List.mem_cons_self
    have hrest := ih fun c hc => h c (List.mem_cons_of_mem _ hc)
    simp [toJsonAll, ofJsonAll?, hc, hrest]

/-- **A written tree is read back.** A written group has no field `field`, so it is not taken for a
leaf. -/
theorem ofJson?_toJson : t.Finite → ofJson? t.toJson = some t := by
  induction t using tree_induction with
  | leaf l =>
    intro h
    rw [ofJson?_eq, toJson, Leaf.ofJson?_toJson (everyLeaf_leaf.1 h)]
    rfl
  | group gate children ih =>
    intro h
    have hchildren : ofJsonAll? (toJsonAll children) = some children :=
      ofJsonAll?_toJsonAll fun c hc => ih c hc (everyLeaf_group.1 h c hc)
    -- the lookup of `field` among the two fields of a group fails, whatever its conditions are
    have hleaf : Leaf.ofJson? (toJson (.group gate children)) = none := rfl
    rw [ofJson?_eq, hleaf]
    exact groupOf?_eq_some.2 ⟨_, gate, children, rfl, Gate.ofJson?_word gate, hchildren, rfl⟩

end Condition

/-! ### What has been read -/

theorem mem_of_mapM_some {α β : Type} {f : α → Option β} {xs : List α} {ys : List β}
    (h : xs.mapM f = some ys) :
    ∀ y ∈ ys, ∃ x ∈ xs, f x = some y := by
  induction xs generalizing ys with
  | nil =>
    obtain rfl := Option.some.inj h
    simp
  | cons x xs ih =>
    simp only [List.mapM_cons, Option.bind_eq_bind, Option.bind_eq_some_iff, Option.pure_def,
      Option.some.injEq] at h
    obtain ⟨y, hy, ys, hys, rfl⟩ := h
    rw [List.forall_mem_cons]
    refine ⟨⟨x, List.mem_cons_self, hy⟩, fun y' hy' => ?_⟩
    obtain ⟨x', hx', hfx⟩ := ih hys y' hy'
    exact ⟨x', List.mem_cons_of_mem _ hx', hfx⟩

/-- Whole numbers of 64 bits are within the range of doubles, so a number that has been read is
finite. -/
theorem Scalar.finite_of_ofJson? {v : Json} {x : Scalar} (hv : v.Finite)
    (h : Scalar.ofJson? v = some x) :
    x.Finite := by
  cases hv with
  | int lower upper =>
    obtain rfl := Option.some.inj h
    exact Json.isFinite_doubleOfInt (by omega)
  | float finite =>
    obtain rfl := Option.some.inj h
    exact finite
  | bool b =>
    obtain rfl := Option.some.inj h
    trivial
  | str s =>
    obtain rfl := Option.some.inj h
    trivial
  | null | arr | obj => cases h

theorem Operand.finite_of_ofJson? {v : Json} {operand : Operand} (hv : v.Finite)
    (h : Operand.ofJson? v = some operand) : ∀ x ∈ operand.values, x.Finite := by
  rw [Operand.ofJson?_eq, Option.or_eq_some_iff] at h
  rcases h with h | ⟨-, h⟩
  · obtain ⟨x, hx, rfl⟩ := Option.map_eq_some_iff.1 h
    simpa [Operand.values] using Scalar.finite_of_ofJson? hv hx
  · obtain ⟨xs, hxs, rfl⟩ := Option.map_eq_some_iff.1 h
    obtain ⟨items, hitems, hxs⟩ := Option.bind_eq_some_iff.1 hxs
    cases hv with
    | arr items_finite =>
      obtain rfl := Option.some.inj hitems
      intro x hx
      obtain ⟨w, hw, hwx⟩ := mem_of_mapM_some hxs x hx
      exact Scalar.finite_of_ofJson? (items_finite w hw) hwx
    | null | bool | int | float | str | obj => cases hitems

theorem Leaf.finite_of_ofJson? {v : Json} {l : Leaf} (hv : v.Finite) (h : Leaf.ofJson? v = some l) :
    ∀ x ∈ l.operand.values, x.Finite := by
  have hpart : ∃ part ∈ v.parts, Operand.ofJson? part = some l.operand := by
    unfold Leaf.ofJson? at h
    split at h
    next fields =>
      simp only [Leaf.ofFields?, Option.bind_eq_bind, Option.bind_eq_some_iff] at h
      obtain ⟨_, -, _, -, value, hvalue, h⟩ := h
      exact ⟨value, Json.mem_parts_of_lookup hvalue, (Leaf.ofParts?_eq_some.1 h).2.2⟩
    next field operator value =>
      exact ⟨value, by simp [Json.parts], (Leaf.ofParts?_eq_some.1 h).2.2⟩
    next => cases h
  obtain ⟨part, hmem, hoperand⟩ := hpart
  exact Operand.finite_of_ofJson? (hv.of_mem_parts hmem) hoperand

namespace Condition

variable {v : Json} {t : Condition} {cs : List Condition}

/-- The conditions of a group are read from one of the parts of its value. -/
theorem of_groupOfJson? (h : groupOfJson? v = some t) :
    ∃ part ∈ v.parts, ∃ gate cs, children? part = some cs ∧ t = .group gate cs := by
  unfold groupOfJson? at h
  split at h
  next fields =>
    obtain ⟨_, gate, cs, -, -, hcs, rfl⟩ := groupOf?_eq_some.1 h
    obtain ⟨part, hpart, hcs⟩ := Option.bind_eq_some_iff.1 hcs
    exact ⟨part, Json.mem_parts_of_lookup hpart, gate, cs, hcs, rfl⟩
  next children _ =>
    obtain ⟨_, gate, cs, -, -, hcs, rfl⟩ := groupOf?_eq_some.1 h
    exact ⟨children, by simp [Json.parts], gate, cs, hcs, rfl⟩
  next => cases h

theorem ofJsonAll?_eq_mapM (items : List Json) : ofJsonAll? items = items.mapM ofJson? := by
  induction items with
  | nil => rfl
  | cons v rest ih =>
    rw [ofJsonAll?, ih, List.mapM_cons]
    rfl

/-- Each condition of an array is read from one of its items. -/
theorem of_children? (h : children? v = some cs) :
    ∀ c ∈ cs, ∃ part ∈ v.parts, ofJson? part = some c := by
  cases v with
  | arr items =>
    rw [children?, ofJsonAll?_eq_mapM] at h
    exact mem_of_mapM_some h
  | null | bool | int | float | str | obj => cases h

/-- **A tree that has been read has finite numbers.** -/
theorem finite_of_ofJson? (hv : v.Finite) (h : ofJson? v = some t) : t.Finite := by
  -- A group is read from a part of its value as an array, and its conditions from the parts of that
  -- one, so the induction carries both ways to read a value.
  have both : (∀ t, ofJson? v = some t → t.Finite) ∧
      ∀ cs, children? v = some cs → ∀ c ∈ cs, c.Finite := by
    refine Json.Finite.parts_induction hv fun v hv ih => ⟨fun t h => ?_, fun cs h c hc => ?_⟩
    · rw [ofJson?_eq, Option.or_eq_some_iff] at h
      rcases h with h | ⟨-, h⟩
      · obtain ⟨l, hl, rfl⟩ := Option.map_eq_some_iff.1 h
        exact everyLeaf_leaf.2 (Leaf.finite_of_ofJson? hv hl)
      · obtain ⟨part, hpart, gate, cs, hcs, rfl⟩ := of_groupOfJson? h
        exact everyLeaf_group.2 ((ih part hpart).2 cs hcs)
    · obtain ⟨part, hpart, hc⟩ := of_children? h c hc
      exact (ih part hpart).1 c hc
  exact both.1 t h

end Condition

/-! ### Reports -/

namespace Report

theorem ofJson?_toJson {r : Report} (h : r.tree.Finite) : ofJson? r.toJson = some r := by
  have hparts : ofParts? r.tree.toJson r.document = some r := by
    rw [ofParts?, Condition.ofJson?_toJson h]
    rfl
  exact hparts

theorem finite_of_ofJson? {v : Json} {r : Report} (hv : v.Finite) (h : ofJson? v = some r) :
    r.tree.Finite := by
  have hpart : ∃ part ∈ v.parts, ∃ document, ofParts? part document = some r := by
    unfold ofJson? at h
    split at h
    next fields =>
      simp only [Option.bind_eq_bind, Option.bind_eq_some_iff] at h
      obtain ⟨tree, htree, document, -, h⟩ := h
      exact ⟨tree, Json.mem_parts_of_lookup htree, document, h⟩
    next tree document => exact ⟨tree, by simp [Json.parts], document, h⟩
    next => cases h
  obtain ⟨part, hmem, document, h⟩ := hpart
  obtain ⟨t, ht, rfl⟩ := Option.map_eq_some_iff.1 h
  exact Condition.finite_of_ofJson? (hv.of_mem_parts hmem) ht

end Report

/-- **Trees and reports come back from JSON.** A value is read as the first form that fits it. A
tree with finite numbers is read back from its written form. A tree that any JSON value is read as
has finite numbers, so writing and reading it again changes nothing. The same holds of a report with
any document. -/
theorem json_round_trip :
    (∀ v, Condition.ofJson? v = ((Leaf.ofJson? v).map .leaf).or (Condition.groupOfJson? v)) ∧
      (∀ v, Operand.ofJson? v =
        ((Scalar.ofJson? v).map .single).or ((Scalar.listOfJson? v).map .list)) ∧
      (∀ t : Condition, t.Finite → Condition.ofJson? t.toJson = some t) ∧
      (∀ (v : Json) (t : Condition), v.Finite → Condition.ofJson? v = some t →
        t.Finite ∧ Condition.ofJson? t.toJson = some t) ∧
      (∀ r : Report, r.tree.Finite → Report.ofJson? r.toJson = some r) ∧
      ∀ (v : Json) (r : Report), v.Finite → Report.ofJson? v = some r →
        Report.ofJson? r.toJson = some r := by
  refine ⟨Condition.ofJson?_eq, Operand.ofJson?_eq, fun t h => Condition.ofJson?_toJson h,
    fun v t hv ht => ?_, fun r h => Report.ofJson?_toJson h, fun v r hv hr => ?_⟩
  · have hfinite := Condition.finite_of_ofJson? hv ht
    exact ⟨hfinite, Condition.ofJson?_toJson hfinite⟩
  · exact Report.ofJson?_toJson (Report.finite_of_ofJson? hv hr)

/-- An object that is both a leaf and a group is read as the leaf, and its whole number as the
double nearest to it. Lists of no and of one value stay apart from a single value. -/
theorem json_round_trip_ambiguous :
    let v : Json :=
      .obj [("conditions", .arr []), ("field", .str "size"), ("logicGate", .str "and"),
      ("operator", .str ">"), ("value", .int 9007199254740993)]
    let t : Condition := .leaf ⟨"size", .gt, .single (.number (Json.doubleOfInt 9007199254740993))⟩
    let few : Condition := .group .or [.group .and [], .leaf ⟨"tags", .eq, .list []⟩,
      .leaf ⟨"tags", .ne, .list [.text "a"]⟩, t]
    Condition.ofJson? v = some t ∧ Condition.ofJson? t.toJson = some t ∧
      Condition.ofJson? few.toJson = some few ∧
      Report.ofJson? (Report.toJson ⟨few, .arr [.null]⟩) = some ⟨few, .arr [.null]⟩ ∧
      Report.ofJson? (.arr [v, .null]) = some ⟨t, .null⟩ ∧
      Report.ofJson? (Report.toJson ⟨t, .null⟩) = some ⟨t, .null⟩ := by
  intro v t few
  have hv : v.Finite := by
    refine .obj fun f hf => ?_
    simp only [List.mem_cons, List.not_mem_nil, or_false] at hf
    rcases hf with rfl | rfl | rfl | rfl | rfl
    · exact .arr (by simp)
    · exact .str _
    · exact .str _
    · exact .str _
    · exact .int (by omega) (by omega)
  have hvnull : (Json.arr [v, .null]).Finite := by
    refine .arr fun w hw => ?_
    simp only [List.mem_cons, List.not_mem_nil, or_false] at hw
    rcases hw with rfl | rfl
    · exact hv
    · exact .null
  have hread : Condition.ofJson? v = some t := rfl
  have hreport : Report.ofJson? (.arr [v, .null]) = some ⟨t, .null⟩ := by
    rw [Report.ofJson?, Report.ofParts?, hread]
    rfl
  obtain ⟨-, -, htree, hagain, hreportTree, hreportAgain⟩ := json_round_trip
  obtain ⟨ht, htback⟩ := hagain v t hv hread
  have hfew : few.Finite := by
    simpa [few, Condition.Finite, Operand.values, Scalar.Finite] using ht
  exact ⟨hread, htback, htree few hfew, hreportTree ⟨few, .arr [.null]⟩ hfew, hreport,
    hreportAgain _ ⟨t, .null⟩ hvnull hreport⟩

end Sift
