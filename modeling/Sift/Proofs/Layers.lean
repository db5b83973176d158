import Sift.Settings
import Sift.Proofs.Overriding

/-!
# Layers of settings

A setting can be said in an environment variable, in a file, and by default. Each place is a layer
over the next, and a setting has the value of the first layer that says one. A variable whose text
says nothing is passed over; a file with such a part has no settings at all.

* `Over`, `Fixes`: one layer over another, and the value that layers fix.
* `Settings.Item`: the settings, each with its place in a file and with its variable.
* `Settings.ofTable?_part`, `Settings.ofTable?_fixes`: each setting of a file is read from its own
  place, and a file is a layer over the defaults.
* `Settings.Variable`, `Settings.Variable.apply_cases`: the variables, and what one of them does.
* `Settings.overrideAll_fixes`, `Settings.override_fixes`: one variable after the other, and all of
  them, over what was there.
* `Settings.inForce_fixes`: **the settings in force.**
-/

namespace Sift

/-! ### Layers -/

section Layers

variable {α : Type} {upper lower : α → Prop} {x y : α}

/-- **One layer over another**: what the upper one says, and what the lower one says where the upper
says nothing. -/
def Over (upper lower : α → Prop) (v : α) : Prop := upper v ∨ (∀ w, ¬upper w) ∧ lower v

/-- **A layer that says one value.** -/
def Fixes (layer : α → Prop) (x : α) : Prop := ∀ v, layer v ↔ v = x

theorem Fixes.unique (hx : Fixes upper x) (hy : Fixes upper y) : x = y :=
  (hy x).1 ((hx x).2 rfl)

theorem Fixes.over (h : Fixes upper x) : Fixes (Over upper lower) x := by
  intro v
  constructor
  · rintro (hv | ⟨hnone, -⟩)
    · exact (h v).1 hv
    · exact absurd ((h x).2 rfl) (hnone x)
  · intro hv
    exact .inl ((h v).2 hv)

theorem Fixes.under (h : Fixes lower x) (hnone : ∀ w, ¬upper w) : Fixes (Over upper lower) x := by
  intro v
  constructor
  · rintro (hv | ⟨-, hv⟩)
    · exact absurd hv (hnone v)
    · exact (h v).1 hv
  · intro hv
    exact .inr ⟨hnone, (h v).2 hv⟩

end Layers

namespace Settings

open Toml (Value)

/-! ### Settings by name -/

/-- The settings of the program. -/
inductive Item where
  | mappingPath
  | option (k : Options.Slot)
  | logLevel
  | logFormat

/-- Where a setting stands in a file: in a section, under a key or at a position. -/
structure Place where
  heading : String
  key : String
  position : Nat

namespace Item

/-- What the setting may be set to. -/
def Setting : Item → Type
  | .mappingPath => Option String
  | .option k => k.Setting
  | .logLevel | .logFormat => String

/-- The place of the setting in a file. -/
def place : Item → Place
  | .mappingPath => ⟨"catalog", "mapping_path", 0⟩
  | .option .queryType => ⟨"defaults", "query_type", 0⟩
  | .option .aggregationType => ⟨"defaults", "aggregation_type", 1⟩
  | .option .aggregationField => ⟨"defaults", "aggregation_field", 2⟩
  | .option .fixedInterval => ⟨"defaults", "fixed_interval", 3⟩
  | .option .interval => ⟨"defaults", "histogram_interval", 4⟩
  | .option .size => ⟨"defaults", "size", 5⟩
  | .option .timeZone => ⟨"defaults", "time_zone", 6⟩
  | .logLevel => ⟨"logging", "level", 0⟩
  | .logFormat => ⟨"logging", "format", 1⟩

/-- **What a value in a file says**: a string or a number says itself, and a shape is said by its
name or by a table of its name. -/
def Written : (i : Item) → Value → i.Setting → Prop
  | .mappingPath, part, v => ∃ s, part = .string s ∧ v = some s
  | .option .queryType, part, t =>
    part = .string (QueryType.name t) ∨ ∃ v, isHollow v = true ∧
      part = .table [(QueryType.name t, v)]
  | .option .aggregationType, part, v => ∃ s, part = .string s ∧ v = some s
  | .option .aggregationField, part, v => ∃ s, part = .string s ∧ v = some s
  | .option .fixedInterval, part, s => part = .string s
  | .option .interval, part, n => part = .integer n
  | .option .size, part, n => part = .integer n
  | .option .timeZone, part, s => part = .string s
  | .logLevel, part, s => part = .string s
  | .logFormat, part, s => part = .string s

/-- The variable that overrides the setting. -/
def variableName? : Item → Option String
  | .mappingPath => some "FILTERQL_MAPPING"
  | .option .timeZone => some "FILTERQL_TIME_ZONE"
  | .option .size => some "FILTERQL_SIZE"
  | .option _ => none
  | .logLevel => some "FILTERQL_LOG_LEVEL"
  | .logFormat => some "FILTERQL_LOG_FORMAT"

/-- **What the text of a variable says**: what it would say in a clause, or itself. -/
def Says : (i : Item) → String → i.Setting → Prop
  | .mappingPath, text, v => v = some text
  | .option k, text, v => k.Says text v
  | .logLevel, text, v => v = text
  | .logFormat, text, v => v = text

/-- Reads the setting from its part of a file. -/
def read? : (i : Item) → Value → Option i.Setting
  | .mappingPath => (some <$> text? ·)
  | .option .queryType => queryType?
  | .option .aggregationType | .option .aggregationField => (some <$> text? ·)
  | .option .fixedInterval | .option .timeZone => text?
  | .option .interval | .option .size => integer?
  | .logLevel | .logFormat => text?

end Item

/-- What the setting is set to. -/
def get (s : Settings) : (i : Item) → i.Setting
  | .mappingPath => s.mappingPath
  | .option k => s.defaults.get k
  | .logLevel => s.logLevel
  | .logFormat => s.logFormat

/-- The settings with one of them set. -/
def put (s : Settings) : (i : Item) → i.Setting → Settings
  | .mappingPath, path => { s with mappingPath := path }
  | .option k, v => { s with defaults := s.defaults.put k v }
  | .logLevel, level => { s with logLevel := level }
  | .logFormat, format => { s with logFormat := format }

theorem get_put_self (s : Settings) (i : Item) (v : i.Setting) : (s.put i v).get i = v := by
  cases i with
  | option k => exact Options.get_put_self s.defaults k v
  | mappingPath | logLevel | logFormat => rfl

theorem get_put_ne (s : Settings) {i j : Item} (h : j ≠ i) (v : i.Setting) :
    (s.put i v).get j = s.get j := by
  cases i with
  | option k =>
    cases j with
    | option k' => exact Options.get_put_ne s.defaults (fun hk => h (congrArg Item.option hk)) v
    | mappingPath | logLevel | logFormat => rfl
  | mappingPath | logLevel | logFormat => cases j <;> trivial

/-! ### Files -/

/-- **A part of a section**: under its key in a table, or at its position in an array. -/
inductive PartOf (key : String) (position : Nat) : Value → Value → Prop
  | field {fields : List (String × Value)} {part : Value} (h : fields.lookup key = some part) :
      PartOf key position (.table fields) part
  | item {items : List Value} {part : Value} (h : items[position]? = some part) :
      PartOf key position (.array items) part

/-- The part of a table at a place. -/
def PartAt (table : Toml.Table) (p : Place) (part : Value) : Prop :=
  ∃ v, table.lookup p.heading = some v ∧ PartOf p.key p.position v part

/-- **What a file says.** -/
def Item.FileSays (i : Item) (table : Toml.Table) (v : i.Setting) : Prop :=
  ∃ part, PartAt table i.place part ∧ i.Written part v

variable {table : Toml.Table} {s : Settings} {env : Environment}

theorem text?_eq_some_iff {v : Value} {t : String} : text? v = some t ↔ v = .string t := by
  cases v <;> simp [text?]

theorem integer?_eq_some_iff {v : Value} {n : Int} : integer? v = some n ↔ v = .integer n := by
  cases v <;> simp [integer?]

theorem queryType?_eq_some_iff {v : Value} {t : QueryType} : queryType? v = some t ↔
    v = .string t.name ∨ ∃ w, isHollow w = true ∧ v = .table [(t.name, w)] := by
  unfold queryType?
  split
  · simp [QueryType.ofName?_eq_some_iff]
  next name w =>
    by_cases hw : isHollow w = true
    · rw [if_pos hw, QueryType.ofName?_eq_some_iff]
      constructor
      · rintro rfl
        exact .inr ⟨w, hw, rfl⟩
      · rintro (h | ⟨w', -, h⟩)
        · cases h
        · cases h
          rfl
    · rw [if_neg hw]
      constructor
      · intro h
        cases h
      · rintro (h | ⟨w', hw', h⟩)
        · cases h
        · cases h
          exact absurd hw' hw
  next hstring htable =>
    constructor
    · intro h
      cases h
    · rintro (rfl | ⟨w, -, rfl⟩)
      · exact absurd rfl (hstring _)
      · exact absurd rfl (htable _ _)

theorem Item.read?_eq_some_iff (i : Item) {part : Value} {v : i.Setting} :
    i.read? part = some v ↔ i.Written part v := by
  have hsome {o : Option String} : (some <$> text? part) = some o ↔
      ∃ t, part = .string t ∧ o = some t := by
    constructor
    · intro h
      obtain ⟨t, ht, rfl⟩ := Option.map_eq_some_iff.1 h
      exact ⟨t, text?_eq_some_iff.1 ht, rfl⟩
    · rintro ⟨t, rfl, rfl⟩
      rfl
  cases i with
  | mappingPath => exact hsome
  | logLevel | logFormat => exact text?_eq_some_iff
  | option k =>
    cases k with
    | queryType => exact queryType?_eq_some_iff
    | aggregationType | aggregationField => exact hsome
    | fixedInterval | timeZone => exact text?_eq_some_iff
    | interval | size => exact integer?_eq_some_iff

theorem partOf_iff {v part : Value} {parts : Parts} (h : parts? v = some parts) (key : String)
    (position : Nat) :
    parts key position = some part ↔ PartOf key position v part := by
  cases v with
  | table fields =>
    obtain rfl := Option.some.inj h
    exact ⟨.field, fun | .field hpart => hpart⟩
  | array items =>
    obtain rfl := Option.some.inj h
    exact ⟨.item, fun | .item hpart => hpart⟩
  | datetime =>
    obtain rfl := Option.some.inj h
    exact ⟨fun hpart => (by cases hpart), fun hpart => (by cases hpart)⟩
  | string | integer | float | boolean => cases h

/-- A section that is missing counts as one without parts. -/
theorem exists_parts {α : Type} (f : Parts → Option α) {fallback a : α} {name : String}
    (hf : f (fun _ _ => none) = some fallback)
    (h : part? (fun v => do f (← parts? v)) fallback (table.lookup name) = some a) :
    ∃ parts : Parts, f parts = some a ∧ ∀ key position part,
      parts key position = some part ↔ PartAt table ⟨name, key, position⟩ part := by
  unfold PartAt
  cases hsection : table.lookup name with
  | none =>
    rw [hsection] at h
    obtain rfl := Option.some.inj h
    exact ⟨_, hf, by simp [hsection]⟩
  | some v =>
    rw [hsection] at h
    obtain ⟨parts, hparts, ha⟩ := Option.bind_eq_some_iff.1 h
    refine ⟨parts, ha, ?_⟩
    intro key position part
    simpa [hsection] using partOf_iff hparts key position

/-- The options of a section, each from its part. -/
theorem options?_part {parts : Parts} {o : Options} (h : options? parts = some o)
    (k : Options.Slot) :
    let p := (Item.option k).place
    part? (Item.option k).read? (Options.default.get k) (parts p.key p.position) =
        some (o.get k) := by
  unfold options? at h
  simp only [Option.bind_eq_bind, Option.bind_eq_some_iff, Option.pure_def, Option.some.injEq] at h
  obtain ⟨_, h₁, _, h₂, _, h₃, _, h₄, _, h₅, _, h₆, _, h₇, rfl⟩ := h
  cases k with
  | queryType => exact h₁
  | aggregationType => exact h₂
  | aggregationField => exact h₃
  | fixedInterval => exact h₄
  | interval => exact h₅
  | size => exact h₆
  | timeZone => exact h₇

/-- A section that `mappingPath?` reads has parts, and the path is one of them. -/
theorem mappingPath?_part {v : Value} {path : Option String} (h : mappingPath? v = some path) :
    (parts? v).bind (fun parts => part? Item.mappingPath.read? none (parts "mapping_path" 0)) =
      some path := by
  unfold mappingPath? at h
  split at h
  · cases h
  · exact h

/-- The two parts of the section `logging`. -/
theorem logging?_part {parts : Parts} {level format : String}
    (h : logging? parts = some (level, format)) :
    part? Item.logLevel.read? default.logLevel (parts "level" 0) = some level ∧
      part? Item.logFormat.read? default.logFormat (parts "format" 1) = some format := by
  unfold logging? at h
  simp only [Option.bind_eq_bind, Option.bind_eq_some_iff, Option.pure_def, Option.some.injEq,
    Prod.mk.injEq] at h
  obtain ⟨_, hlevel, _, hformat, rfl, rfl⟩ := h
  exact ⟨hlevel, hformat⟩

/-- **Every setting of a file is read from its own place.** -/
theorem ofTable?_part (h : ofTable? table = some s) (i : Item) :
    ∃ x, part? i.read? (default.get i) x = some (s.get i) ∧ ∀ part, x = some part ↔
      PartAt table i.place part := by
  unfold ofTable? at h
  simp only [Option.bind_eq_bind, Option.bind_eq_some_iff, Prod.exists, Option.pure_def,
    Option.some.injEq] at h
  obtain ⟨path, hpath, defaults, hdefaults, level, format, hlogging, rfl⟩ := h
  cases i with
  | mappingPath =>
    -- an empty array has no path in it, and then there are no settings
    have hsection : part?
        (fun v => do part? Item.mappingPath.read? none ((← parts? v) "mapping_path" 0)) none
        (table.lookup "catalog") = some path := by
      cases hv : table.lookup "catalog" with
      | none =>
        rw [hv] at hpath
        exact hpath
      | some v =>
        rw [hv] at hpath
        exact mappingPath?_part hpath
    obtain ⟨parts, hparts, hat⟩ :=
      exists_parts (fun parts => part? Item.mappingPath.read? none (parts "mapping_path" 0)) rfl
        hsection
    exact ⟨_, hparts, hat _ _⟩
  | option k =>
    obtain ⟨parts, hparts, hat⟩ := exists_parts options? rfl hdefaults
    refine ⟨_, options?_part hparts k, ?_⟩
    have hplace : (Item.option k).place.heading = "defaults" := by cases k <;> rfl
    intro part
    rw [hat, ← hplace]
  | logLevel =>
    obtain ⟨parts, hparts, hat⟩ := exists_parts logging? rfl hlogging
    exact ⟨_, (logging?_part hparts).1, hat _ _⟩
  | logFormat =>
    obtain ⟨parts, hparts, hat⟩ := exists_parts logging? rfl hlogging
    exact ⟨_, (logging?_part hparts).2, hat _ _⟩

/-- **A file over the defaults.** -/
theorem ofTable?_fixes (h : ofTable? table = some s) (i : Item) :
    Fixes (Over (i.FileSays table) (· = default.get i)) (s.get i) := by
  obtain ⟨x, hx, hat⟩ := ofTable?_part h i
  cases x with
  | none =>
    rw [← Option.some.inj hx]
    refine Fixes.under (fun v => Iff.rfl) ?_
    rintro v ⟨part, hpart, -⟩
    cases (hat part).2 hpart
  | some part =>
    refine Fixes.over fun v => ?_
    constructor
    · rintro ⟨part', hpart', hv⟩
      obtain rfl := Option.some.inj ((hat part').2 hpart')
      exact Option.some.inj (((i.read?_eq_some_iff).2 hv).symm.trans hx)
    · rintro rfl
      exact ⟨part, (hat part).1 rfl, (i.read?_eq_some_iff).1 hx⟩

/-! ### Variables -/

/-- **What the environment says.** -/
def Item.VariableSays (i : Item) (env : Environment) (v : i.Setting) : Prop :=
  ∃ name text, i.variableName? = some name ∧ env name = some text ∧ i.Says text v

/-- **A variable** with the setting that it overrides, and with a reader of its text. -/
structure Variable where
  item : Item
  name : String
  read? : String → Option item.Setting
  named : item.variableName? = some name
  read?_eq_some_iff : ∀ text v, read? text = some v ↔ item.Says text v

namespace Variable

/-- A variable whose text always says something. -/
def verbatim (item : Item) (name : String) (value : String → item.Setting)
    (named : item.variableName? = some name)
    (h : ∀ text v, item.Says text v ↔ v = value text) : Variable where
  item := item
  name := name
  read? text := some (value text)
  named := named
  read?_eq_some_iff text v := by rw [h, Option.some.injEq, eq_comm]

/-- The mapping file. -/
def mappingPath : Variable := verbatim .mappingPath "FILTERQL_MAPPING" some rfl fun _ _ => Iff.rfl

/-- The zone of date literals. -/
def timeZone : Variable :=
  verbatim (.option .timeZone) "FILTERQL_TIME_ZONE" id rfl fun _ _ => Iff.rfl

/-- The number of hits. -/
def size : Variable :=
  ⟨.option .size, "FILTERQL_SIZE", Text.readInt64?, rfl, fun _ _ => Text.readInt64?_eq_some_iff⟩

/-- The level of messages that are logged. -/
def logLevel : Variable := verbatim .logLevel "FILTERQL_LOG_LEVEL" id rfl fun _ _ => Iff.rfl

/-- The format of messages that are logged. -/
def logFormat : Variable := verbatim .logFormat "FILTERQL_LOG_FORMAT" id rfl fun _ _ => Iff.rfl

/-- The variables, in the order in which they are applied. -/
def all : List Variable := [mappingPath, timeZone, size, logLevel, logFormat]

theorem all_pairwise : all.Pairwise fun x y => x.item ≠ y.item := by
  simp [all, verbatim, mappingPath, timeZone, size, logLevel, logFormat]

theorem exists_of_variableName? {i : Item} {name : String} (h : i.variableName? = some name) :
    ∃ x ∈ all, x.item = i := by
  cases i with
  | mappingPath => exact ⟨mappingPath, by simp [all], rfl⟩
  | logLevel => exact ⟨logLevel, by simp [all], rfl⟩
  | logFormat => exact ⟨logFormat, by simp [all], rfl⟩
  | option k =>
    cases k with
    | size => exact ⟨size, by simp [all], rfl⟩
    | timeZone => exact ⟨timeZone, by simp [all], rfl⟩
    | queryType | aggregationType | aggregationField | fixedInterval | interval => cases h

/-- The settings with the one that the variable overrides set to what a text says, if it says
something. -/
def change (x : Variable) (s : Settings) (text : String) : Settings :=
  match x.read? text with
  | some v => s.put x.item v
  | none => s

theorem size_change : size.change = withSize := by
  funext s text
  unfold change withSize
  have hread : size.read? text = Text.readInt64? text := rfl
  cases htext : Text.readInt64? text with
  | none => rw [hread.trans htext]
  | some n =>
    rw [hread.trans htext]
    rfl

/-- The settings with one variable in force. -/
def apply (x : Variable) (env : Environment) (s : Settings) : Settings :=
  overrideBy env x.name x.change s

variable {x : Variable} {i : Item}

theorem variableSays_iff {v : x.item.Setting} :
    x.item.VariableSays env v ↔ (env x.name).bind x.read? = some v := by
  rw [Option.bind_eq_some_iff]
  constructor
  · rintro ⟨name, text, hname, htext, hv⟩
    obtain rfl := Option.some.inj (x.named.symm.trans hname)
    exact ⟨text, htext, (x.read?_eq_some_iff text v).2 hv⟩
  · rintro ⟨text, htext, hv⟩
    exact ⟨x.name, text, x.named, htext, (x.read?_eq_some_iff text v).1 hv⟩

/-- **What one variable does**: it sets its own setting, or changes nothing. -/
theorem apply_cases (x : Variable) (env : Environment) (s : Settings) :
    (∃ v, (env x.name).bind x.read? = some v ∧ x.apply env s = s.put x.item v) ∨
      (env x.name).bind x.read? = none ∧ x.apply env s = s := by
  unfold apply overrideBy change
  cases env x.name with
  | none => exact .inr ⟨rfl, rfl⟩
  | some text =>
    cases htext : x.read? text with
    | none => exact .inr ⟨htext, by simp only [htext]⟩
    | some v => exact .inl ⟨v, htext, by simp only [htext]⟩

theorem get_apply_of_ne (hi : i ≠ x.item) : (x.apply env s).get i = s.get i := by
  rcases x.apply_cases env s with ⟨v, -, hs⟩ | ⟨-, hs⟩
  · rw [hs, get_put_ne s hi v]
  · rw [hs]

/-- **One variable over what was there**, in the setting that it overrides. -/
theorem apply_fixes {lower : x.item.Setting → Prop} (h : Fixes lower (s.get x.item)) :
    Fixes (Over (x.item.VariableSays env) lower) ((x.apply env s).get x.item) := by
  rcases x.apply_cases env s with ⟨v, hv, hs⟩ | ⟨hnone, hs⟩
  · rw [hs, get_put_self]
    refine Fixes.over fun w => ?_
    rw [variableSays_iff, hv, Option.some.injEq, eq_comm]
  · rw [hs]
    refine h.under fun w hw => ?_
    rw [variableSays_iff, hnone] at hw
    cases hw

end Variable

/-- The settings with variables in force, one after the other. -/
def overrideAll (env : Environment) (xs : List Variable) (s : Settings) : Settings :=
  xs.foldl (fun s x => x.apply env s) s

theorem override_eq_overrideAll (env : Environment) (s : Settings) :
    override env s = overrideAll env Variable.all s := by
  unfold override
  rw [← Variable.size_change]
  rfl

variable {xs : List Variable} {i : Item}

theorem get_overrideAll_of_ne (h : ∀ x ∈ xs, x.item ≠ i) :
    (overrideAll env xs s).get i = s.get i := by
  induction xs generalizing s with
  | nil => rfl
  | cons x xs ih =>
    obtain ⟨hx, hxs⟩ := List.forall_mem_cons.1 h
    calc (overrideAll env xs (x.apply env s)).get i
        = (x.apply env s).get i := ih hxs
      _ = s.get i := Variable.get_apply_of_ne hx.symm

/-- **Variables over what was there.** The others before and behind the variable of a setting do not
touch it. -/
theorem overrideAll_fixes {lower : i.Setting → Prop}
    (hdistinct : xs.Pairwise fun x y => x.item ≠ y.item)
    (hi : ∃ x ∈ xs, x.item = i) (h : Fixes lower (s.get i)) :
    Fixes (Over (i.VariableSays env) lower) ((overrideAll env xs s).get i) := by
  -- on the variables, from any settings: one before the variable of the setting keeps `h`, and none
  -- behind it counts
  induction xs generalizing s with
  | nil => simp at hi
  | cons x xs ih =>
    obtain ⟨hx, hdistinct⟩ := List.pairwise_cons.1 hdistinct
    by_cases hxi : x.item = i
    · subst hxi
      have hrest : (overrideAll env (x :: xs) s).get x.item = (x.apply env s).get x.item :=
        get_overrideAll_of_ne fun y hy => (hx y hy).symm
      rw [hrest]
      exact Variable.apply_fixes h
    · have hxs : ∃ y ∈ xs, y.item = i := by
        obtain ⟨y, hy, hyi⟩ := hi
        rcases List.mem_cons.1 hy with rfl | hy
        · exact absurd hyi hxi
        · exact ⟨y, hy, hyi⟩
      refine ih hdistinct hxs ?_
      rwa [Variable.get_apply_of_ne (Ne.symm hxi)]

/-- **The environment over what was there.** -/
theorem override_fixes {lower : i.Setting → Prop} (h : Fixes lower (s.get i)) :
    Fixes (Over (i.VariableSays env) lower) ((override env s).get i) := by
  rw [override_eq_overrideAll]
  by_cases hvar : ∃ x ∈ Variable.all, x.item = i
  · exact overrideAll_fixes Variable.all_pairwise hvar h
  · have hne : ∀ x ∈ Variable.all, x.item ≠ i := fun x hx hxi => hvar ⟨x, hx, hxi⟩
    rw [get_overrideAll_of_ne hne]
    refine h.under ?_
    rintro v ⟨name, text, hname, -⟩
    exact hvar (Variable.exists_of_variableName? hname)

/-- A variable changes no setting but its own. -/
theorem get_override_of_agree {env' : Environment} {name : String}
    (henv : ∀ n, n ≠ name → env' n = env n)
    (hi : i.variableName? ≠ some name) : (override env' s).get i = (override env s).get i := by
  have hheard : i.VariableSays env' = i.VariableSays env := by
    funext v
    refine propext (exists_congr fun n => exists_congr fun text => and_congr_right fun hn => ?_)
    rw [henv n (by rintro rfl; exact hi hn)]
  have hkept : Fixes (· = s.get i) (s.get i) := fun v => Iff.rfl
  have hfixes' : Fixes (Over (i.VariableSays env') (· = s.get i)) ((override env' s).get i) :=
    override_fixes hkept
  rw [hheard] at hfixes'
  exact hfixes'.unique (override_fixes hkept)

/-- **A setting in force**: what the environment says over what the file says, over the default. -/
def Item.InForce (i : Item) (table : Toml.Table) (env : Environment) : i.Setting → Prop :=
  Over (i.VariableSays env) (Over (i.FileSays table) (· = default.get i))

theorem inForce_fixes (h : ofTable? table = some s) (i : Item) :
    Fixes (i.InForce table env) ((override env s).get i) :=
  override_fixes (ofTable?_fixes h i)

end Settings

end Sift
