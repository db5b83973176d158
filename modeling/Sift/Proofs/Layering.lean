import Sift.Command.Run
import Sift.Proofs.Agreement
import Sift.Proofs.Catalog
import Sift.Proofs.Invariant
import Sift.Proofs.Layers

/-!
# Settings in force, from files to documents

Files are looked for in order, and the first one that loads is taken with the environment over it.
Requests are compiled with options that start from these settings, and their clauses are one more
layer over them. What the layers do with a text that says nothing differs: such a file is skipped,
such a variable is passed over, and such a clause is refused.

* `Settings.Taken`, `Settings.loadDefault_of_taken`: the file that is taken.
* `Invocation.settings_eq_ok_iff`: the settings of a command.
* `Options.setAll_eq_ok_iff`: the clause of a request over the options that it starts from.
* `settings_layered`: **the first layer that says something decides.**
-/

namespace Sift

namespace Settings

variable {table : Toml.Table} {s : Settings} {env : Environment}

/-! ### Looking for files -/

/-- **A file that loads** can be read, and is a table of settings. -/
def Loads (read : FileReader) (path : String) (table : Toml.Table) : Prop :=
  ∃ text, read path = .ok text ∧ Toml.read? text = some table ∧ ∃ s, ofTable? table = some s

/-- **The table that is taken** from several files: that of the first one that loads, or an empty
one. -/
inductive Taken (read : FileReader) : List String → Toml.Table → Prop
  | first (before after : List String) {path : String} {table : Toml.Table}
      (hbefore : ∀ p ∈ before, ∀ t, ¬Loads read p t) (hpath : Loads read path table) :
      Taken read (before ++ path :: after) table
  | empty {paths : List String} (h : ∀ p ∈ paths, ∀ t, ¬Loads read p t) : Taken read paths []

variable {read : FileReader} {path : String} {paths : List String}

theorem exists_taken (read : FileReader) (paths : List String) :
    ∃ table, Taken read paths table := by
  induction paths with
  | nil => exact ⟨[], .empty (by simp)⟩
  | cons path paths ih =>
    by_cases hpath : ∃ table, Loads read path table
    · obtain ⟨table, htable⟩ := hpath
      exact ⟨table, .first [] paths (by simp) htable⟩
    · rw [not_exists] at hpath
      obtain ⟨table, htable⟩ := ih
      cases htable with
      | first before after hbefore hloads =>
        exact ⟨table, .first (path :: before) after (List.forall_mem_cons.2 ⟨hpath, hbefore⟩)
          hloads⟩
      | empty h => exact ⟨[], .empty (List.forall_mem_cons.2 ⟨hpath, h⟩)⟩

theorem loadWith_eq_ok_iff {st : Settings} : loadWith env read path = .ok st ↔
    ∃ table s, Loads read path table ∧ ofTable? table = some s ∧ st = override env s := by
  unfold loadWith load
  constructor
  · intro h
    cases htext : read path with
    | error e =>
      rw [htext] at h
      cases h
    | ok text =>
      rw [htext] at h
      cases hs : ofText? text with
      | none =>
        simp only [hs] at h
        cases h
      | some s =>
        simp only [hs] at h
        obtain ⟨table, htable, hs⟩ := Option.bind_eq_some_iff.1 hs
        exact ⟨table, s, ⟨text, htext, htable, s, hs⟩, hs, (Except.ok.inj h).symm⟩
  · rintro ⟨table, s, ⟨text, htext, htable, -⟩, hs, rfl⟩
    have hof : ofText? text = some s := by
      unfold ofText?
      rw [htable]
      exact hs
    simp only [htext, hof]
    rfl

/-- **The first file that loads is taken**, whatever is wrong with those before it, and the
environment is in force also where none loads. -/
theorem loadDefault_of_taken (h : Taken read (searchPath env) table) :
    ∃ s, ofTable? table = some s ∧ loadDefault env read = override env s := by
  have hfails {p : String} (hp : ∀ t, ¬Loads read p t) : (loadWith env read p).toOption = none := by
    cases hload : loadWith env read p with
    | error e => rfl
    | ok st =>
      obtain ⟨t, -, ht, -⟩ := loadWith_eq_ok_iff.1 hload
      exact absurd ht (hp t)
  unfold loadDefault firstLoaded?
  generalize searchPath env = paths at h
  cases h with
  | @first before after path _ hbefore hpath =>
    obtain ⟨text, htext, htable, s, hs⟩ := hpath
    have hload : loadWith env read path = .ok (override env s) :=
      loadWith_eq_ok_iff.2 ⟨table, s, ⟨text, htext, htable, s, hs⟩, hs, rfl⟩
    have hnone : before.findSome? (fun p => (loadWith env read p).toOption) = none :=
      List.findSome?_eq_none_iff.2 fun p hp => hfails (hbefore p hp)
    refine ⟨s, hs, ?_⟩
    rw [List.findSome?_append, hnone, List.findSome?_cons, hload]
    rfl
  | empty hall =>
    have hnone : paths.findSome? (fun p => (loadWith env read p).toOption) = none :=
      List.findSome?_eq_none_iff.2 fun p hp => hfails (hall p hp)
    refine ⟨default, rfl, ?_⟩
    rw [hnone]
    rfl

end Settings

/-! ### Commands -/

namespace Invocation

variable {i : Invocation} {s : Surroundings} {st : Settings}

/-- The table that a command takes its settings from: that of the file it names, or of the search
path. -/
def Consults (i : Invocation) (s : Surroundings) (table : Toml.Table) : Prop :=
  match i.configPath with
  | some path => Settings.Loads s.read path table
  | none => Settings.Taken s.read (Settings.searchPath s.env) table

/-- **The settings of a command** are those of the table that it consults, with the environment in
force. -/
theorem settings_eq_ok_iff : i.settings s = .ok st ↔
    ∃ table t, i.Consults s table ∧ Settings.ofTable? table = some t ∧ st = t.override s.env := by
  unfold settings Consults
  cases i.configPath with
  | some path =>
    simp only [← Settings.loadWith_eq_ok_iff]
    cases Settings.loadWith s.env s.read path <;> simp [Except.mapError]
  | none =>
    simp only [Except.ok.injEq]
    constructor
    · rintro rfl
      obtain ⟨table, htaken⟩ := Settings.exists_taken s.read (Settings.searchPath s.env)
      obtain ⟨t, ht, hload⟩ := Settings.loadDefault_of_taken htaken
      exact ⟨table, t, htaken, ht, hload⟩
    · rintro ⟨table, t, htaken, ht, rfl⟩
      obtain ⟨t', ht', hload⟩ := Settings.loadDefault_of_taken htaken
      obtain rfl := Option.some.inj (ht.symm.trans ht')
      exact hload

/-- A command that compiles a request, and one that answers several, has its options from its
settings. -/
theorem effect_of_settings {c : Catalog} (hst : i.settings s = .ok st)
    (hc : loadCatalog s.read (i.mappingFile? st) = .ok c) :
    (∀ input, i.command = .compile input →
      i.effect s = .finish (outcomeOf (Engine.compile ⟨c.lookup, st.defaults⟩ s.now input))) ∧
    (i.command = .repl → i.effect s = .converse ⟨c.lookup, st.defaults⟩) := by
  have heffect {e : Effect} (h : i.effectWith s st = .ok e) : i.effect s = e := by
    have hbind : (i.settings s >>= i.effectWith s) = .ok e := by
      rw [hst]
      exact h
    unfold effect
    rw [hbind]
  constructor
  · intro input hcommand
    apply heffect
    unfold effectWith
    rw [hcommand, hc]
    rfl
  · intro hcommand
    apply heffect
    unfold effectWith
    rw [hcommand, hc]
    rfl

end Invocation

/-! ### Requests -/

namespace Options

variable {base o : Options} {ps : List (String × String)}

/-- **What a clause says**: what its last pair with the key of the option says. -/
def Slot.ClauseSays (k : Slot) (ps : List (String × String)) (v : k.Setting) : Prop :=
  ∃ value, LastValue ps k.key value ∧ k.Says value v

theorem Settled.fixes (h : Settled base ps o) {k : Slot} {lower : k.Setting → Prop}
    (hlower : Fixes lower (base.get k)) : Fixes (Over (k.ClauseSays ps) lower) (o.get k) := by
  by_cases hkey : ∃ p ∈ ps, p.1 = k.key
  · obtain ⟨before, ⟨key, value⟩, after, rfl, rfl, hafter⟩ := exists_last hkey
    have hlast : LastValue (before ++ (k.key, value) :: after) k.key value :=
      ⟨before, after, rfl, hafter⟩
    refine Fixes.over fun v => ?_
    constructor
    · rintro ⟨value', hlast', hv⟩
      exact hv.unique (h.last k value' hlast')
    · rintro rfl
      exact ⟨value, hlast, h.last k value hlast⟩
  · have hrest : o.get k = base.get k := h.rest k fun p hp hpk => hkey ⟨p, hp, hpk⟩
    rw [hrest]
    refine hlower.under ?_
    rintro v ⟨value, ⟨before, after, rfl, -⟩, -⟩
    exact hkey ⟨(k.key, value), by simp, rfl⟩

/-- **A clause over the options that it starts from.** It can be set unless a pair is refused. -/
theorem setAll_eq_ok_iff {lower : (k : Slot) → k.Setting → Prop}
    (hlower : ∀ k, Fixes (lower k) (base.get k)) :
    base.setAll ps = .ok o ↔
      (∀ p ∈ ps, ∀ e, ¬Refused p e) ∧
        ∀ k : Slot, Fixes (Over (k.ClauseSays ps) (lower k)) (o.get k) := by
  constructor
  · intro h
    exact ⟨not_refused_of_setAll h, fun k => (setAll_settled h).fixes (hlower k)⟩
  · rintro ⟨haccepted, hfixes⟩
    cases hset : base.setAll ps with
    | error e =>
      obtain ⟨before, p, after, rfl, -, hp⟩ := setAll_eq_error_iff.1 hset
      exact absurd hp (haccepted p (by simp) e)
    | ok o' =>
      have hget : ∀ k, o'.get k = o.get k :=
        fun k => ((setAll_settled hset).fixes (hlower k)).unique (hfixes k)
      rw [ext_get hget]

/-- **An option in force**: what the clause says over what the environment says, over what the file
says, over the default. -/
def Slot.InForce (k : Slot) (table : Toml.Table) (env : Environment) (ps : List (String × String)) :
    k.Setting → Prop :=
  Over (k.ClauseSays ps) ((Settings.Item.option k).InForce table env)

end Options

/-- Every document but that of a count has the size of the options. -/
theorem Document.size_of_ofCondition {lookup : Lookup} {o : Options} {c : Condition} {d : Document}
    (h : ofCondition lookup o c = .ok d) :
    d.toJson.get? "size" = if o.queryType = .count then none else some (.int o.size) := by
  obtain ⟨-, -, ⟨ht, hd⟩ | ⟨ht, hd⟩ | ⟨ht, body, -, hd⟩⟩ := ofCondition_eq_ok.1 h
  · rw [ht, hd]
    rfl
  · rw [ht, hd]
    rfl
  · rw [ht, hd]
    rfl

theorem Engine.compile_eq_ok_iff {e : Engine} {now : Time.Instant} {input : String} {r : Compiled} :
    e.compile now input = .ok r ↔
      ∃ filter clause ps o zone, splitRequest input = .ok (filter, clause) ∧
      Options.pairs clause = .ok ps ∧ e.defaults.setAll ps = .ok o ∧
        Time.Zone.read? o.timeZone = some zone ∧
      Filter.ofText ⟨e.lookup, zone, now⟩ filter = .ok r.tree ∧
      Document.ofCondition e.lookup o r.tree = .ok r.document := by
  constructor
  · intro h
    obtain ⟨o, ⟨filter, clause, zone, hsplit, hclause, hzone, htree⟩, hdocument⟩ :=
      reads_of_compile h
    obtain ⟨ps, hps, hset⟩ := bind_eq_ok.1 hclause
    exact ⟨filter, clause, ps, o, zone, hsplit, hps, hset, orError_eq_ok.1 hzone, htree, hdocument⟩
  · rintro ⟨filter, clause, ps, o, zone, hsplit, hps, hset, hzone, htree, hdocument⟩
    have hclause : Options.ofClause clause e.defaults = .ok o := bind_eq_ok.2 ⟨ps, hps, hset⟩
    rw [compile_of_reads ⟨filter, clause, zone, hsplit, hclause, orError_eq_ok.2 hzone, htree⟩,
      hdocument]
    rfl

/-- **The first layer that says something decides.** A command takes its settings from the file it
names, or from the first file of the search path that loads, or from none, and the environment is in
force in all three cases. Each setting is then what its variable says, or else what its place in the
file says, or else its default; and a variable changes no setting but its own. A request compiled
with such settings starts from them: each of its options is what the last pair with its key says, or
else the setting. Dates are read in the zone that this gives, and the document has the size that
this gives, unless it asks for a count. -/
theorem settings_layered :
    (∀ (env : Environment) (read : FileReader),
      (∃ table, Settings.Taken read (Settings.searchPath env) table) ∧
      ∀ table, Settings.Taken read (Settings.searchPath env) table →
        ∃ s, Settings.ofTable? table = some s ∧ Settings.loadDefault env read = s.override env) ∧
    (∀ (i : Invocation) (u : Surroundings) (st : Settings), i.settings u = .ok st ↔
      ∃ table s, i.Consults u table ∧ Settings.ofTable? table = some s ∧ st = s.override u.env) ∧
    (∀ (i : Invocation) (u : Surroundings) (st : Settings) (c : Catalog), i.settings u = .ok st →
      loadCatalog u.read (i.mappingFile? st) = .ok c →
        (∀ input, i.command = .compile input →
          i.effect u = .finish (outcomeOf (Engine.compile ⟨c.lookup, st.defaults⟩ u.now input))) ∧
        (i.command = .repl → i.effect u = .converse ⟨c.lookup, st.defaults⟩)) ∧
    (∀ (s : Settings) (env env' : Environment) (name : String), (∀ n, n ≠ name → env' n = env n) →
      ∀ i : Settings.Item, i.variableName? ≠ some name →
        (s.override env').get i = (s.override env).get i) ∧
    ∀ (table : Toml.Table) (s : Settings) (env : Environment), Settings.ofTable? table = some s →
      (∀ i : Settings.Item, Fixes (i.InForce table env) ((s.override env).get i)) ∧
      ∀ (lookup : Lookup) (now : Time.Instant) (input : String) (r : Compiled),
        Engine.compile ⟨lookup, (s.override env).defaults⟩ now input = .ok r ↔
          ∃ filter clause ps o zone, splitRequest input = .ok (filter, clause) ∧
            Options.pairs clause = .ok ps ∧ (∀ p ∈ ps, ∀ e, ¬Options.Refused p e) ∧
            (∀ k : Options.Slot, Fixes (k.InForce table env ps) (o.get k)) ∧
            Time.Zone.read? o.timeZone = some zone ∧
            Filter.ofText ⟨lookup, zone, now⟩ filter = .ok r.tree ∧
            Document.ofCondition lookup o r.tree = .ok r.document ∧
            r.document.toJson.get? "size" = if o.queryType = .count then none
              else some (.int o.size) := by
  refine ⟨?_, ?_, ?_, ?_, ?_⟩
  · intro env read
    exact ⟨Settings.exists_taken read _, fun table htaken => Settings.loadDefault_of_taken htaken⟩
  · intro i u st
    exact Invocation.settings_eq_ok_iff
  · intro i u st c hst hc
    exact Invocation.effect_of_settings hst hc
  · intro s env env' name henv i hi
    exact Settings.get_override_of_agree henv hi
  · intro table s env hs
    refine ⟨Settings.inForce_fixes hs, ?_⟩
    intro lookup now input r
    have hstart (k : Options.Slot) :
        Fixes ((Settings.Item.option k).InForce table env) ((s.override env).defaults.get k) :=
      Settings.inForce_fixes hs (.option k)
    rw [Engine.compile_eq_ok_iff]
    constructor
    · rintro ⟨filter, clause, ps, o, zone, hsplit, hps, hset, hzone, htree, hdocument⟩
      obtain ⟨haccepted, hfixes⟩ := (Options.setAll_eq_ok_iff hstart).1 hset
      exact ⟨filter, clause, ps, o, zone, hsplit, hps, haccepted, hfixes, hzone, htree, hdocument,
        Document.size_of_ofCondition hdocument⟩
    · rintro ⟨filter, clause, ps, o, zone, hsplit, hps, haccepted, hfixes, hzone, htree, hdocument,
        -⟩
      have hset := (Options.setAll_eq_ok_iff hstart).2 ⟨haccepted, hfixes⟩
      exact ⟨filter, clause, ps, o, zone, hsplit, hps, hset, hzone, htree, hdocument⟩

/-! ### A file and a variable that are passed over -/

/-- One variable is not a number, and one is a zone. -/
def strayEnvironment : Environment
  | "FILTERQL_SIZE" => some "many"
  | "FILTERQL_TIME_ZONE" => some "+01:00"
  | _ => none

/-- The first file has no settings, and the second has a size and a zone. -/
def strayFiles : FileReader
  | "/etc/filterql/config.toml" => .ok "defaults=1"
  | "./config.toml" => .ok "defaults.size=7\ndefaults.time_zone=\"-03:00\""
  | _ => .error .missing

theorem exists_taken_stray :
    ∃ table, Settings.Taken strayFiles (Settings.searchPath strayEnvironment) table := by
  have hfirst : Settings.ofText? "defaults=1" = none :=
    Option.isNone_iff_eq_none.1 (by decide +kernel)
  have hsecond : (Settings.ofText? "defaults.size=7\ndefaults.time_zone=\"-03:00\"").isSome =
      true := by decide +kernel
  obtain ⟨s, hs⟩ := Option.isSome_iff_exists.1 hsecond
  obtain ⟨table, htable, hs⟩ := Option.bind_eq_some_iff.1 hs
  refine ⟨table, .first ["/etc/filterql/config.toml"] [] ?_ ⟨_, rfl, htable, s, hs⟩⟩
  intro path hpath t ⟨text, htext, ht, s', hs'⟩
  obtain rfl := List.mem_singleton.1 hpath
  obtain rfl := Except.ok.inj htext
  cases hfirst.symm.trans (Option.bind_eq_some_iff.2 ⟨t, ht, hs'⟩)

theorem ofText_since : Filter.ofText ⟨.mixed, ⟨60, by decide⟩, ⟨0, 0⟩⟩ "since < now" =
    .ok (.group .and [.leaf ⟨"since", .lt, .single (.text "1970-01-01T01:00:00.000+01:00")⟩]) := by
  have htokens : Token.ofText "since < now" = [.word "since", .operator .lt, .word "now"] := by
    decide +kernel
  unfold Filter.ofText
  rw [htokens]
  rfl

/-- The size is that of the second file, the zone that of the variable, and the interval that of the
clause. -/
theorem settings_layered_passed_over :
    let e : Engine := ⟨.mixed, (Settings.loadDefault strayEnvironment strayFiles).defaults⟩
    let o : Options := { histogramInterval := 5, size := 7, timeZone := "+01:00" }
    ∃ table, Settings.Taken strayFiles (Settings.searchPath strayEnvironment) table ∧
      (∀ k : Options.Slot, Fixes (k.InForce table strayEnvironment [("interval", "5")]) (o.get k)) ∧
      ∃ r, e.compile ⟨0, 0⟩ "since < now; interval = 5" = .ok r ∧
        r.tree = .group .and [.leaf ⟨"since", .lt,
          .single (.text "1970-01-01T01:00:00.000+01:00")⟩] ∧
        r.document.toJson.get? "size" = some (.int 7) := by
  intro e o
  obtain ⟨table, htaken⟩ := exists_taken_stray
  obtain ⟨hload, -, -, -, hlayers⟩ := settings_layered
  obtain ⟨s, hs, hdefault⟩ := (hload _ _).2 _ htaken
  obtain ⟨hsettings, hcompile⟩ := hlayers table s strayEnvironment hs
  have hset : (s.override strayEnvironment).defaults.setAll [("interval", "5")] = .ok o := by
    rw [← hdefault]
    decide +kernel
  have hfixes (k : Options.Slot) :
      Fixes (k.InForce table strayEnvironment [("interval", "5")]) (o.get k) :=
    (Options.setAll_settled hset).fixes (hsettings (.option k))
  refine ⟨table, htaken, hfixes, ?_⟩
  obtain ⟨q, hq⟩ := Filter.lower_ok_of_ofTokens ofText_since
  obtain ⟨document, hdocument⟩ :=
    Document.ofCondition_ok hq (by decide +kernel : o.validate = .ok ()) (by decide)
  have hsize := Document.size_of_ofCondition hdocument
  refine ⟨⟨_, document⟩, ?_, rfl, hsize⟩
  have hengine : e = ⟨.mixed, (s.override strayEnvironment).defaults⟩ := by rw [← hdefault]
  rw [hengine]
  exact (hcompile _ _ _ _).2 ⟨"since < now", "interval = 5", [("interval", "5")], o, _,
    by decide +kernel, by decide +kernel, Options.not_refused_of_setAll hset, hfixes,
    by decide +kernel, ofText_since, hdocument, hsize⟩

end Sift
