import Sift.Proofs.OptionsRoundTrip

/-!
# Later pairs override

The pairs of a clause are set one after the other, and each sets one option, is refused, or changes
nothing. So an option has the value of the last pair with its key, and the order of pairs with
different keys does not matter; but a pair that is refused ends it, also where a later pair would
have set its option anew.

* `Options.Slot`: the seven options, each with its key and with what a value says.
* `Options.set_cases`: what one pair does.
* `Options.setAll_eq_error_iff`, `Options.setAll_settled`: what several pairs do.
* `ofClause_last_pair`: **the last pair with a key decides**, unless a pair is refused.
-/

namespace Sift

theorem QueryType.ofName?_eq_some_iff {s : String} {t : QueryType} :
    QueryType.ofName? s = some t ↔ s = t.name := by
  constructor
  · intro h
    have hname := List.find?_some h
    exact (beq_iff_eq.1 hname).symm
  · rintro rfl
    cases t <;> rfl

namespace Options

/-! ### Slots -/

/-- The options of a request. -/
inductive Slot where
  | queryType
  | aggregationType
  | aggregationField
  | fixedInterval
  | interval
  | size
  | timeZone

namespace Slot

/-- The key of the option in a clause. -/
def key : Slot → String
  | .queryType => "queryType"
  | .aggregationType => "aggregationType"
  | .aggregationField => "aggregationField"
  | .fixedInterval => "fixed_interval"
  | .interval => "interval"
  | .size => "size"
  | .timeZone => "timeZone"

/-- What the option may be set to. -/
def Setting : Slot → Type
  | .queryType => QueryType
  | .aggregationType | .aggregationField => Option String
  | .fixedInterval | .timeZone => String
  | .interval | .size => Int

/-- **What a value in a clause says**: the name of a shape, a number of 64 bits, or itself. -/
def Says : (k : Slot) → String → k.Setting → Prop
  | .queryType, s, t => s = t.name
  | .aggregationType, s, v => v = some s
  | .aggregationField, s, v => v = some s
  | .fixedInterval, s, v => v = s
  | .interval, s, n => Text.DenotesInt64 s n
  | .size, s, n => Text.DenotesInt64 s n
  | .timeZone, s, v => v = s

theorem key_injective {k k' : Slot} (h : k.key = k'.key) : k = k' := by
  cases k <;> cases k' <;> simp_all [key]

end Slot

/-- What the option is set to. -/
def get (o : Options) : (k : Slot) → k.Setting
  | .queryType => o.queryType
  | .aggregationType => o.aggregationType
  | .aggregationField => o.aggregationField
  | .fixedInterval => o.fixedInterval
  | .interval => o.histogramInterval
  | .size => o.size
  | .timeZone => o.timeZone

/-- The options with one of them set. -/
def put (o : Options) : (k : Slot) → k.Setting → Options
  | .queryType, t => { o with queryType := t }
  | .aggregationType, v => { o with aggregationType := v }
  | .aggregationField, v => { o with aggregationField := v }
  | .fixedInterval, v => { o with fixedInterval := v }
  | .interval, n => { o with histogramInterval := n }
  | .size, n => { o with size := n }
  | .timeZone, v => { o with timeZone := v }

variable {o o' : Options} {p : String × String} {ps qs : List (String × String)}
  {key value : String} {e : QueryError}

@[simp] theorem get_put_self (o : Options) (k : Slot) (v : k.Setting) : (o.put k v).get k = v := by
  cases k <;> rfl

theorem get_put_ne (o : Options) {k k' : Slot} (h : k' ≠ k) (v : k.Setting) :
    (o.put k v).get k' = o.get k' := by
  cases k <;> cases k' <;> trivial

theorem ext_get (h : ∀ k, o.get k = o'.get k) : o = o' := by
  obtain ⟨queryType, aggregationType, aggregationField, fixedInterval, interval, size,
    timeZone⟩ := o
  rw [Options.mk.injEq]
  exact ⟨h .queryType, h .aggregationType, h .aggregationField, h .fixedInterval, h .interval,
    h .size, h .timeZone⟩

/-! ### One pair -/

/-- **A pair that cannot be set**, and the error that says so: no shape has the name, or the value
denotes no number of 64 bits. -/
inductive Refused : String × String → QueryError → Prop
  | queryType {value : String} (h : ∀ t : QueryType, value ≠ t.name) :
      Refused ("queryType", value) (.unknownQueryType value)
  | interval {value : String} (h : ∀ n, ¬Text.DenotesInt64 value n) :
      Refused ("interval", value) .invalidInterval
  | size {value : String} (h : ∀ n, ¬Text.DenotesInt64 value n) :
      Refused ("size", value) .invalidSize

theorem readInt64?_eq_none (h : ∀ n, ¬Text.DenotesInt64 value n) :
    Text.readInt64? value = none := by
  rw [Option.eq_none_iff_forall_ne_some]
  intro n hn
  exact h n (Text.readInt64?_eq_some_iff.1 hn)

theorem set_refused (o : Options) (h : Refused p e) : o.set p.1 p.2 = .error e := by
  cases h with
  | @queryType value h =>
    have hnone : QueryType.ofName? value = none := by
      rw [Option.eq_none_iff_forall_ne_some]
      intro t ht
      exact h t (QueryType.ofName?_eq_some_iff.1 ht)
    simp only [set, hnone]
  | interval h => simp only [set, readInt64?_eq_none h]
  | size h => simp only [set, readInt64?_eq_none h]

theorem set_eq_put (o : Options) {k : Slot} {v : k.Setting} (h : k.Says value v) :
    o.set k.key value = .ok (o.put k v) := by
  cases k with
  | queryType =>
    obtain rfl : value = QueryType.name v := h
    exact set_queryType o v
  | interval => simp only [set, Slot.key, Text.readInt64?_eq_some_iff.2 h, put]
  | size => simp only [set, Slot.key, Text.readInt64?_eq_some_iff.2 h, put]
  | aggregationType | aggregationField | fixedInterval | timeZone =>
    cases h
    rfl

theorem set_unknown (o : Options) (h : ∀ k : Slot, key ≠ k.key) : o.set key value = .ok o := by
  unfold set
  split
  · exact absurd rfl (h .queryType)
  · exact absurd rfl (h .aggregationType)
  · exact absurd rfl (h .aggregationField)
  · exact absurd rfl (h .fixedInterval)
  · exact absurd rfl (h .interval)
  · exact absurd rfl (h .size)
  · exact absurd rfl (h .timeZone)
  · rfl

theorem Slot.says_or_refused (k : Slot) (value : String) :
    (∃ v, k.Says value v) ∨ ∃ e, Refused (k.key, value) e := by
  by_cases h : ∃ v, k.Says value v
  · exact .inl h
  · rw [not_exists] at h
    cases k with
    | queryType => exact .inr ⟨_, .queryType h⟩
    | interval => exact .inr ⟨_, .interval h⟩
    | size => exact .inr ⟨_, .size h⟩
    | aggregationType | aggregationField | fixedInterval | timeZone => exact absurd rfl (h _)

/-- **What one pair does**: it sets the option of its key, is refused, or has an unknown key and
changes nothing. -/
theorem set_cases (o : Options) (key value : String) :
    (∃ (k : Slot) (v : k.Setting), key = k.key ∧ k.Says value v ∧
      o.set key value = .ok (o.put k v)) ∨
      (∃ e, Refused (key, value) e ∧ o.set key value = .error e) ∨
      (∀ k : Slot, key ≠ k.key) ∧ o.set key value = .ok o := by
  by_cases h : ∃ k : Slot, key = k.key
  · obtain ⟨k, rfl⟩ := h
    rcases k.says_or_refused value with ⟨v, hv⟩ | ⟨e, he⟩
    · exact .inl ⟨k, v, rfl, hv, set_eq_put o hv⟩
    · exact .inr (.inl ⟨e, he, set_refused o he⟩)
  · rw [not_exists] at h
    exact .inr (.inr ⟨h, set_unknown o h⟩)

theorem set_eq_error_iff : o.set key value = .error e ↔ Refused (key, value) e := by
  constructor
  · intro h
    rcases set_cases o key value with ⟨k, v, -, -, hset⟩ | ⟨e', he', hset⟩ | ⟨-, hset⟩
    · cases h.symm.trans hset
    · cases h.symm.trans hset
      exact he'
    · cases h.symm.trans hset
  · exact set_refused o

/-- A pair sets the option of its key and leaves the others as they are. -/
theorem set_settled (h : o.set key value = .ok o') (k : Slot) :
    (key = k.key → k.Says value (o'.get k)) ∧ (key ≠ k.key → o'.get k = o.get k) := by
  rcases set_cases o key value with ⟨k', v, rfl, hv, hset⟩ | ⟨e, -, hset⟩ | ⟨hunknown, hset⟩
  · cases h.symm.trans hset
    constructor
    · intro hk
      obtain rfl := Slot.key_injective hk
      rwa [get_put_self]
    · intro hk
      refine get_put_ne o ?_ v
      rintro rfl
      exact hk rfl
  · cases h.symm.trans hset
  · cases h.symm.trans hset
    exact ⟨fun hk => absurd hk (hunknown k), fun _ => rfl⟩

/-! ### Several pairs -/

/-- **The error of several pairs is that of the first one that is refused.** -/
theorem setAll_eq_error_iff : o.setAll ps = .error e ↔
    ∃ before p after, ps = before ++ p :: after ∧ (∀ q ∈ before, ∀ e', ¬Refused q e') ∧
      Refused p e := by
  induction ps generalizing o with
  | nil => simp [setAll, pure, Except.pure]
  | cons p ps ih =>
    rw [setAll_eq_bind, bind_eq_error]
    constructor
    · rintro (hp | ⟨o', ho', h⟩)
      · exact ⟨[], p, ps, rfl, by simp, set_eq_error_iff.1 hp⟩
      · obtain ⟨before, q, after, rfl, hbefore, hq⟩ := ih.1 h
        have hp : ∀ e', ¬Refused p e' := by
          intro e' he'
          cases ho'.symm.trans (set_refused o he')
        exact ⟨p :: before, q, after, rfl, List.forall_mem_cons.2 ⟨hp, hbefore⟩, hq⟩
    · rintro ⟨before, q, after, hps, hbefore, hq⟩
      cases before with
      | nil =>
        obtain ⟨rfl, rfl⟩ := List.cons.inj hps
        exact .inl (set_refused o hq)
      | cons p' before =>
        obtain ⟨rfl, rfl⟩ := List.cons.inj hps
        obtain ⟨hp, hbefore⟩ := List.forall_mem_cons.1 hbefore
        cases hset : o.set p.1 p.2 with
        | error e' => exact absurd (set_eq_error_iff.1 hset) (hp e')
        | ok o' => exact .inr ⟨o', rfl, ih.2 ⟨before, q, after, rfl, hbefore, hq⟩⟩

/-- **The last pair with a key** has the value. -/
def LastValue (ps : List (String × String)) (key value : String) : Prop :=
  ∃ before after, ps = before ++ (key, value) :: after ∧ ∀ p ∈ after, p.1 ≠ key

/-- **Options settled by pairs**: each says what the last pair with its key says, and those without
a pair are as they were before. -/
structure Settled (base : Options) (ps : List (String × String)) (o : Options) : Prop where
  last : ∀ (k : Slot) (value : String), LastValue ps k.key value → k.Says value (o.get k)
  rest : ∀ k : Slot, (∀ p ∈ ps, p.1 ≠ k.key) → o.get k = base.get k

/-- **Pairs settle the options.** -/
theorem setAll_settled (h : o.setAll ps = .ok o') : Settled o ps o' := by
  -- on the pairs, from any options: the first pair counts for an option only if no later one has
  -- its key
  induction ps generalizing o with
  | nil =>
    obtain rfl := Except.ok.inj h
    refine ⟨?_, fun _ _ => rfl⟩
    rintro k value ⟨before, after, hps, -⟩
    cases before <;> cases hps
  | cons p ps ih =>
    rw [setAll_eq_bind] at h
    obtain ⟨o₁, hset, h⟩ := bind_eq_ok.1 h
    have hsettled := ih h
    constructor
    · rintro k value ⟨before, after, hps, hafter⟩
      cases before with
      | nil =>
        obtain ⟨rfl, rfl⟩ := List.cons.inj hps
        rw [hsettled.rest k hafter]
        exact (set_settled hset k).1 rfl
      | cons p' before =>
        obtain ⟨rfl, rfl⟩ := List.cons.inj hps
        exact hsettled.last k value ⟨before, after, rfl, hafter⟩
    · intro k hk
      obtain ⟨hp, hps⟩ := List.forall_mem_cons.1 hk
      rw [hsettled.rest k hps]
      exact (set_settled hset k).2 hp

/-! ### The order of pairs -/

/-- The values of a key, in order. -/
def values (key : String) (ps : List (String × String)) : List String :=
  (ps.filter fun p => p.1 == key).map Prod.snd

theorem mem_values : value ∈ values key ps ↔ (key, value) ∈ ps := by
  simp [values]

theorem values_eq_nil_iff : values key ps = [] ↔ ∀ p ∈ ps, p.1 ≠ key := by
  simp [values]

theorem lastValue_of_values {vs : List String} (h : values key ps = vs ++ [value]) :
    LastValue ps key value := by
  obtain ⟨qs, rs, hfilter, -, hlast⟩ := List.map_eq_append_iff.1 h
  obtain ⟨r, rs', rfl, rfl, hnil⟩ := List.map_eq_cons_iff.1 hlast
  obtain rfl := List.map_eq_nil_iff.1 hnil
  obtain ⟨front, back, rfl, -, hback⟩ := List.filter_eq_append_iff.1 hfilter
  obtain ⟨before, after, rfl, -, hr, hafter⟩ := List.filter_eq_cons_iff.1 hback
  obtain rfl := beq_iff_eq.1 hr
  refine ⟨front ++ before, after, by simp, ?_⟩
  intro p hp
  simpa using List.filter_eq_nil_iff.1 hafter p hp

theorem Slot.Says.unique {k : Slot} {a b : k.Setting} (ha : k.Says value a) (hb : k.Says value b) :
    a = b := by
  have hput := Except.ok.inj ((set_eq_put default ha).symm.trans (set_eq_put default hb))
  simpa using congrArg (fun o => o.get k) hput

/-- Options are settled by the values of the seven keys, each in its order. -/
theorem Settled.eq_of_values {base : Options} (h : Settled base ps o) (h' : Settled base qs o')
    (hvalues : ∀ k : Slot, values k.key ps = values k.key qs) : o = o' := by
  refine ext_get fun k => ?_
  rcases List.eq_nil_or_concat (values k.key ps) with hnil | ⟨vs, v, hlast⟩
  · rw [h.rest k (values_eq_nil_iff.1 hnil),
      h'.rest k (values_eq_nil_iff.1 ((hvalues k).symm.trans hnil))]
  · rw [List.concat_eq_append] at hlast
    have hv := h.last k v (lastValue_of_values hlast)
    have hv' := h'.last k v (lastValue_of_values ((hvalues k).symm.trans hlast))
    exact hv.unique hv'

theorem Refused.exists_slot (h : Refused p e) : ∃ k : Slot, p.1 = k.key := by
  cases h with
  | queryType => exact ⟨.queryType, rfl⟩
  | interval => exact ⟨.interval, rfl⟩
  | size => exact ⟨.size, rfl⟩

theorem not_refused_of_setAll (h : o.setAll ps = .ok o') : ∀ p ∈ ps, ∀ e, ¬Refused p e := by
  induction ps generalizing o with
  | nil => simp
  | cons p ps ih =>
    rw [setAll_eq_bind] at h
    obtain ⟨o₁, hset, h⟩ := bind_eq_ok.1 h
    refine List.forall_mem_cons.2 ⟨?_, ih h⟩
    intro e he
    cases hset.symm.trans (set_refused o he)

/-- **Pairs can be reordered** if those with one key keep their order, and pairs with an unknown key
can be left out. -/
theorem setAll_of_values (h : o.setAll ps = .ok o')
    (hvalues : ∀ k : Slot, values k.key qs = values k.key ps) :
    o.setAll qs = .ok o' := by
  cases hqs : o.setAll qs with
  | error e =>
    obtain ⟨before, p, after, rfl, -, hp⟩ := setAll_eq_error_iff.1 hqs
    obtain ⟨k, hk⟩ := hp.exists_slot
    have hmem : p.2 ∈ values k.key (before ++ p :: after) := by
      rw [mem_values, ← hk]
      simp
    rw [hvalues k, mem_values, ← hk] at hmem
    exact absurd hp (not_refused_of_setAll h p hmem e)
  | ok o₁ => rw [(setAll_settled hqs).eq_of_values (setAll_settled h) hvalues]

theorem values_of_perm (h : qs.Perm ps) (hkeys : (ps.map Prod.fst).Nodup) (key : String) :
    values key qs = values key ps := by
  have hperm : (values key qs).Perm (values key ps) := (h.filter _).map _
  have hlength : (values key ps).length ≤ 1 := by
    have hcount := List.nodup_iff_count.1 hkeys key
    rwa [List.count, List.countP_map, List.countP_eq_length_filter, ← List.length_map Prod.snd]
      at hcount
  match hvalues : values key ps, hlength with
  | [], _ =>
    rw [hvalues] at hperm
    exact hperm.eq_nil
  | [v], _ =>
    rw [hvalues] at hperm
    exact List.perm_singleton.1 hperm

end Options

/-- **The last pair with a key decides.** If a fragment of the clause is no pair, its error is the
result, whatever the pairs before it are. Otherwise the first pair that cannot be set gives the
error, also where a later pair has its key. If all can be set, each option says what the last pair
with its key says, or is as it was before. So pairs can be reordered where those with one key keep
their order, and pairs with other keys do not count. -/
theorem ofClause_last_pair (clause : String) (base : Options) :
    (∀ e, Options.pairs clause = .error e → Options.ofClause clause base = .error e) ∧
    ∀ ps, Options.pairs clause = .ok ps →
      (∀ before p after e, ps = before ++ p :: after → (∀ q ∈ before, ∀ e', ¬Options.Refused q e') →
        Options.Refused p e → Options.ofClause clause base = .error e) ∧
      ((∀ p ∈ ps, ∀ e, ¬Options.Refused p e) →
        ∃ o, Options.ofClause clause base = .ok o ∧ Options.Settled base ps o) ∧
      ∀ o, Options.ofClause clause base = .ok o → ∀ clause' ps', Options.pairs clause' = .ok ps' →
        ((∀ k : Options.Slot, Options.values k.key ps' = Options.values k.key ps) →
          Options.ofClause clause' base = .ok o) ∧
        (ps'.Perm ps → (ps.map Prod.fst).Nodup → Options.ofClause clause' base = .ok o) := by
  have hofClause {clause : String} {ps : List (String × String)}
    (h : Options.pairs clause = .ok ps) :
      Options.ofClause clause base = base.setAll ps := by
    rw [Options.ofClause, h, ok_bind]
  constructor
  · intro e he
    rw [Options.ofClause, he]
    rfl
  · intro ps hps
    rw [hofClause hps]
    refine ⟨?_, ?_, ?_⟩
    · intro before p after e hsplit hbefore hp
      exact Options.setAll_eq_error_iff.2 ⟨before, p, after, hsplit, hbefore, hp⟩
    · intro haccepted
      cases hset : base.setAll ps with
      | error e =>
        obtain ⟨before, p, after, rfl, -, hp⟩ := Options.setAll_eq_error_iff.1 hset
        exact absurd hp (haccepted p (by simp) e)
      | ok o => exact ⟨o, rfl, Options.setAll_settled hset⟩
    · intro o ho clause' ps' hps'
      rw [hofClause hps']
      constructor
      · exact Options.setAll_of_values ho
      · intro hperm hkeys
        exact Options.setAll_of_values ho fun k => Options.values_of_perm hperm hkeys k.key

/-- A size that is set twice around an unknown key; a number that cannot be read, before a fragment
that is no pair and before a pair that has its key; and two pairs in either order. -/
theorem ofClause_last_pair_repeated :
    let base : Options := { timeZone := "+01:00" }
    (∃ o, Options.ofClause "size = 3, pretty = yes, queryType = count, size = +04" base = .ok o ∧
      Text.DenotesInt64 "+04" o.size ∧ o.timeZone = "+01:00") ∧
    Options.ofClause "interval = 1.5, queryType" base = .error (.invalidOption "queryType") ∧
    Options.ofClause "interval = 1.5, queryType = find, interval = 2" base =
      .error .invalidInterval ∧
    ∀ o, Options.ofClause "size = 4, timeZone = Z" base = .ok o →
      Options.ofClause "timeZone = Z, size = 4" base = .ok o := by
  intro base
  refine ⟨?_, ?_, ?_, ?_⟩
  · have hpairs : Options.pairs "size = 3, pretty = yes, queryType = count, size = +04" =
        .ok [("size", "3"), ("pretty", "yes"), ("queryType", "count"), ("size", "+04")] := by
          decide +kernel
    have hset : base.setAll
        [("size", "3"), ("pretty", "yes"), ("queryType", "count"), ("size", "+04")] =
        .ok { base with queryType := .count, size := 4 } := by decide +kernel
    obtain ⟨o, ho, hsettled⟩ :=
      ((ofClause_last_pair _ base).2 _ hpairs).2.1 (Options.not_refused_of_setAll hset)
    have hsize := hsettled.last .size "+04"
      ⟨[("size", "3"), ("pretty", "yes"), ("queryType", "count")], [], rfl, by simp⟩
    have hzone := hsettled.rest .timeZone (by decide)
    exact ⟨o, ho, hsize, hzone⟩
  · exact (ofClause_last_pair _ base).1 _ (by decide +kernel)
  · have hpairs : Options.pairs "interval = 1.5, queryType = find, interval = 2" =
        .ok [("interval", "1.5"), ("queryType", "find"), ("interval", "2")] := by decide +kernel
    have hrefused : Options.Refused ("interval", "1.5") .invalidInterval :=
      Options.set_eq_error_iff.1 (by decide +kernel :
        base.set "interval" "1.5" = .error .invalidInterval)
    exact ((ofClause_last_pair _ base).2 _ hpairs).1 [] _ _ _ rfl (by simp) hrefused
  · intro o ho
    have hpairs : Options.pairs "size = 4, timeZone = Z" =
        .ok [("size", "4"), ("timeZone", "Z")] := by decide +kernel
    have hpairs' : Options.pairs "timeZone = Z, size = 4" =
        .ok [("timeZone", "Z"), ("size", "4")] := by decide +kernel
    exact (((ofClause_last_pair _ base).2 _ hpairs).2.2 o ho _ _ hpairs').2 (.swap _ _ _)
      (by decide)

end Sift
