import LaunchConfig.Proofs.Arguments.LeftOut

/-!
# The long names of an option

Registration keeps every long name of an option from other options: the long name that it
is given, and its id if that has several characters. An option that has both is typed by
the first only. Its id then stands for nothing at all, as no other option may have it.

Results:

* `typedLong?_eq_some_iff`: which of its long names an option is typed by;
* `parse_unknownLong`: what becomes of one that stands for nothing;
* `Schema.answers_longName_iff`: the long names that an option answers to.
-/

namespace LaunchConfig

variable {s : Schema} {o : OptionSpec} {l : String}

/-! ## The name that is typed -/

/-- Of the long names of an option that can be typed, it is typed by the one that it was
    given, and by its id only if it was given none. -/
theorem OptionSpec.Typable.typedLong?_eq_some_iff (ho : o.Typable) (hl : l ∈ o.longNames) :
    o.typedLong? = some l ↔ o.long? = none ∨ o.long? = some l := by
  have hdash {name : String} (hname : name ∈ o.longNames) : withoutDashes name = name :=
    withoutDashes_of_head_ne (ho name (List.mem_cons_of_mem _ hname)).2.1
  cases hlong : o.long? with
  | none =>
    -- without a long name of its own, `l` is the id
    have hid : o.short?.isNone = true ∧ l = o.id := by
      simpa [longNames, hlong] using hl
    have hmem : o.id ∈ o.longNames := hid.2 ▸ hl
    simp [typedLong?, hlong, hid.1, hid.2, hdash hmem]
  | some l' =>
    have hmem : l' ∈ o.longNames := by simp [longNames, hlong]
    simp [typedLong?, hlong, hdash hmem]

/-- A long name that is kept for an option stands for that option or for nothing. -/
theorem Grammar.long?_eq_none_of_typedLong?_ne {g : Grammar} (hs : g.schema.Distinct)
    (ht : g.schema.Typable) (ho : o ∈ g.schema.options) (hl : l ∈ o.longNames)
    (hne : o.typedLong? ≠ some l) : g.long? l = none := by
  have hres : l ∉ reservedNames := hs.unreserved o ho l (List.mem_cons_of_mem _ hl)
  cases hn : g.long? l with
  | none => rfl
  | some n =>
    cases n with
    | option o' =>
      obtain ⟨ho', hl'⟩ := (long?_eq_option_iff hs ht).1 hn
      obtain rfl := hs.eq_of_long ho ho' hl ((ht o' ho').typedLong?_mem hl')
      exact absurd hl' hne
    | help =>
      obtain rfl : "help" = l := Option.some.inj (long?_eq_some hn)
      exact absurd (by decide) hres
    | version =>
      obtain rfl : "version" = l := Option.some.inj (long?_eq_some hn)
      exact absurd (by decide) hres

/-! ## Arguments that begin with a long name -/

theorem Grammar.parse_unknownLong {g : Grammar} (hg : g.schema.Parsable) (hl : TypableName l)
    (hnone : g.long? l = none) (rest : List String) :
    g.parse ((("--" ++ l) :: rest).map .ofString) = .error (.usage (.unknownLong l)) := by
  have hlossy : (RawText.ofString l).lossy = l := by
    rw [RawText.lossy_of_readable (RawText.readable_ofString l), RawText.text_ofString]
  have hstep : g.step .ready (.ofString ("--" ++ l)) = ([], .error (.usage (.unknownLong l))) := by
    simp only [step, readToken, Token.ofRaw_longName hl, readLong, longNamed?_ofString, hnone,
      hlossy]
  have hrest : (rest.map RawText.ofString).all RawText.readable = true := by
    simp
  rw [parse_of_parsable hg, List.map_cons, scan_cons_error hstep, Halt.before_of_readable hrest]
  rfl

theorem Schema.exists_parse_of_splits_singleton (hs : s.Distinct) (ht : s.Typable)
    {ts : List String} {u : Occurrence} (h : Splits s ts [u]) (hu : ∀ o', u ≠ .bare o') :
    ∃ p, s.parse (ts.map .ofString) = .ok p ∧ Occurrence.Reads [u] p := by
  have hadm : Occurrence.Admissible [u] := by
    refine ⟨fun o' _ => List.countP_le_length, fun o' ho' => ?_⟩
    exact absurd (List.mem_singleton.1 ho').symm (hu o')
  obtain ⟨p, hp⟩ := Occurrence.exists_reads hs h.of
  exact ⟨p, (parse_ofString_eq_ok_iff hs ht).2 ⟨[u], h, hadm, hp⟩, hp⟩

/-! ## What a long name answers to -/

namespace Schema

/-- The arguments form a command line on which the option is present with these values, and
    no other option is. -/
def ReadAs (s : Schema) (ts : List String) (o : OptionSpec) (vs : List String) : Prop :=
  ∃ p, s.parse (ts.map .ofString) = .ok p ∧ (∀ id, p.has id = true ↔ id = o.id) ∧
    p.values o.id = vs

/-- The option is read from the long name: alone if it is a flag, and else together with
    any value that does not begin with a dash. -/
structure Answers (s : Schema) (o : OptionSpec) (l : String) : Prop where
  flag : o.takesValue = false → s.ReadAs ["--" ++ l] o []
  valued : o.takesValue = true → ∀ v : String, v.toList.head? ≠ some '-' →
    s.ReadAs ["--" ++ l, v] o [v]

theorem answers_of_typedLong? (hs : s.Distinct) (ht : s.Typable) (ho : o ∈ s.options)
    (hl : o.typedLong? = some l) : s.Answers o l := by
  -- whatever its value, the option is all that occurs
  have hone {ts vs : List String} {u : Occurrence} (hsplit : Splits s ts [u])
      (hbare : ∀ o', u ≠ .bare o') (hu : u.option? = some o)
      (hvs : [u].filterMap (Occurrence.valueFor? o.id) = vs) : s.ReadAs ts o vs := by
    obtain ⟨p, hp, hreads⟩ := exists_parse_of_splits_singleton hs ht hsplit hbare
    refine ⟨p, hp, fun id => ?_, (hreads.values_eq o.id).trans hvs⟩
    rw [hreads.has_iff]
    simp [hu, eq_comm]
  constructor
  · intro hflag
    exact hone (.named (.longFlag ho hflag hl) .nil) nofun rfl rfl
  · intro hv v hdash
    have hplain : Token.IsPlain (.ofString v) := .inl hdash
    have hsplit : Splits s ["--" ++ l, v] [.valued o v] :=
      .detached (.longOpened ho hv hl) hplain .nil
    exact hone hsplit nofun rfl (by simp [Occurrence.valueFor?])

/-- **The long names that an option answers to.** In a schema reached by registration, whose
    names can be typed, an option answers to a long name that is kept for it exactly if it was
    given no long name, or just this one. Otherwise the name is unknown, whatever comes after
    it. -/
theorem answers_longName_iff (hs : s.Registered) (ht : s.Typable) (ho : o ∈ s.options)
    (hl : l ∈ o.longNames) :
    (s.Answers o l ↔ o.long? = none ∨ o.long? = some l) ∧
    (¬ (o.long? = none ∨ o.long? = some l) → ∀ rest : List String,
      s.parse ((("--" ++ l) :: rest).map .ofString) = .error (.usage (.unknownLong l))) := by
  have hd : s.Distinct := hs.distinct
  have htyp : TypableName l := ht o ho l (List.mem_cons_of_mem _ hl)
  have htyped := (ht o ho).typedLong?_eq_some_iff hl
  have hunknown (hne : ¬ (o.long? = none ∨ o.long? = some l)) (rest : List String) :
      s.parse ((("--" ++ l) :: rest).map .ofString) = .error (.usage (.unknownLong l)) := by
    have hnone : Grammar.long? ⟨s, false⟩ l = none :=
      Grammar.long?_eq_none_of_typedLong?_ne hd ht ho hl fun h => hne (htyped.1 h)
    exact Grammar.parse_unknownLong (hd.parsable ht) htyp hnone rest
  refine ⟨⟨fun h => ?_, fun h => answers_of_typedLong? hd ht ho (htyped.2 h)⟩, hunknown⟩
  by_contra hne
  cases hv : o.takesValue with
  | false =>
    obtain ⟨p, hp, -⟩ := h.flag hv
    rw [hunknown hne []] at hp
    cases hp
  | true =>
    obtain ⟨p, hp, -⟩ := h.valued hv "" (by decide)
    rw [hunknown hne [""]] at hp
    cases hp

/-- An option with an id of several characters and a long name of its own takes its values
    after the long name, and is not known by its id. -/
theorem answers_longName_beta :
    (ofOptions [{ id := "alpha", long? := some "beta", arity := .multiple }]).Registered ∧
    (ofOptions [{ id := "alpha", long? := some "beta", arity := .multiple }]).Typable ∧
    (ofOptions [{ id := "alpha", long? := some "beta", arity := .multiple }]).ReadAs
      ["--beta", "a=-b"] { id := "alpha", long? := some "beta", arity := .multiple } ["a=-b"] ∧
    (ofOptions [{ id := "alpha", long? := some "beta", arity := .multiple }]).parse
      (["--alpha", "x"].map .ofString) = .error (.usage (.unknownLong "alpha")) := by
  have hs := registered_ofOptions [{ id := "alpha", long? := some "beta", arity := .multiple }]
  have ht : (ofOptions [{ id := "alpha", long? := some "beta", arity := .multiple }]).Typable := by
    decide
  have hbeta := answers_longName_iff hs ht List.mem_cons_self (l := "beta") (by decide)
  have halpha := answers_longName_iff hs ht List.mem_cons_self (l := "alpha") (by decide)
  exact ⟨hs, ht, (hbeta.1.2 (.inr rfl)).valued rfl "a=-b" (by decide),
    halpha.2 (by decide) ["x"]⟩

/-- Of the two long names that are kept for an option, `alpha` and `beta`, the option does not
    answer to the first, which is its id. -/
theorem not_answers_longId :
    (ofOptions [{ id := "alpha", long? := some "beta" }]).Registered ∧
    (ofOptions [{ id := "alpha", long? := some "beta" }]).Typable ∧
    { id := "alpha", long? := some "beta" }
      ∈ (ofOptions [{ id := "alpha", long? := some "beta" }]).options ∧
    "alpha" ∈ ({ id := "alpha", long? := some "beta" } : OptionSpec).longNames ∧
    (ofOptions [{ id := "alpha", long? := some "beta" }]).parse (["--alpha"].map .ofString)
      = .error (.usage (.unknownLong "alpha")) ∧
    ¬ (ofOptions [{ id := "alpha", long? := some "beta" }]).Answers
      { id := "alpha", long? := some "beta" } "alpha" := by
  have hparse : (ofOptions [{ id := "alpha", long? := some "beta" }]).parse
      (["--alpha"].map .ofString) = .error (.usage (.unknownLong "alpha")) := by
    decide
  refine ⟨registered_ofOptions _, by decide, by decide, by decide, hparse, fun h => ?_⟩
  obtain ⟨p, hp, -⟩ := h.flag rfl
  have hrefused : (ofOptions [{ id := "alpha", long? := some "beta" }]).parse
      (["--alpha"].map .ofString) = .ok p := hp
  rw [hparse] at hrefused
  cases hrefused

end Schema
end LaunchConfig
