import LaunchConfig.Proofs.Arguments.Writing
import LaunchConfig.Proofs.Conversion.Layering
import LaunchConfig.Proofs.Conversion.LoggingSource

/-!
# Grammars that know more names

A grammar goes as far as another if each name that stands for an option in the one stands for
the same option in the other. Arguments that form a command line hold no other names, so that
the other grammar reads them alike. An option that is registered later answers to a name only
where no option before it does, and takes no name away. But with an option whose names cannot be
told from those before it no arguments are read at all.

Results:

* `Within.scan`, `Within.parse`: what is read in a grammar is read alike in one that
  goes as far;
* `within_of_prefix`: a schema goes as far as one whose options it begins with;
* `parse_extended`: registering more options changes no command line.
-/

namespace LaunchConfig

/-! ## Reading in a grammar that goes as far -/

namespace Grammar

variable {g g' : Grammar}

/-- The options that names stand for in `g` are those that they stand for in `g'`. -/
structure Within (g g' : Grammar) : Prop where
  short {c : Char} {o : OptionSpec} :
    g.short? c = some (.option o) → g'.short? c = some (.option o)
  long {l : String} {o : OptionSpec} :
    g.long? l = some (.option o) → g'.long? l = some (.option o)

namespace Within

theorem readCluster (h : g.Within g') {junk : List UInt8} {cs : List Char} {items : List Item}
    {m : Mode} (hread : g.readCluster junk cs = (items, .ok m)) :
    g'.readCluster junk cs = (items, .ok m) := by
  induction cs generalizing items with
  | nil => exact hread
  | cons c rest ih =>
    unfold Grammar.readCluster at hread ⊢
    split at hread
    · cases hread
    · cases hread
    · cases hread
    · next o hc =>
      rw [h.short hc]
      dsimp only
      split at hread
      · next ht => rw [if_pos ht, hread]
      · next hf =>
        rcases hrec : g.readCluster junk rest with ⟨items', next⟩
        rw [hrec] at hread
        cases hread
        rw [if_neg hf, ih hrec]

theorem readLong (h : g.Within g') {name : RawText} {v? : Option RawText} {items : List Item}
    {m : Mode} (hread : g.readLong name v? = (items, .ok m)) :
    g'.readLong name v? = (items, .ok m) := by
  unfold Grammar.readLong at hread
  cases hn : g.longNamed? name with
  | none =>
    rw [hn] at hread
    cases hread
  | some n =>
    obtain ⟨hr, hlook⟩ := longNamed?_eq_some hn
    rw [hn] at hread
    cases n with
    | help => cases v? <;> cases hread
    | version => cases v? <;> cases hread
    | option o =>
      have hn' : g'.longNamed? name = some (.option o) := by
        rw [longNamed?, if_pos hr, h.long hlook]
      unfold Grammar.readLong
      rw [hn']
      exact hread

theorem readToken (h : g.Within g') {a : RawText} {items : List Item} {m : Mode}
    (hread : g.readToken a = (items, .ok m)) : g'.readToken a = (items, .ok m) := by
  unfold Grammar.readToken at hread ⊢
  cases htok : Token.ofRaw a with
  | escape => rwa [htok] at hread
  | plain => rwa [htok] at hread
  | long name v? =>
    rw [htok] at hread
    exact h.readLong hread
  | cluster letters =>
    rw [htok] at hread
    exact h.readCluster hread

/-- One argument is read alike. -/
theorem step (h : g.Within g') {m m' : Mode} {a : RawText} {items : List Item}
    (hread : g.step m a = (items, .ok m')) : g'.step m a = (items, .ok m') := by
  cases m with
  | ready => exact h.readToken hread
  | trailing o? => exact hread
  | awaiting o =>
    by_cases hplain : Token.ofRaw a = .plain
    · simp only [Grammar.step, hplain] at hread ⊢
      exact hread
    by_cases hescape : Token.ofRaw a = .escape
    · simp only [Grammar.step, hescape] at hread ⊢
      exact hread
    · rw [step_awaiting o hplain hescape] at hread ⊢
      obtain ⟨rfl, hnext⟩ := Prod.mk.inj hread
      rw [h.readToken (Prod.ext rfl hnext)]

theorem scan (h : g.Within g') {m m' : Mode} {args : List RawText} {items : List Item}
    (hread : g.scan m args = (items, .ok m')) : g'.scan m args = (items, .ok m') := by
  induction args generalizing m items with
  | nil => exact hread
  | cons a rest ih =>
    rcases hstep : g.step m a with ⟨items₁, halt | m₁⟩
    · rw [scan_cons_error hstep] at hread
      cases (Prod.mk.inj hread).2
    · rw [scan_cons_ok hstep] at hread
      obtain ⟨rfl, hnext⟩ := Prod.mk.inj hread
      rw [scan_cons_ok (h.step hstep), ih (Prod.ext rfl hnext)]

/-- Arguments that form a command line form the same one, if the names of the other grammar
    can be told apart. -/
theorem parse (h : g.Within g') (hg' : g'.schema.Parsable) {args : List RawText}
    {p : CommandLine} (hp : g.parse args = .ok p) : g'.parse args = .ok p := by
  rw [parse_eq_ok_iff (parsable_of_parse hp)] at hp
  rw [parse_eq_ok_iff hg']
  obtain ⟨items, m, hscan, hitems⟩ := hp
  exact ⟨items, m, h.scan hscan, hitems⟩

end Within

/-! ## Schemas that begin alike -/

/-- The flags that are not registered come after all options, so that they stand for a
    name only if no option does. -/
theorem find?_names_eq_option_iff {P : Named → Bool} {o : OptionSpec} :
    g.names.find? P = some (.option o) ↔
      g.schema.options.find? (fun o => P (.option o)) = some o := by
  have hgenerated : g.generated.find? P ≠ some (.option o) := fun h =>
    option_notMem_generated (List.mem_of_find?_eq_some h)
  have hcomp : (fun o => P (.option o)) = P ∘ Named.option := rfl
  rw [names, List.find?_append, List.find?_map, hcomp]
  cases g.schema.options.find? (P ∘ Named.option) with
  | none => simpa using hgenerated
  | some o' => simp

/-- A schema goes as far as one whose options it begins with. -/
theorem within_of_prefix (h : g.schema.options <+: g'.schema.options) : g.Within g' := by
  obtain ⟨more, hmore⟩ := h
  have hfind {P : Named → Bool} {o : OptionSpec} (hP : g.names.find? P = some (.option o)) :
      g'.names.find? P = some (.option o) := by
    rw [find?_names_eq_option_iff] at hP ⊢
    rw [← hmore, List.find?_append, hP, Option.some_or]
  exact ⟨hfind, hfind⟩

end Grammar

namespace Schema

variable {s s' : Schema}

theorem parse_of_prefix (h : s.options <+: s'.options) (hs' : s'.Parsable)
    {args : List RawText} {p : CommandLine} (hp : s.parse args = .ok p) :
    s'.parse args = .ok p :=
  have hwithin : Grammar.Within ⟨s, false⟩ ⟨s', false⟩ := Grammar.within_of_prefix h
  hwithin.parse hs' hp

end Schema

/-! ## Logging options alone, and all options -/

theorem options_configureLogging :
    (configureLogging .standard ∅).schema.options = LoggingOption.all := by
  decide +kernel

theorem not_broken_of_logging {p : CommandLine}
    (hp : ∀ id, p.has id = true → ∃ o ∈ LoggingOption.all, o.id = id) (r : Rule)
    (e : ConversionError) : ¬ r.Broken p e := by
  have hlogging : ∀ o ∈ LoggingOption.all, o.id ∉ ["C", "e", "S", "A"] := by decide
  refine Rule.not_broken_of_absent (fun id hid => Bool.eq_false_iff.2 fun hhas => ?_) r e
  obtain ⟨o, ho, rfl⟩ := hp id hhas
  exact hlogging o ho hid

/-- **More options change no command line.** When one more option is registered, and its names
    can be told from those before it, arguments that formed a command line form the same one.
    They can be if all names are such as can be typed. Arguments that form a command line of
    the logging options alone form the same one when all options are known, and the conversion
    of that command line succeeds, with the logging settings that the logging options give. -/
theorem parse_extended :
    (∀ (s s' : Schema) (o : OptionSpec), s.Registered → s.register o = .ok s' →
      (s.Typable → o.Typable → s'.Parsable) ∧
      (s'.Parsable → ∀ (args : List (List UInt8)) (p : CommandLine),
        s.parse (args.map .ofBytes) = .ok p → s'.parse (args.map .ofBytes) = .ok p)) ∧
    ∀ (args : List (List UInt8)) (p : CommandLine),
      (configureLogging .standard ∅).schema.parse (args.map .ofBytes) = .ok p →
        (buildSchema .standard).parse (args.map .ofBytes) = .ok p ∧
        ∀ t : Configuration, ∃ c, (Conversion.convertWith .standard p t).result = .ok c ∧
          LoggingSource.standard.convert p t.logging = .ok c.logging := by
  refine ⟨fun s s' o hs hreg => ?_, fun args p hp => ⟨?_, fun t => ?_⟩⟩
  · have hs' : s'.Distinct := (hs.register hreg).distinct
    obtain ⟨hnone, rfl⟩ := Schema.register_eq_ok_iff.1 hreg
    have hoptions : (s.add o).options = s.options ++ [o] :=
      Schema.options_add hs.inStep (Schema.contains_of_refusal? hnone)
    refine ⟨fun ht ho => hs'.parsable ?_, fun hparsable args p => ?_⟩
    · rw [Schema.Typable, hoptions, List.forall_mem_append, List.forall_mem_singleton]
      exact ⟨ht, ho⟩
    · exact Schema.parse_of_prefix (hoptions ▸ List.prefix_append s.options [o]) hparsable
  · refine Schema.parse_of_prefix ?_ parsable_buildSchema_standard hp
    rw [options_configureLogging, registered_buildSchema]
    exact List.prefix_append LoggingOption.all BuildOption.all
  · have hdistinct := (Schema.registered_registerAll .empty LoggingSource.standard.options).distinct
    have hknown := (Schema.conforms_of_parse_ofBytes hdistinct (by decide +kernel) hp).known
    obtain ⟨c, hc⟩ := Conversion.exists_result_iff (t := t).2
      (not_broken_of_logging (options_configureLogging ▸ hknown))
    obtain ⟨usage?, l, -, hl, rfl⟩ := Conversion.result_eq_ok_iff.1 hc
    exact ⟨_, hc, by rw [hl, Conversion.logging_applied]⟩

/-- A later option takes neither the letter nor the beginning of a cluster nor a long name
    away from the one before it, and all options leave a quiet conversion quiet. -/
theorem parse_extended_quiet :
    (Schema.ofOptions [LoggingOption.quiet]).Typable ∧
    (∃ s', (Schema.ofOptions [LoggingOption.quiet]).register
        { id := "quietly", long? := some "qq", arity := .multiple } = .ok s' ∧
      s'.parse ((["-qq", "--quiet", "--", "--qq"].map (·.toUTF8.data.toList)).map .ofBytes)
        = .ok (.build [.option "q", .extra ["--qq"]])) ∧
    (buildSchema .standard).parse ((["-qd", "build"].map (·.toUTF8.data.toList)).map .ofBytes)
      = .ok (.build [.option "q", .option "d", .extra ["build"]]) ∧
    ∃ c, (Conversion.convertWith .standard
        (.build [.option "q", .option "d", .extra ["build"]]) {}).result = .ok c ∧
      c.logLevel = .debug := by
  obtain ⟨hone, hall⟩ := parse_extended
  obtain ⟨hparse, hconvert⟩ := hall (["-qd", "build"].map (·.toUTF8.data.toList))
    (.build [.option "q", .option "d", .extra ["build"]]) (by decide +kernel)
  obtain ⟨c, hc, hlogging⟩ := hconvert {}
  have hregister : (Schema.ofOptions [LoggingOption.quiet]).register
      { id := "quietly", long? := some "qq", arity := .multiple } = .ok _ := rfl
  have hquiet : (Schema.ofOptions [LoggingOption.quiet]).parse
      ((["-qq", "--quiet", "--", "--qq"].map (·.toUTF8.data.toList)).map .ofBytes)
        = .ok (.build [.option "q", .extra ["--qq"]]) := by decide +kernel
  have ht : (Schema.ofOptions [LoggingOption.quiet]).Typable := by decide
  obtain ⟨hparsable, hmore⟩ := hone _ _ _ (Schema.registered_ofOptions _) hregister
  have hlevel : LogLevel.debug = c.logLevel :=
    congrArg LoggingSettings.level (Except.ok.inj hlogging)
  exact ⟨ht, ⟨_, hregister, hmore (hparsable ht (by decide)) _ _ hquiet⟩, hparse, c, hc,
    hlevel.symm⟩

end LaunchConfig
