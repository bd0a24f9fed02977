import LaunchConfig.Proofs.Launcher.Output

/-!
# Errors on one line

The error with which a run ends is meant to stand on one line, with all its causes. All that is
said of itself does; but what is wrong with a value of `-C` is said by repeating the value as it
was given, and a value may hold line breaks. Of a working directory that is unknown the cause is
repeated as the system gives it.

Results:

* `ConversionError.mem_message_iff`: the error of a rule holds the line breaks of the value
  that it repeats, and no others;
* `launch_error_lineBreak_iff`: when the error of a run takes more than one line;
* `launch_error_two_lines`: an error that does.
-/

namespace LaunchConfig

/-- The characters that end a line. -/
def lineBreaks : List Char :=
  ['\n', '\u000B', '\u000C', '\r', '\u0085', '\u2028', '\u2029']

/-- No character of the text ends a line. -/
def OnOneLine (text : String) : Prop := ∀ c ∈ lineBreaks, c ∉ text.toList

instance (text : String) : Decidable (OnOneLine text) :=
  decidable_of_iff (lineBreaks.all fun c => decide (c ∉ text.toList)) (by simp [OnOneLine])

/-- The last value of `-C` does not name a way of using the cache. -/
def CommandLine.MisusesCache (p : CommandLine) (v : String) : Prop :=
  (p.values "C").getLast? = some v ∧ sameUpToCase "on" v = false ∧
    sameUpToCase "rebuild" v = false

theorem CommandLine.MisusesCache.validate {p : CommandLine} {v : String} (h : p.MisusesCache v) :
    Conversion.validate p
      = .error (.invalidValue "C" v (CacheUsage.unknownMessage v)) := by
  obtain ⟨hlast, hon, hrebuild⟩ := h
  rw [Conversion.validate_eq_error_iff]
  exact ⟨[], .cacheUsage, [.embeddedScript, .stacktrace, .dependencies], rfl,
    fun q hq => absurd hq List.not_mem_nil, .cacheUsage hlast hon hrebuild⟩

/-! ## The text of an error -/

theorem ConversionError.message_invalidCache (v : String) :
    (invalidValue "C" v (CacheUsage.unknownMessage v)).message
      = "invalid value for -C: unknown cache usage '" ++ v
        ++ "', valid values are: 'rebuild', 'on'" := by
  have hlabel : "invalid value for " ++ optionLabel "C" ++ ": " ++ "unknown cache usage '"
      = "invalid value for -C: unknown cache usage '" := by decide +kernel
  have hvalues : "', valid values are: "
      ++ ", ".intercalate (CacheUsage.all.map fun u => "'" ++ u.name ++ "'")
      = "', valid values are: 'rebuild', 'on'" := by decide +kernel
  unfold message CacheUsage.unknownMessage
  rw [← hlabel, ← hvalues]
  simp only [String.append_assoc]

theorem ConversionError.mem_message_invalidCache_iff {c : Char} (hc : c ∈ lineBreaks)
    (v : String) :
    c ∈ (invalidValue "C" v (CacheUsage.unknownMessage v)).message.toList ↔ c ∈ v.toList := by
  have hbefore : OnOneLine "invalid value for -C: unknown cache usage '" := by decide
  have hafter : OnOneLine "', valid values are: 'rebuild', 'on'" := by decide
  rw [message_invalidCache, String.toList_append, String.toList_append, List.mem_append,
    List.mem_append, or_iff_left (hafter c hc), or_iff_right (hbefore c hc)]

/-- The error of a rule holds the line breaks of a value of `-C` that breaks the first rule,
    and no others. -/
theorem ConversionError.mem_message_iff {p : CommandLine} {e : ConversionError}
    (h : Conversion.validate p = .error e) {c : Char} (hc : c ∈ lineBreaks) :
    c ∈ e.message.toList ↔ ∃ v, p.MisusesCache v ∧ c ∈ v.toList := by
  constructor
  · intro hmem
    obtain ⟨-, r, -, -, -, hr⟩ := Conversion.validate_eq_error_iff.1 h
    cases hr with
    | @cacheUsage v hlast hon hrebuild =>
      exact ⟨v, ⟨hlast, hon, hrebuild⟩, (mem_message_invalidCache_iff hc v).1 hmem⟩
    | @embeddedScript x _ hx =>
      -- the options that exclude each other are named, and their names are known
      have hline : ∀ x ∈ ["b", "c", "u"], OnOneLine (conflictingOptions "e" x).message := by decide
      exact absurd hmem (hline x (List.mem_of_find?_eq_some hx) c hc)
    | stacktrace =>
      have hline : OnOneLine (conflictingOptions "S" "s").message := by decide
      exact absurd hmem (hline c hc)
    | dependencies =>
      have hline : OnOneLine (conflictingOptions "A" "a").message := by decide
      exact absurd hmem (hline c hc)
  · rintro ⟨v, hv, hmem⟩
    rw [Except.error.inj (h.symm.trans hv.validate)]
    exact (mem_message_invalidCache_iff hc v).2 hmem

/-! ## The error of a run -/

/-- The text from outside that the error of a run repeats: the cause for which the working
    directory is unknown, or else a value of `-C` that is misused. -/
inductive Launch.Repeats (p : CommandLine) : WorkingDirectory → String → Prop
  | cause (cause : String) : Repeats p (.unknown cause) cause
  | value {path : RawText} {v : String} : p.MisusesCache v → Repeats p (.known path) v

namespace Launch

variable {p : CommandLine} {c : Char}

@[simp] theorem repeats_known_iff {path : RawText} {t : String} :
    Repeats p (.known path) t ↔ p.MisusesCache t :=
  ⟨fun h => by cases h with | value hv => exact hv, .value⟩

@[simp] theorem repeats_unknown_iff {cause t : String} :
    Repeats p (.unknown cause) t ↔ t = cause :=
  ⟨fun h => by cases h with | cause => rfl, fun h => h ▸ .cause t⟩

/-- What is reported of a command line that cannot be converted, or whose configuration
    cannot be printed. -/
theorem error?_ofCommandLine {seed : Configuration} (h : (ofCommandLine p seed).exitCode = 1) :
    ∃ text, (ofCommandLine p seed).error? = some ("Error: " ++ Failure.message ⟨text, []⟩) ∧
      ((∃ e, Conversion.validate p = .error e ∧ text = e.message) ∨
        (∃ usage?, Conversion.validate p = .ok usage?) ∧ text = invalidPathMessage) := by
  cases hv : Conversion.validate p with
  | error e =>
    refine ⟨e.message, ?_, .inl ⟨e, rfl, rfl⟩⟩
    rw [ofCommandLine, Conversion.convertWith_of_invalid hv]
    rfl
  | ok usage? =>
    have hok := Conversion.convertWith_of_ok hv (LoggingSource.convert_standard p seed.logging)
    refine ⟨invalidPathMessage, ?_, .inr ⟨⟨usage?, rfl⟩, rfl⟩⟩
    rw [ofCommandLine, hok] at h ⊢
    dsimp only at h ⊢
    split at h
    · cases h
    · rfl

theorem mem_error_iff {text : String}
    (h : (∃ e, Conversion.validate p = .error e ∧ text = e.message) ∨
      (∃ usage?, Conversion.validate p = .ok usage?) ∧ text = invalidPathMessage)
    (hc : c ∈ lineBreaks) (path : RawText) :
    c ∈ text.toList ↔ ∃ t, Repeats p (.known path) t ∧ c ∈ t.toList := by
  simp only [repeats_known_iff]
  rcases h with ⟨e, he, rfl⟩ | ⟨⟨usage?, husage⟩, rfl⟩
  · exact ConversionError.mem_message_iff he hc
  · have hline : OnOneLine invalidPathMessage := by decide
    refine ⟨fun hmem => absurd hmem (hline c hc), ?_⟩
    -- the checks would have failed
    rintro ⟨v, hmisuse, -⟩
    cases husage.symm.trans hmisuse.validate

/-- The cause comes last on the line, and before it there is no line break. -/
theorem mem_error_unknown_iff (hc : c ∈ lineBreaks) (cause : String) :
    c ∈ (Failure.message ⟨"failed to get current directory", [cause]⟩).toList
      ↔ ∃ t, Repeats p (.unknown cause) t ∧ c ∈ t.toList := by
  have hbefore : OnOneLine ("failed to get current directory" ++ ": ") := by decide
  rw [Failure.message_cons, Failure.message_of_text, String.toList_append, List.mem_append,
    or_iff_right (hbefore c hc)]
  simp only [repeats_unknown_iff, exists_eq_left]

end Launch

/-- **When the error of a run takes more than one line.** A run that exits with 1 has read a
    command line, and it reports one failure with its causes. Where the working directory is
    unknown that is the failure, whatever the command line says. The line breaks in the report
    are those of the cause for which the directory is unknown, or else those of the last value
    of `-C`, if this names no way of using the cache. There are no others. -/
theorem launch_error_lineBreak_iff (args : List (List UInt8)) (dir : WorkingDirectory)
    (vars : String → Option (List UInt8))
    (h : (launch (args.map .ofBytes) dir (.ofBytes vars)).exitCode = 1) :
    ∃ p f, Launch.grammar.parse (args.map .ofBytes) = .ok p ∧
      (launch (args.map .ofBytes) dir (.ofBytes vars)).error?
        = some ("Error: " ++ Failure.message f) ∧
      (∀ cause, dir = .unknown cause → f = ⟨"failed to get current directory", [cause]⟩) ∧
      ∀ c ∈ lineBreaks, c ∈ (Failure.message f).toList ↔
        ∃ t, Launch.Repeats p dir t ∧ c ∈ t.toList := by
  cases hp : Launch.grammar.parse (args.map .ofBytes) with
  | error halt =>
    rw [launch_of_usage hp] at h
    cases halt <;> cases h
  | ok p =>
    cases dir with
    | unknown cause =>
      rw [launch_of_unknown hp]
      refine ⟨p, _, rfl, rfl, ?_, fun c hc => Launch.mem_error_unknown_iff hc cause⟩
      rintro _ ⟨⟩
      rfl
    | known path =>
      rw [launch_of_parse hp] at h ⊢
      obtain ⟨text, herror, htext⟩ := Launch.error?_ofCommandLine h
      exact ⟨p, ⟨text, []⟩, rfl, herror, nofun, fun c hc => Launch.mem_error_iff htext hc path⟩

/-- A value of `-C` that is unknown is repeated with its carriage return; a flag that excludes
    another is reported on one line, whatever else is on the command line, and so is a working
    directory that has been removed. -/
theorem launch_error_lineBreak_cache :
    (launch ((["-C", "a\rb"].map (·.toUTF8.data.toList)).map .ofBytes)
      (.known (.ofString "/")) (.ofBytes fun _ => none)).exitCode = 1 ∧
    (∃ text, (launch ((["-C", "a\rb"].map (·.toUTF8.data.toList)).map .ofBytes)
        (.known (.ofString "/")) (.ofBytes fun _ => none)).error? = some ("Error: " ++ text) ∧
      '\r' ∈ text.toList) ∧
    (launch ((["-Ss", "-C=on", "a\nb"].map (·.toUTF8.data.toList)).map .ofBytes)
      (.known (.ofString "/")) (.ofBytes fun _ => none)).exitCode = 1 ∧
    (∃ text, (launch ((["-Ss", "-C=on", "a\nb"].map (·.toUTF8.data.toList)).map .ofBytes)
        (.known (.ofString "/")) (.ofBytes fun _ => none)).error? = some ("Error: " ++ text) ∧
      '\n' ∉ text.toList) ∧
    (launch ((["-C", "a\rb"].map (·.toUTF8.data.toList)).map .ofBytes)
      (.unknown "No such file or directory") (.ofBytes fun _ => none)).exitCode = 1 ∧
    ∃ text, (launch ((["-C", "a\rb"].map (·.toUTF8.data.toList)).map .ofBytes)
        (.unknown "No such file or directory") (.ofBytes fun _ => none)).error?
          = some ("Error: " ++ text) ∧ '\r' ∉ text.toList := by
  have hparse : Launch.grammar.parse ((["-C", "a\rb"].map (·.toUTF8.data.toList)).map .ofBytes)
      = .ok (.build [.values "C" ["a\rb"]]) := by decide +kernel
  have hparse' : Launch.grammar.parse
      ((["-Ss", "-C=on", "a\nb"].map (·.toUTF8.data.toList)).map .ofBytes)
      = .ok (.build [.option "S", .option "s", .values "C" ["on"], .extra ["a\nb"]]) := by
    decide +kernel
  have hcache : (launch ((["-C", "a\rb"].map (·.toUTF8.data.toList)).map .ofBytes)
      (.known (.ofString "/")) (.ofBytes fun _ => none)).exitCode = 1 := by
    rw [launch_of_parse hparse]
    rfl
  have hflags : (launch ((["-Ss", "-C=on", "a\nb"].map (·.toUTF8.data.toList)).map .ofBytes)
      (.known (.ofString "/")) (.ofBytes fun _ => none)).exitCode = 1 := by
    rw [launch_of_parse hparse']
    rfl
  have hremoved : (launch ((["-C", "a\rb"].map (·.toUTF8.data.toList)).map .ofBytes)
      (.unknown "No such file or directory") (.ofBytes fun _ => none)).exitCode = 1 := by
    rw [launch_of_unknown hparse]
    rfl
  refine ⟨hcache, ?_, hflags, ?_, hremoved, ?_⟩
  · obtain ⟨p, f, hp, herror, -, hmem⟩ := launch_error_lineBreak_iff _ _ _ hcache
    obtain rfl := Except.ok.inj (hparse.symm.trans hp)
    exact ⟨f.message, herror,
      (hmem '\r' (by decide)).2 ⟨"a\rb", .value ⟨rfl, rfl, rfl⟩, by decide⟩⟩
  · obtain ⟨p, f, hp, herror, -, hmem⟩ := launch_error_lineBreak_iff _ _ _ hflags
    obtain rfl := Except.ok.inj (hparse'.symm.trans hp)
    refine ⟨f.message, herror, fun hbreak => ?_⟩
    obtain ⟨v, _ | ⟨hlast, hon, -⟩, -⟩ := (hmem '\n' (by decide)).1 hbreak
    obtain rfl : "on" = v := Option.some.inj hlast
    cases hon
  · obtain ⟨p, f, -, herror, -, hmem⟩ := launch_error_lineBreak_iff _ _ _ hremoved
    refine ⟨f.message, herror, fun hbreak => ?_⟩
    obtain ⟨t, ⟨⟩, ht⟩ := (hmem '\r' (by decide)).1 hbreak
    exact absurd ht (by decide)

/-- The error about a value of `-C` with a line break takes two lines. -/
theorem launch_error_two_lines :
    (launchBytes (["-C", "x\ny"].map (·.toUTF8.data.toList)) "/".toUTF8.data.toList fun name =>
      if name = "HOME" then some "/h".toUTF8.data.toList else none).exitCode = 1 ∧
    (launchBytes (["-C", "x\ny"].map (·.toUTF8.data.toList)) "/".toUTF8.data.toList fun name =>
      if name = "HOME" then some "/h".toUTF8.data.toList else none).error?
      = some ("Error: invalid value for -C: unknown cache usage 'x\ny', "
        ++ "valid values are: 'rebuild', 'on'") := by
  have hparse : Launch.grammar.parse
      ((["-C", "x\ny"].map (·.toUTF8.data.toList)).map .ofBytes)
        = .ok (.build [.values "C" ["x\ny"]]) := by decide +kernel
  rw [launchBytes, launch_of_parse hparse]
  constructor <;> decide +kernel

end LaunchConfig
