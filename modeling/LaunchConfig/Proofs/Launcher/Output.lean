import LaunchConfig.Launcher.Launch
import LaunchConfig.Proofs.Arguments.Crashing
import LaunchConfig.Proofs.Arguments.Extension
import LaunchConfig.Proofs.Conversion.Attainable
import LaunchConfig.Proofs.Text.Concatenation

/-!
# What a run prints

A run prints the configuration that its arguments make of what the environment gives, or
it prints nothing. Arguments, directory and variables are lists of bytes here, as they
come from outside. What cannot be printed does no harm where the arguments put something
else in its place.

Results:

* `userHome?_ofBytes`: the user home directory that the variables give, byte by byte;
* `prints_ofCommandLine`: what is printed for a command line;
* `convertWith_of_dirs`: directories that the command line names hide those that were set;
* `launch_outcome`: how any run ends.
-/

namespace LaunchConfig

/-! ## The environment -/

/-- The variables as they come from outside. -/
def Environment.ofBytes (vars : String → Option (List UInt8)) : Environment :=
  fun name => (vars name).map .ofBytes

/-- The user home directory that the variables give: the one that is set, or else the entry
    `.gradle` of the home directory. A variable that is empty counts as not set. -/
inductive HomeDir (vars : String → Option (List UInt8)) : Option (List UInt8) → Prop
  | own {dir : List UInt8} : vars "GRADLE_USER_HOME" = some dir → dir ≠ [] →
      HomeDir vars (some dir)
  | entry {home : List UInt8} : (∀ dir, vars "GRADLE_USER_HOME" = some dir → dir = []) →
      vars "HOME" = some home → home ≠ [] →
      HomeDir vars (some (home ++ (if home.getLast? = some 0x2F then [] else [0x2F])
        ++ ".gradle".toUTF8.data.toList))
  | none : (∀ dir, vars "GRADLE_USER_HOME" = some dir → dir = []) →
      (∀ home, vars "HOME" = some home → home = []) → HomeDir vars none

namespace Environment

variable {vars : String → Option (List UInt8)} {name : String} {bytes : List UInt8}

theorem nonEmpty?_ofBytes_eq_some (h : vars name = some bytes) (hne : bytes ≠ []) :
    (ofBytes vars).nonEmpty? name = some (.ofBytes bytes) := by
  have hempty : (RawText.ofBytes bytes).isEmpty = false := by
    rw [← Bool.not_eq_true, RawText.isEmpty_ofBytes]
    exact hne
  simp [nonEmpty?, ofBytes, h, hempty]

theorem nonEmpty?_ofBytes_eq_none (h : ∀ bytes, vars name = some bytes → bytes = []) :
    (ofBytes vars).nonEmpty? name = none := by
  cases hv : vars name with
  | none => simp [nonEmpty?, ofBytes, hv]
  | some bytes =>
    obtain rfl := h bytes hv
    simp [nonEmpty?, ofBytes, hv, RawText.isEmpty_ofBytes]

theorem set_or_unset (vars : String → Option (List UInt8)) (name : String) :
    (∃ bytes, vars name = some bytes ∧ bytes ≠ []) ∨
      ∀ bytes, vars name = some bytes → bytes = [] := by
  by_cases h : ∃ bytes, vars name = some bytes ∧ bytes ≠ []
  · exact .inl h
  · exact .inr fun bytes hv => by_contra fun hne => h ⟨bytes, hv, hne⟩

theorem userHome?_ofBytes {dir? : Option (List UInt8)} (h : HomeDir vars dir?) :
    (ofBytes vars).userHome? = dir?.map .ofBytes := by
  cases h with
  | own hset hne => exact userHome?_of_override (nonEmpty?_ofBytes_eq_some hset hne)
  | entry hunset hhome hne =>
    rw [userHome?, userHomeVariable, nonEmpty?_ofBytes_eq_none hunset,
      nonEmpty?_ofBytes_eq_some hhome hne, Option.none_or, Option.map_some, Option.map_some,
      RawText.entry_ofBytes]
    rfl
  | none hunset hhome =>
    rw [userHome?, userHomeVariable, nonEmpty?_ofBytes_eq_none hunset,
      nonEmpty?_ofBytes_eq_none hhome]
    rfl

theorem exists_homeDir (vars : String → Option (List UInt8)) : ∃ dir?, HomeDir vars dir? := by
  rcases set_or_unset vars "GRADLE_USER_HOME" with ⟨dir, hset, hne⟩ | hunset
  · exact ⟨_, .own hset hne⟩
  rcases set_or_unset vars "HOME" with ⟨home, hhome, hne⟩ | hhome
  · exact ⟨_, .entry hunset hhome hne⟩
  · exact ⟨_, .none hunset hhome⟩

end Environment

/-! ## What is printed -/

/-- The run prints the configuration, or it reports one error. -/
structure Launch.Prints (p : CommandLine) (seed : Configuration) (l : Launch) : Prop where
  printed (c : Configuration) : (Conversion.convertWith .standard p seed).result = .ok c →
    c.DirsReadable → l.exitCode = 0 ∧ l.stdout = c.toJson.pretty ++ "\n" ∧ l.error? = none
  refused : (∀ c, (Conversion.convertWith .standard p seed).result = .ok c → ¬ c.DirsReadable) →
    l.exitCode = 1 ∧ l.stdout = "" ∧ ∃ text, l.error? = some ("Error: " ++ text)

theorem Launch.prints_ofCommandLine (p : CommandLine) (dir? home? : Option RawText) :
    Prints p (.ofDirs dir? home?) (.ofCommandLine p (.ofDirs dir? home?)) := by
  cases h : (Conversion.convertWith .standard p (.ofDirs dir? home?)).result with
  | error e =>
    refine ⟨fun c hc => ?_, fun _ => ?_⟩
    · rw [h] at hc
      cases hc
    · simp [ofCommandLine, ofFailure, h]
  | ok c =>
    have htextual := Conversion.textual_iff_of_result h
    by_cases hdirs : c.DirsReadable
    · have hprint : c.print? = some c.toJson.pretty := if_pos (htextual.2 hdirs)
      refine ⟨fun c' hc' _ => ?_, fun hall => absurd hdirs (hall c h)⟩
      obtain rfl := Except.ok.inj (h.symm.trans hc')
      simp [ofCommandLine, h, hprint]
    · have hprint : c.print? = none := if_neg fun ht => hdirs (htextual.1 ht)
      refine ⟨fun c' hc' hdirs' => ?_, fun _ => ?_⟩
      · obtain rfl := Except.ok.inj (h.symm.trans hc')
        exact absurd hdirs' hdirs
      · simp [ofCommandLine, ofFailure, h, hprint]

/-! ## Directories that the command line names -/

/-- Directories that the command line names hide those that were set. -/
theorem Conversion.convertWith_of_dirs {p : CommandLine} {v w : String}
    (hp : p.value? BuildOption.projectDir.id = some v)
    (hg : p.value? BuildOption.userHome.id = some w) (source : LoggingSource)
    (c : Configuration) (dir? home? : Option RawText) :
    convertWith source p { c with projectDir := dir?, userHomeDir := home? }
      = convertWith source p c := by
  have hpaths (l : LoggingSettings) :
      applyPaths p (withProperties p l { c with projectDir := dir?, userHomeDir := home? })
        = applyPaths p (withProperties p l c) := by
    simp only [applyPaths, pathOr, hp, hg, withProperties, applyProperties,
      Configuration.withLogging]
  simp only [convertWith, withDependencies, hpaths]
  rfl

theorem exists_value?_of_parse {s : Schema} (hs : s.Distinct) (ht : s.Typable)
    {args : List (List UInt8)} {p : CommandLine} (h : s.parse (args.map .ofBytes) = .ok p)
    {o : OptionSpec} (ho : o ∈ s.options) (hv : o.takesValue = true) (hhas : p.has o.id = true) :
    ∃ v, p.value? o.id = some v := by
  have hne := (Schema.conforms_of_parse_ofBytes hs ht h).valued o ho hv hhas
  exact ⟨_, List.getLast?_eq_some_getLast hne⟩

theorem Launch.parsable_grammar : grammar.schema.Parsable := by
  dsimp only [grammar]
  exact parsable_buildSchema_standard

/-- A schema that also answers to the version reads what it reads without. -/
theorem Schema.parse_of_version {s : Schema} {args : List RawText} {p : CommandLine}
    (h : Grammar.parse ⟨s, true⟩ args = .ok p) : s.parse args = .ok p :=
  have hwithin : Grammar.Within ⟨s, true⟩ ⟨s, false⟩ :=
    Grammar.within_of_prefix (List.prefix_refl _)
  have hs : s.Parsable := Grammar.parsable_of_parse h
  hwithin.parse hs h

/-- With both directories named the run is the same wherever it starts. -/
theorem Launch.ofCommandLine_of_dirs {args : List (List UInt8)} {p : CommandLine}
    (h : grammar.parse (args.map .ofBytes) = .ok p) (hp : p.has "p" = true)
    (hg : p.has "g" = true) (dir? home? dir'? home'? : Option RawText) :
    ofCommandLine p (.ofDirs dir? home?) = ofCommandLine p (.ofDirs dir'? home'?) := by
  have hvalue {o : OptionSpec} (ho : o ∈ buildOptions .standard) (hv : o.takesValue = true)
      (hhas : p.has o.id = true) : ∃ v, p.value? o.id = some v :=
    exists_value?_of_parse registered_buildSchema_standard.distinct typable_buildSchema_standard
      (Schema.parse_of_version h) (registered_buildSchema ▸ ho) hv hhas
  obtain ⟨v, hv⟩ := hvalue (o := BuildOption.projectDir) (by decide) rfl hp
  obtain ⟨w, hw⟩ := hvalue (o := BuildOption.userHome) (by decide) rfl hg
  have hall (dir? home? : Option RawText) :
      Conversion.convertWith .standard p (.ofDirs dir? home?)
        = Conversion.convertWith .standard p {} :=
    Conversion.convertWith_of_dirs hv hw .standard {} dir? home?
  simp only [ofCommandLine, hall]

/-! ## A whole run -/

/-- A run on what comes from outside. -/
def launchBytes (args : List (List UInt8)) (cwd : List UInt8)
    (vars : String → Option (List UInt8)) : Launch :=
  launch (args.map .ofBytes) (RawText.ofBytes cwd) (.ofBytes vars)

/-- **How a run ends.** If the arguments form a command line, the run prints the
    configuration that it makes of the working directory and the user home directory that
    the variables give, all of it and with exit code 0, or else it prints nothing, reports
    one error, and exits with 1; and if the command line names both directories, neither
    the working directory nor the variables make a difference. If the arguments form none
    and do not ask for help or the version, nothing is printed, and the run exits with 2
    and an error, except where reading crashes. -/
theorem launch_outcome (args : List (List UInt8)) (cwd : List UInt8)
    (vars : String → Option (List UInt8)) :
    (∀ p, Launch.grammar.parse (args.map .ofBytes) = .ok p →
      (∃ home?, HomeDir vars home? ∧
        Launch.Prints p (.ofDirs (some (.ofBytes cwd)) (home?.map .ofBytes))
          (launchBytes args cwd vars)) ∧
      (p.has "p" = true → p.has "g" = true →
        ∀ cwd' vars', launchBytes args cwd' vars' = launchBytes args cwd vars)) ∧
    ∀ halt, Launch.grammar.parse (args.map .ofBytes) = .error halt →
      halt ≠ .help → halt ≠ .version →
      (launchBytes args cwd vars).stdout = "" ∧
      (¬ Launch.grammar.Crashes (args.map .ofBytes) →
        (launchBytes args cwd vars).exitCode = 2 ∧
          ∃ text, (launchBytes args cwd vars).error? = some text) ∧
      (Launch.grammar.Crashes (args.map .ofBytes) →
        (launchBytes args cwd vars).exitCode = 101 ∧
          (launchBytes args cwd vars).error? = none) := by
  refine ⟨fun p hp => ⟨?_, fun hhasp hhasg cwd' vars' => ?_⟩, fun halt hhalt hhelp hversion => ?_⟩
  · obtain ⟨home?, hhome⟩ := Environment.exists_homeDir vars
    refine ⟨home?, hhome, ?_⟩
    have hseed : (Environment.ofBytes vars).seed (.ofBytes cwd)
        = .ofDirs (some (.ofBytes cwd)) (home?.map .ofBytes) := by
      rw [← Environment.userHome?_ofBytes hhome]
      rfl
    rw [launchBytes, launch_of_parse hp, hseed]
    exact Launch.prints_ofCommandLine p _ _
  · rw [launchBytes, launchBytes, launch_of_parse hp, launch_of_parse hp]
    exact Launch.ofCommandLine_of_dirs hp hhasp hhasg _ _ _ _
  · rw [launchBytes, launch_of_usage hhalt,
      ← Grammar.parse_eq_crash_iff Launch.parsable_grammar, hhalt]
    cases halt with
    | help => exact absurd rfl hhelp
    | version => exact absurd rfl hversion
    | usage e => exact ⟨rfl, fun _ => ⟨rfl, _, rfl⟩, nofun⟩
    | crash => exact ⟨rfl, fun h => absurd rfl h, fun _ => ⟨rfl, rfl⟩⟩

/-- In a working directory whose name is not UTF-8 the run fails, unless the command line
    names another one. -/
theorem launch_outcome_hidden_dir :
    (launchBytes [] [0xFF] fun _ => none).exitCode = 1 ∧
    (launchBytes (["-p", "/w"].map (·.toUTF8.data.toList)) [0xFF] fun _ => none).exitCode = 0 := by
  have hnone {home? : Option (List UInt8)} (h : HomeDir (fun _ => none) home?) : home? = none := by
    cases h with
    | own hset _ => cases hset
    | entry _ hhome _ => cases hhome
    | none _ _ => rfl
  constructor
  · obtain ⟨⟨home?, hhome, hprints⟩, -⟩ :=
      (launch_outcome [] [0xFF] fun _ => none).1 ∅ (by decide +kernel)
    obtain rfl := hnone hhome
    refine (hprints.refused fun c hc hdirs => ?_).1
    have hdir : c.projectDir = some (.ofBytes [0xFF]) := Field.get_of_result_eq_ok hc .projectDir
    exact absurd (hdirs.1 _ hdir) (by decide)
  · obtain ⟨⟨home?, hhome, hprints⟩, -⟩ :=
      (launch_outcome (["-p", "/w"].map (·.toUTF8.data.toList)) [0xFF] fun _ => none).1
        (.build [.values "p" ["/w"]]) (by decide +kernel)
    obtain rfl := hnone hhome
    exact (hprints.printed _ rfl ⟨by decide, by decide⟩).1

/-- An unknown long name before an argument that is not UTF-8 is an error of use, but no
    error is reported and the exit code is not 2. -/
theorem launch_crash :
    Launch.grammar.parse (["--nope".toUTF8.data.toList, [0xFF]].map .ofBytes) = .error .crash ∧
    (launchBytes ["--nope".toUTF8.data.toList, [0xFF]] "/".toUTF8.data.toList fun name =>
      if name = "HOME" then some "/h".toUTF8.data.toList else none).exitCode = 101 := by
  have hparse : Launch.grammar.parse
      (["--nope".toUTF8.data.toList, [0xFF]].map .ofBytes) = .error .crash := by decide +kernel
  refine ⟨hparse, ?_⟩
  rw [launchBytes, launch_of_usage hparse]
  rfl

end LaunchConfig
