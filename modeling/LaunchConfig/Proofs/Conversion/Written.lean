import LaunchConfig.Proofs.Conversion.Effect

/-!
# Which fields a command line writes

Most fields are replaced: a command line has another value for them, whatever they hold, or
none, and then they stay. Properties and init scripts are merged into what is there. A table
says which options write a field, some by being present and others only with a value. An
embedded script writes more fields than its own.

Results:

* `Field.effect_eq_getD`: a field that is not merged is replaced or stays;
* `Field.isSome_replacement?_iff`: it is replaced exactly if it is written;
* `Field.effect_of_not_written`: what is not written stays.
-/

namespace LaunchConfig

theorem CommandLine.isSome_value? (p : CommandLine) (id : String) :
    (p.value? id).isSome = decide (p.values id ≠ []) := by
  rw [Bool.eq_iff_iff, value?, List.getLast?_isSome, decide_eq_true_eq]

theorem isSome_requestedLevel? (p : CommandLine) :
    (requestedLevel? p).isSome = (p.has "q" || p.has "i" || p.has "d") := by
  unfold requestedLevel?
  cases hq : p.has "q" <;> cases hi : p.has "i" <;> cases hd : p.has "d" <;>
    simp [LoggingOption.levels, LoggingOption.quiet, LoggingOption.info, LoggingOption.debug,
      LogLevel.mostVerbose?, hq, hi, hd]

namespace Field

variable {f : Field} {p : CommandLine}

/-! ## Fields that are replaced -/

/-- The fields that the command line adds to. -/
def merged : List Field := [systemProperties, projectProperties, initScripts]

/-- What the command line puts in the place of the old value of a field that is not merged. -/
def replacement? (p : CommandLine) : (f : Field) → Option f.Value
  | logLevel => requestedLevel? p
  | colorOutput => if p.has "no-color" then some false else none
  | systemProperties | projectProperties | initScripts => none
  | searchUpwards => if (p.value? "e").isSome || p.has "u" then some false else none
  | projectDir => (p.value? "p").map fun dir => some (.ofString dir)
  | userHomeDir => (p.value? "g").map fun dir => some (.ofString dir)
  | buildFile =>
    if (p.value? "e").isSome then some none
    else (p.value? "b").map fun file => some (.ofString file)
  | settingsFile =>
    if (p.value? "e").isSome then some none
    else (p.value? "c").map fun file => some (.ofString file)
  | cacheUsage => (p.value? "C").bind CacheUsage.ofText?
  | embeddedScript => (p.value? "e").map some
  | showStacktrace =>
    if p.has "S" then some .alwaysFull else if p.has "s" then some .always else none
  | projectDependencies =>
    if p.has "a" then some .skip else if p.has "A" then some (.tasks (p.values "A")) else none
  | taskNames => if p.extra.isEmpty then none else some p.extra
  | excludedTaskNames => if p.has "x" then some (p.values "x") else none
  | dryRun => if p.has "m" then some true else none
  | noOpt => if p.has "no-opt" then some true else none
  | profile => if p.has "profile" then some true else none

/-- A field that is not merged is replaced, or stays. -/
theorem effect_eq_getD (hf : f ∉ merged) (old : f.Value) :
    f.effect p old = (f.replacement? p).getD old := by
  cases f with
  | systemProperties | projectProperties | initScripts => exact absurd (by decide) hf
  | logLevel | cacheUsage => rfl
  | colorOutput | dryRun | noOpt | profile =>
    simp only [effect, replacement?]
    split <;> simp [*]
  | searchUpwards =>
    simp only [effect, replacement?]
    cases p.value? "e" <;> cases p.has "u" <;> simp
  | projectDir | userHomeDir | embeddedScript =>
    simp only [effect, replacement?]
    cases p.value? _ <;> rfl
  | buildFile =>
    simp only [effect, replacement?]
    cases p.value? "e" <;> cases p.value? "b" <;> rfl
  | settingsFile =>
    simp only [effect, replacement?]
    cases p.value? "e" <;> cases p.value? "c" <;> rfl
  | showStacktrace =>
    simp only [effect, replacement?]
    cases p.has "S" <;> cases p.has "s" <;> rfl
  | projectDependencies =>
    simp only [effect, replacement?]
    cases p.has "a" <;> cases p.has "A" <;> rfl
  | taskNames =>
    simp only [effect, replacement?]
    cases p.extra.isEmpty <;> rfl
  | excludedTaskNames =>
    simp only [effect, replacement?]
    cases p.has "x" <;> rfl

/-! ## Fields that are written -/

/-- The options that write the field by being present. -/
def flags : Field → List String
  | logLevel => ["q", "i", "d"]
  | colorOutput => ["no-color"]
  | searchUpwards => ["u"]
  | showStacktrace => ["S", "s"]
  | projectDependencies => ["A", "a"]
  | excludedTaskNames => ["x"]
  | dryRun => ["m"]
  | noOpt => ["no-opt"]
  | profile => ["profile"]
  | _ => []

/-- The options that write the field if they have a value. -/
def valued : Field → List String
  | systemProperties => ["D"]
  | projectProperties => ["P"]
  | searchUpwards => ["e"]
  | projectDir => ["p"]
  | userHomeDir => ["g"]
  | buildFile => ["b", "e"]
  | settingsFile => ["c", "e"]
  | initScripts => ["I"]
  | cacheUsage => ["C"]
  | embeddedScript => ["e"]
  | _ => []

/-- The command line writes the field. -/
inductive Written (p : CommandLine) (f : Field) : Prop
  | flag {id : String} : id ∈ f.flags → p.has id = true → Written p f
  | value {id : String} : id ∈ f.valued → p.values id ≠ [] → Written p f
  | tasks : f = .taskNames → p.extra ≠ [] → Written p f

theorem written_iff : f.Written p ↔
    (∃ id ∈ f.flags, p.has id = true) ∨ (∃ id ∈ f.valued, p.values id ≠ []) ∨
      f = .taskNames ∧ p.extra ≠ [] := by
  constructor
  · rintro (⟨hid, hhas⟩ | ⟨hid, hvalues⟩ | ⟨hf, hextra⟩)
    · exact .inl ⟨_, hid, hhas⟩
    · exact .inr (.inl ⟨_, hid, hvalues⟩)
    · exact .inr (.inr ⟨hf, hextra⟩)
  · rintro (⟨_, hid, hhas⟩ | ⟨_, hid, hvalues⟩ | ⟨hf, hextra⟩)
    · exact .flag hid hhas
    · exact .value hid hvalues
    · exact .tasks hf hextra

instance : Decidable (f.Written p) := decidable_of_iff _ written_iff.symm

/-- The fields that are replaced are those that are written, if they are not merged. The cache
    is left out: a value that names no way to use it replaces nothing. -/
theorem isSome_replacement?_iff (hmerged : f ∉ merged) (hcache : f ≠ .cacheUsage) :
    (f.replacement? p).isSome = true ↔ f.Written p := by
  rw [written_iff]
  cases f with
  | systemProperties | projectProperties | initScripts => exact absurd (by decide) hmerged
  | cacheUsage => exact absurd rfl hcache
  | logLevel => simp [replacement?, flags, valued, isSome_requestedLevel?, or_assoc]
  | colorOutput | dryRun | noOpt | profile | excludedTaskNames =>
    simp [replacement?, flags, valued]
  | searchUpwards => simp [replacement?, flags, valued, CommandLine.isSome_value?, or_comm]
  | projectDir | userHomeDir | embeddedScript =>
    simp [replacement?, flags, valued, CommandLine.isSome_value?]
  | buildFile | settingsFile =>
    by_cases he : p.values "e" = [] <;>
      simp [replacement?, flags, valued, CommandLine.isSome_value?, he]
  | showStacktrace =>
    cases hS : p.has "S" <;> simp [replacement?, flags, valued, hS]
  | projectDependencies =>
    cases ha : p.has "a" <;> simp [replacement?, flags, valued, ha]
  | taskNames => simp [replacement?, flags, valued]

section NotWritten

variable (h : ¬ f.Written p)

include h

theorem values_of_not_written (id : String) (hid : id ∈ f.valued) : p.values id = [] :=
  Decidable.not_not.1 fun hne => h (.value hid hne)

theorem replacement?_of_not_written (hmerged : f ∉ merged) : f.replacement? p = none := by
  by_cases hcache : f = .cacheUsage
  · subst hcache
    rw [replacement?, CommandLine.value?, values_of_not_written h "C" List.mem_cons_self]
    rfl
  · rwa [← isSome_replacement?_iff hmerged hcache, Option.not_isSome_iff_eq_none] at h

/-- A field that is not written stays. -/
theorem effect_of_not_written (old : f.Value) : f.effect p old = old := by
  by_cases hmerged : f ∈ merged
  · have hvalues := values_of_not_written h
    cases f with
    | systemProperties | projectProperties | initScripts =>
      simp [effect, hvalues _ List.mem_cons_self]
    | _ => exact absurd hmerged (by decide)
  · rw [effect_eq_getD hmerged, replacement?_of_not_written h hmerged, Option.getD_none]

end NotWritten

end Field
end LaunchConfig
