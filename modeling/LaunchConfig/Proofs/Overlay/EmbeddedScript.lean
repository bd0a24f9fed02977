import LaunchConfig.Overlay
import LaunchConfig.Proofs.Conversion.Effect

/-!
# An embedded script and the files of a build

An embedded script is the whole build: it clears the build file and the settings file
and ends the search in parent directories, and one command line cannot ask for both. But
a later command line that names a file is not checked against the script that an earlier
step has set. So after a run a script and a file stand together exactly if a step has
named a file, a step before it has embedded a script, and none after it has.

Results:

* `apply_of_embeds`, `apply_of_namesFile`, `apply_of_neither`: what one step does;
* `Traced.run`: what a whole run has done;
* `exclusive_run_iff`: when an embedded script stands alone after a run.
-/

namespace LaunchConfig

namespace Configuration

/-- There is no build file and no settings file. -/
def WithoutFiles (c : Configuration) : Prop := c.buildFile = none ∧ c.settingsFile = none

instance (c : Configuration) : Decidable c.WithoutFiles := by
  unfold WithoutFiles
  infer_instance

/-- With an embedded script there is no build or settings file, and no search for one. -/
def Exclusive (c : Configuration) : Prop :=
  c.embeddedScript.isSome = true → c.buildFile = none ∧ c.settingsFile = none ∧
    c.searchUpwards = false

instance (c : Configuration) : Decidable c.Exclusive := by
  unfold Exclusive
  infer_instance

end Configuration

namespace OverlayStep

/-- What a step does about the script and the files of a build. -/
inductive Effect where
  | embeds
  | namesFile
  | neither
  deriving DecidableEq, Repr

/-- The effect of a command line that is converted. -/
def Effect.ofCommandLine (p : CommandLine) : Effect :=
  if (p.value? "e").isSome then .embeds
  else if (p.value? "b").isSome || (p.value? "c").isSome then .namesFile
  else .neither

/-- The effect of a step on the configuration. A step that fails has none. -/
def effect (c : Configuration) : OverlayStep → Effect
  | useEmbeddedScript _ => .embeds
  | addInitScript _ => .neither
  | convert source p =>
    match (Conversion.convertWith source p c).result with
    | .error _ => .neither
    | .ok _ => .ofCommandLine p

/-- The effects of the steps of a run, in order. -/
def effects (c : Configuration) : List OverlayStep → List Effect
  | [] => []
  | s :: steps => s.effect c :: effects (apply c s) steps

variable {p : CommandLine} {c : Configuration} {s : OverlayStep} {fx : List Effect}

/-! ## One step -/

theorem Effect.ofCommandLine_eq_embeds_iff :
    Effect.ofCommandLine p = .embeds ↔ (p.value? "e").isSome = true := by
  unfold Effect.ofCommandLine
  cases p.value? "e" <;> cases p.value? "b" <;> cases p.value? "c" <;> simp

theorem Effect.ofCommandLine_eq_namesFile_iff :
    Effect.ofCommandLine p = .namesFile ↔
      p.value? "e" = none ∧ ¬ (p.value? "b" = none ∧ p.value? "c" = none) := by
  unfold Effect.ofCommandLine
  cases p.value? "e" <;> cases p.value? "b" <;> cases p.value? "c" <;> simp

theorem Effect.ofCommandLine_eq_neither_iff :
    Effect.ofCommandLine p = .neither ↔
      p.value? "e" = none ∧ p.value? "b" = none ∧ p.value? "c" = none := by
  unfold Effect.ofCommandLine
  cases p.value? "e" <;> cases p.value? "b" <;> cases p.value? "c" <;> simp

/-- A conversion changes nothing, or else it applies its command line. -/
theorem convert_cases (source : LoggingSource) (p : CommandLine) (c : Configuration) :
    (convert source p).effect c = .neither ∧ apply c (convert source p) = c ∨
      (convert source p).effect c = .ofCommandLine p ∧
        ∃ usage? l, apply c (convert source p) = Conversion.applied p usage? l c := by
  cases h : (Conversion.convertWith source p c).result with
  | error e =>
    left
    refine ⟨?_, apply_of_error h⟩
    rw [effect, h]
  | ok c' =>
    right
    obtain ⟨usage?, l, -, -, rfl⟩ := Conversion.result_eq_ok_iff.1 h
    refine ⟨?_, usage?, l, apply_of_ok h⟩
    rw [effect, h]

/-- Without an embedded script of its own a command line keeps the one that there is, and
    the files but for those it names. -/
theorem applied_of_value?_eq_none (he : p.value? "e" = none) (usage? : Option CacheUsage)
    (l : LoggingSettings) (c : Configuration) :
    (Conversion.applied p usage? l c).embeddedScript = c.embeddedScript ∧
      (Conversion.applied p usage? l c).buildFile = ((p.value? "b").map .ofString).or c.buildFile ∧
      (Conversion.applied p usage? l c).settingsFile
        = ((p.value? "c").map .ofString).or c.settingsFile ∧
      (c.searchUpwards = false → (Conversion.applied p usage? l c).searchUpwards = false) := by
  have he' : p.value? BuildOption.embeddedScript.id = none := he
  have hbuild := Conversion.pathOr_eq p BuildOption.buildFile c.buildFile
  have hsettings := Conversion.pathOr_eq p BuildOption.settingsFile c.settingsFile
  rw [Conversion.applied_eq]
  refine ⟨?_, ?_, ?_, fun hsearch => ?_⟩
  · rw [he', Option.none_or]
  · rw [he', Option.isSome_none, if_neg Bool.false_ne_true]
    exact hbuild
  · rw [he', Option.isSome_none, if_neg Bool.false_ne_true]
    exact hsettings
  · rw [he', Option.isSome_none, if_neg Bool.false_ne_true, hsearch, Bool.false_and]

theorem apply_of_embeds (h : s.effect c = .embeds) :
    (apply c s).embeddedScript.isSome = true ∧ (apply c s).WithoutFiles ∧
      (apply c s).searchUpwards = false := by
  cases s with
  | useEmbeddedScript script => exact ⟨rfl, ⟨rfl, rfl⟩, rfl⟩
  | addInitScript script => cases h
  | convert source p =>
    rcases convert_cases source p c with ⟨hneither, -⟩ | ⟨heffect, usage?, l, happly⟩
    · cases hneither.symm.trans h
    · have he : (p.value? BuildOption.embeddedScript.id).isSome = true :=
        Effect.ofCommandLine_eq_embeds_iff.1 (heffect.symm.trans h)
      rw [happly, Conversion.applied_eq]
      simp [Configuration.WithoutFiles, he]

theorem apply_of_namesFile (h : s.effect c = .namesFile) :
    (apply c s).embeddedScript = c.embeddedScript ∧ ¬ (apply c s).WithoutFiles ∧
      (c.searchUpwards = false → (apply c s).searchUpwards = false) := by
  cases s with
  | useEmbeddedScript script => cases h
  | addInitScript script => cases h
  | convert source p =>
    rcases convert_cases source p c with ⟨hneither, -⟩ | ⟨heffect, usage?, l, happly⟩
    · cases hneither.symm.trans h
    · obtain ⟨he, hfile⟩ := Effect.ofCommandLine_eq_namesFile_iff.1 (heffect.symm.trans h)
      obtain ⟨hscript, hbuild, hsettings, hsearch⟩ := applied_of_value?_eq_none he usage? l c
      rw [happly]
      refine ⟨hscript, fun hno => hfile ?_, hsearch⟩
      rw [Configuration.WithoutFiles, hbuild, hsettings, Option.or_eq_none_iff,
        Option.or_eq_none_iff, Option.map_eq_none_iff, Option.map_eq_none_iff] at hno
      exact ⟨hno.1.1, hno.2.1⟩

theorem apply_of_neither (h : s.effect c = .neither) :
    (apply c s).embeddedScript = c.embeddedScript ∧
      ((apply c s).WithoutFiles ↔ c.WithoutFiles) ∧
      (c.searchUpwards = false → (apply c s).searchUpwards = false) := by
  cases s with
  | useEmbeddedScript script => cases h
  | addInitScript script => exact ⟨rfl, Iff.rfl, id⟩
  | convert source p =>
    rcases convert_cases source p c with ⟨-, happly⟩ | ⟨heffect, usage?, l, happly⟩
    · rw [happly]
      exact ⟨rfl, Iff.rfl, id⟩
    · obtain ⟨he, hb, hc⟩ := Effect.ofCommandLine_eq_neither_iff.1 (heffect.symm.trans h)
      obtain ⟨hscript, hbuild, hsettings, hsearch⟩ := applied_of_value?_eq_none he usage? l c
      rw [happly, Configuration.WithoutFiles, hbuild, hsettings, hb, hc]
      exact ⟨hscript, Iff.rfl, hsearch⟩

/-! ## A whole run -/

/-- A file has been named, and no script has been embedded since. -/
def FileStands (fx : List Effect) : Prop :=
  ∃ before after, fx = before ++ .namesFile :: after ∧ .embeds ∉ after

theorem fileStands_concat_iff {x : Effect} :
    FileStands (fx ++ [x]) ↔ x = .namesFile ∨ x ≠ .embeds ∧ FileStands fx := by
  constructor
  · rintro ⟨before, after, hfx, hnone⟩
    rcases List.eq_nil_or_concat after with rfl | ⟨after, y, rfl⟩
    · left
      exact List.singleton_inj.1 (List.append_inj_right' hfx rfl)
    · right
      have hfx : fx ++ [x] = (before ++ .namesFile :: after) ++ [y] := by
        rw [hfx, List.concat_eq_append, List.append_assoc, List.cons_append]
      obtain ⟨hinit, hlast⟩ := List.append_inj' hfx rfl
      obtain rfl := List.singleton_inj.1 hlast
      rw [List.concat_eq_append, List.mem_append, List.mem_singleton, not_or] at hnone
      exact ⟨Ne.symm hnone.2, before, after, hinit, hnone.1⟩
  · rintro (rfl | ⟨hx, before, after, rfl, hnone⟩)
    · exact ⟨fx, [], rfl, List.not_mem_nil⟩
    · refine ⟨before, after ++ [x], by rw [List.append_assoc, List.cons_append], ?_⟩
      rw [List.mem_append, List.mem_singleton, not_or]
      exact ⟨hnone, Ne.symm hx⟩

/-- What the effects of a run say about the configuration that it leaves. -/
structure Traced (fx : List Effect) (c : Configuration) : Prop where
  embedded : c.embeddedScript.isSome = true ↔ .embeds ∈ fx
  files : ¬ c.WithoutFiles ↔ FileStands fx
  upwards : c.embeddedScript.isSome = true → c.searchUpwards = false

theorem traced_default : Traced [] {} where
  embedded := by simp
  files := by simp [Configuration.WithoutFiles, FileStands]
  upwards := nofun

/-- A step that embeds no script keeps the one that there is. -/
theorem Traced.keep (h : Traced fx c) {c' : Configuration} {x : Effect} (hx : x ≠ .embeds)
    (hscript : c'.embeddedScript = c.embeddedScript)
    (hfiles : ¬ c'.WithoutFiles ↔ FileStands (fx ++ [x]))
    (hsearch : c.searchUpwards = false → c'.searchUpwards = false) : Traced (fx ++ [x]) c' where
  embedded := by
    rw [hscript, h.embedded, List.mem_append, List.mem_singleton, or_iff_left (Ne.symm hx)]
  files := hfiles
  upwards he := hsearch (h.upwards (hscript ▸ he))

theorem Traced.concat (h : Traced fx c) (s : OverlayStep) :
    Traced (fx ++ [s.effect c]) (apply c s) := by
  cases hs : s.effect c with
  | embeds =>
    obtain ⟨hscript, hno, hsearch⟩ := apply_of_embeds hs
    refine ⟨?_, ?_, fun _ => hsearch⟩
    · simp [hscript]
    · simp [fileStands_concat_iff, hno]
  | namesFile =>
    obtain ⟨hscript, hfile, hsearch⟩ := apply_of_namesFile hs
    refine h.keep nofun hscript ?_ hsearch
    simp [fileStands_concat_iff, hfile]
  | neither =>
    obtain ⟨hscript, hfile, hsearch⟩ := apply_of_neither hs
    refine h.keep nofun hscript ?_ hsearch
    simp [fileStands_concat_iff, hfile, h.files]

theorem Traced.run (h : Traced fx c) (steps : List OverlayStep) :
    Traced (fx ++ effects c steps) (OverlayStep.run c steps) := by
  induction steps generalizing fx c with
  | nil => simpa [effects] using h
  | cons s steps ih =>
    have h' := ih (h.concat s)
    rwa [List.append_assoc] at h'

/-! ## Where an embedded script stands alone -/

/-- **When an embedded script excludes the files.** After a run from the default
    configuration an embedded script always ends the search in parent directories. It
    stands there without a build file and a settings file unless, in the course of the
    run, a step has named a file after a script had been embedded, and no script has been
    embedded since. -/
theorem exclusive_run_iff (steps : List OverlayStep) :
    ((OverlayStep.run {} steps).embeddedScript.isSome = true →
      (OverlayStep.run {} steps).searchUpwards = false) ∧
    ((OverlayStep.run {} steps).Exclusive ↔
      ¬ ∃ before after, effects {} steps = before ++ .namesFile :: after ∧
        .embeds ∈ before ∧ .embeds ∉ after) := by
  have htraced : Traced (effects {} steps) (OverlayStep.run {} steps) := traced_default.run steps
  refine ⟨htraced.upwards, ?_⟩
  constructor
  · rintro hex ⟨before, after, hfx, hbefore, hafter⟩
    have hscript : (OverlayStep.run {} steps).embeddedScript.isSome = true := by
      rw [htraced.embedded, hfx, List.mem_append]
      exact .inl hbefore
    obtain ⟨hbuild, hsettings, -⟩ := hex hscript
    exact htraced.files.2 ⟨before, after, hfx, hafter⟩ ⟨hbuild, hsettings⟩
  · intro hno hscript
    have hembeds : .embeds ∈ effects {} steps := htraced.embedded.1 hscript
    have hfiles : (OverlayStep.run {} steps).WithoutFiles := by
      refine Decidable.not_not.1 fun hfiles => hno ?_
      obtain ⟨before, after, hfx, hafter⟩ := htraced.files.1 hfiles
      refine ⟨before, after, hfx, ?_, hafter⟩
      rw [hfx, List.mem_append, List.mem_cons] at hembeds
      rcases hembeds with hbefore | hnames | hlater
      · exact hbefore
      · cases hnames
      · exact absurd hlater hafter
    exact ⟨hfiles.1, hfiles.2, htraced.upwards hscript⟩

/-- A build file named after an embedded script stands beside it. -/
theorem not_exclusive_embedded_then_buildFile :
    ¬ (OverlayStep.run {}
      [.convert .standard (CommandLine.empty.withValues "e" ["task hello"]),
        .convert .standard (CommandLine.empty.withValues "b" ["build.gradle"])]).Exclusive := by
  decide +kernel

end OverlayStep
end LaunchConfig
