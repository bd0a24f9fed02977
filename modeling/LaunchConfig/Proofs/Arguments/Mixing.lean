import LaunchConfig.Conversion.Build
import LaunchConfig.Proofs.Arguments.Pieces
import Mathlib.Data.List.TakeWhile

/-!
# Options among positional arguments

Options may stand before, after and between positional arguments, and in any order. The pieces
of a command line may change places as long as the occurrences of each option stay in order, and
so do the positional arguments with the first occurrences of the options that ask for a task.
What is read then stays the same, unless an option that is left without its value comes to
stand right before a positional argument and takes it.

Results:

* `Occurrence.extras_eq_marks`: the extra arguments depend on the positional arguments and on
  the options that ask for a task only;
* `Schema.parse_rearranged_iff`: when another order of the pieces is read as the same;
* `parse_mixed_iff`: so it is for the options of a build, and what follows for conversions.
-/

namespace LaunchConfig

variable {s : Schema} {os : List OptionSpec}

/-! ## Occurrences in another order -/

namespace Occurrence

variable {us vs : List Occurrence} {p : CommandLine}

/-- Does an option with this id occur? -/
def names (id : String) (u : Occurrence) : Bool := u.option?.any fun o => o.id = id

/-- A positional argument, or one of the options `os` that is not given before. -/
def marked (os : List OptionSpec) (before : List Occurrence) (u : Occurrence) : Bool :=
  u.option?.all fun o => o ∈ os && !before.any (gives o)

/-- The positional arguments and the first occurrences of `os` after `before`. -/
def marksAfter (os : List OptionSpec) (before : List Occurrence) :
    List Occurrence → List Occurrence
  | [] => []
  | u :: us => (if u.marked os before then [u] else []) ++ marksAfter os (before ++ [u]) us

/-- The positional arguments and the first occurrences of the options `os`. -/
def marks (os : List OptionSpec) (us : List Occurrence) : List Occurrence := marksAfter os [] us

theorem extra_eq_marked (before : List Occurrence) {u : Occurrence}
    (htask : ∀ o, u.option? = some o → o.task? ≠ none → o ∈ os) :
    u.extra before = if u.marked os before then u.extra [] else [] := by
  cases u with
  | positional t => rfl
  | bare o => simp [extra]
  | flag o | valued o v =>
    cases htask' : o.task? with
    | none => simp [extra, htask']
    | some t =>
      have ho : o ∈ os := htask o rfl (by simp [htask'])
      cases h : before.any (gives o) <;> simp [extra, marked, option?, htask', ho, h]

theorem extrasAfter_eq_marks (before : List Occurrence)
    (htask : ∀ u ∈ us, ∀ o, u.option? = some o → o.task? ≠ none → o ∈ os) :
    extrasAfter before us = (marksAfter os before us).flatMap (extra []) := by
  induction us generalizing before with
  | nil => rfl
  | cons u us ih =>
    rw [List.forall_mem_cons] at htask
    rw [extrasAfter, marksAfter, List.flatMap_append, ← ih (before ++ [u]) htask.2,
      extra_eq_marked before htask.1]
    cases u.marked os before <;> simp

/-- The extra arguments depend on the positional arguments and on the first occurrences of the
    options that ask for a task. -/
theorem extras_eq_marks (htask : ∀ u ∈ us, ∀ o, u.option? = some o → o.task? ≠ none → o ∈ os) :
    extras us = (marks os us).flatMap (extra []) :=
  extrasAfter_eq_marks [] htask

theorem filterMap_filter_names (us : List Occurrence) (id : String) :
    (us.filter (names id)).filterMap (valueFor? id) = us.filterMap (valueFor? id) := by
  rw [List.filterMap_filter]
  refine List.filterMap_congr fun u _ => ?_
  cases u with
  | positional t | flag o | bare o => simp [valueFor?]
  | valued o v => by_cases h : o.id = id <;> simp [valueFor?, names, option?, h]

theorem Admissible.perm (h : Admissible us) (hperm : us.Perm vs) : Admissible vs where
  once o ho := by
    rw [← hperm.countP_eq]
    exact h.once o ho
  supplied o ho := by
    obtain ⟨v, hv⟩ := h.supplied o (hperm.mem_iff.2 ho)
    exact ⟨v, hperm.mem_iff.1 hv⟩

end Occurrence

/-! ## Pieces in another order -/

open Occurrence (Admissible Reads names marks)

namespace Piece

variable {ps qs : List Piece} {p : CommandLine}

/-- The pieces are in another order, but those of each option in the same, and the positional
    arguments and the first of each of the options `os` too. -/
structure Rearranges (os : List OptionSpec) (ps qs : List Piece) : Prop where
  perm : ps.Perm qs
  option_eq (id : String) :
    (ps.map meaning).filter (names id) = (qs.map meaning).filter (names id)
  marks_eq : marks os (ps.map meaning) = marks os (qs.map meaning)

theorem Rearranges.perm_meaning (h : Rearranges os ps qs) :
    (ps.map meaning).Perm (qs.map meaning) :=
  h.perm.map meaning

theorem Rearranges.filterMap_eq (h : Rearranges os ps qs) (id : String) :
    (qs.map meaning).filterMap (Occurrence.valueFor? id)
      = (ps.map meaning).filterMap (Occurrence.valueFor? id) := by
  rw [← Occurrence.filterMap_filter_names, ← h.option_eq id, Occurrence.filterMap_filter_names]

/-- In another order pieces come to the same command line. -/
theorem Rearranges.reads (h : Rearranges os ps qs)
    (htask : ∀ u ∈ ps.map meaning, ∀ o, u.option? = some o → o.task? ≠ none → o ∈ os)
    {trailing : List String} (hp : Reads (ps.map meaning ++ trailing.map .positional) p) :
    Reads (qs.map meaning ++ trailing.map .positional) p where
  has_iff id := by
    rw [hp.has_iff]
    simp only [List.mem_append, h.perm_meaning.mem_iff]
  values_eq id := by
    rw [hp.values_eq, List.filterMap_append, List.filterMap_append, h.filterMap_eq]
  extra_eq := by
    have htask' : ∀ u ∈ qs.map meaning, ∀ o, u.option? = some o → o.task? ≠ none → o ∈ os :=
      fun u hu => htask u (h.perm_meaning.mem_iff.2 hu)
    have hextras : Occurrence.extras (ps.map meaning) = Occurrence.extras (qs.map meaning) := by
      rw [Occurrence.extras_eq_marks htask, Occurrence.extras_eq_marks htask', h.marks_eq]
    rw [hp.extra_eq, Occurrence.extras, Occurrence.extras, Occurrence.extrasAfter_append,
      Occurrence.extrasAfter_append, Occurrence.extrasAfter_positional,
      Occurrence.extrasAfter_positional]
    exact congrArg (· ++ trailing) hextras

end Piece

/-! ## Reading -/

open Piece (Rearranges Swallows join)
open BuildOption (dryRun initScript tasks)

theorem exists_escape (ts : List String) :
    ∃ before rest, ts = before ++ rest ∧ "--" ∉ before ∧ ∀ t ∈ rest.head?, t = "--" := by
  refine ⟨ts.takeWhile (· ≠ "--"), ts.dropWhile (· ≠ "--"), List.takeWhile_append_dropWhile.symm,
    fun h => ?_, fun t ht => ?_⟩
  · simpa using List.mem_takeWhile_imp h
  · have hnot := List.head?_dropWhile_not (· ≠ "--") ts
    rw [ht] at hnot
    simpa using hnot

theorem exists_splits_escape {rest : List String} (hrest : ∀ t ∈ rest.head?, t = "--") :
    ∃ trailing : List String, Splits s rest (trailing.map .positional) := by
  cases rest with
  | nil => exact ⟨[], .nil⟩
  | cons t ts =>
    obtain rfl : t = "--" := hrest t rfl
    exact ⟨ts, .escape ts⟩

theorem not_isPlain_escape {rest : List String} (hrest : ∀ t ∈ rest.head?, t = "--") :
    ∀ t ∈ rest.head?, ¬ Token.IsPlain (.ofString t) := by
  intro t ht
  rw [hrest t ht]
  decide

/-- The pieces of arguments that are accepted are read as the same in another order, unless an
    option that is left without its value comes to stand right before a positional argument. -/
theorem Schema.parse_rearranged_iff (hs : s.Distinct) (ht : s.Typable)
    (htask : ∀ o ∈ s.options, o.task? ≠ none → o ∈ os) {ts rest : List String} {p : CommandLine}
    (h : s.parse ((ts ++ rest).map .ofString) = .ok p) (hrest : ∀ t ∈ rest.head?, t = "--")
    {ps qs : List Piece} (hps : Cuts s ts ps) (hescape : "--" ∉ ts) (hqs : Rearranges os ps qs) :
    s.parse ((join qs ++ rest).map .ofString) = .ok p ↔ ¬ Swallows qs := by
  have hend := not_isPlain_escape hrest
  obtain ⟨trailing, htrailing⟩ := exists_splits_escape (s := s) hrest
  obtain ⟨us, hsplits, hadm, hreads⟩ := (parse_ofString_eq_ok_iff hs ht).1 h
  obtain rfl : ps.map Piece.meaning ++ trailing.map .positional = us :=
    (hps.splits.append hescape htrailing fun _ _ => hend).unique hs ht hsplits
  have hof : ∀ q ∈ qs, q.Of s := fun q hq => hps.forall_of ht q (hqs.perm.mem_iff.2 hq)
  have hjoin := Piece.splits_join hof htrailing hend
  have htask' : ∀ u ∈ ps.map Piece.meaning, ∀ o, u.option? = some o → o.task? ≠ none → o ∈ os :=
    fun u hu o ho => htask o ((hsplits.of u (List.mem_append_left _ hu)).mem_options ho)
  have hreads' := hqs.reads htask' hreads
  constructor
  · intro hp hswallows
    obtain ⟨vs, hvs, -, hreads''⟩ := (parse_ofString_eq_ok_iff hs ht).1 hp
    obtain rfl := hjoin.unique hs ht hvs
    -- the option that takes an argument has more values than before
    obtain ⟨id, hlt⟩ := hswallows.exists_length_values_lt
    have hvalues := (hreads''.values_eq id).symm.trans (hreads'.values_eq id)
    rw [List.filterMap_append, List.filterMap_append] at hvalues
    rw [List.append_cancel_right hvalues] at hlt
    exact Nat.lt_irrefl _ hlt
  · intro hswallows
    rw [Piece.said_of_not_swallows hswallows] at hjoin
    exact (parse_ofString_eq_ok_iff hs ht).2
      ⟨_, hjoin, hadm.perm (hqs.perm_meaning.append_right _), hreads'⟩

/-- The arguments are UTF-8 and are cut into the pieces up to the end of the options, from which
    on they are `rest`. -/
def Schema.CutsInto (s : Schema) (args : List (List UInt8)) (ps : List Piece)
    (rest : List String) : Prop :=
  ∃ ts : List String, args = (ts ++ rest).map (·.toUTF8.data.toList) ∧ "--" ∉ ts ∧
    (∀ t ∈ rest.head?, t = "--") ∧ Cuts s ts ps

/-- What is accepted can be cut into pieces. -/
theorem Schema.exists_cutsInto_of_parse (hs : s.Distinct) (ht : s.Typable)
    {args : List (List UInt8)} {p : CommandLine} (h : s.parse (args.map .ofBytes) = .ok p) :
    ∃ ps rest, s.CutsInto args ps rest := by
  obtain ⟨all, us, rfl, hsplits, -, -⟩ := exists_splits_of_parse hs ht h
  obtain ⟨ts, rest, rfl, hescape, hrest⟩ := exists_escape all
  obtain ⟨vs, -, -, hvs, -⟩ := hsplits.exists_of_append hescape (not_isPlain_escape hrest)
  obtain ⟨ps, hps, -⟩ := hvs.exists_cuts ht hescape
  exact ⟨ps, rest, ts, rfl, hescape, hrest, hps⟩

/-- **Options may be mixed with positional arguments and with each other.** Arguments that the
    options of a build accept can be cut into pieces up to the end of the options. The pieces in
    another order, in which those of each option and the sequence of the positional arguments
    and the first occurrences of the deprecated flags stay as they are, are read as the same
    command line exactly unless an option that is left without its value comes to stand right
    before a positional argument. And then they are converted alike, whatever is converted
    onto. -/
theorem parse_mixed_iff {args : List (List UInt8)} {p : CommandLine}
    (h : (buildSchema .standard).parse (args.map .ofBytes) = .ok p) :
    (∃ ps rest, (buildSchema .standard).CutsInto args ps rest) ∧
    ∀ ps rest qs, (buildSchema .standard).CutsInto args ps rest →
      Rearranges BuildOption.aliases ps qs →
      ((buildSchema .standard).parse
          (((join qs ++ rest).map (·.toUTF8.data.toList)).map .ofBytes) = .ok p ↔
        ¬ Swallows qs) ∧
      (¬ Swallows qs → ∀ c,
        ((buildSchema .standard).parse
            (((join qs ++ rest).map (·.toUTF8.data.toList)).map .ofBytes)).map
          (Conversion.convertWith .standard · c)
        = ((buildSchema .standard).parse (args.map .ofBytes)).map
          (Conversion.convertWith .standard · c)) := by
  have hs := registered_buildSchema_standard.distinct
  have ht := typable_buildSchema_standard
  have htask : ∀ o ∈ (buildSchema .standard).options, o.task? ≠ none →
      o ∈ BuildOption.aliases := by
    rw [registered_buildSchema]
    decide
  have hstring (ts : List String) :
      (ts.map (·.toUTF8.data.toList)).map RawText.ofBytes = ts.map .ofString :=
    RawText.map_ofBytes_eq_iff.2 rfl
  refine ⟨Schema.exists_cutsInto_of_parse hs ht h, ?_⟩
  rintro ps rest qs ⟨ts, rfl, hescape, hrest, hps⟩ hqs
  rw [hstring] at h ⊢
  have hiff := Schema.parse_rearranged_iff hs ht htask h hrest hps hescape hqs
  refine ⟨hiff, fun hswallows c => ?_⟩
  rw [hstring, h, hiff.2 hswallows]

theorem mem_options_of_mem_all {o : OptionSpec} (ho : o ∈ BuildOption.all) :
    o ∈ (buildSchema .standard).options := by
  rw [registered_buildSchema]
  exact List.mem_append_right _ ho

theorem spells_initScript : Spells (buildSchema .standard) "-I" [] (some initScript) :=
  .letters (List.cons_ne_nil 'I' []) (.opened (mem_options_of_mem_all (by decide)) rfl rfl)

theorem spells_tasks : Spells (buildSchema .standard) "-t" [.flag tasks] none :=
  .letters (List.cons_ne_nil 't' []) (.flag (mem_options_of_mem_all (by decide)) rfl rfl .nil)

theorem cuts_dryRun_initScript :
    Cuts (buildSchema .standard) ["-mI", "x", "build", "-t"]
      [⟨["-m"], .flag dryRun⟩, ⟨["-I", "x"], .valued initScript "x"⟩,
        ⟨["build"], .positional "build"⟩, ⟨["-t"], .flag tasks⟩] := by
  have ht := typable_buildSchema_standard
  have hm : dryRun ∈ (buildSchema .standard).options := mem_options_of_mem_all (by decide)
  have hlast : Cuts (buildSchema .standard) ["build", "-t"]
      [⟨["build"], .positional "build"⟩, ⟨["-t"], .flag tasks⟩] :=
    .positional (by decide) (.named ht spells_tasks .nil)
  exact .letter hm rfl rfl (by decide) (.detached ht spells_initScript (by decide) hlast)

/-- Letters that share an argument are parted, a value moves along with its option, and the
    task of a deprecated flag stays behind the one that is named before it. -/
theorem parse_mixed_cluster :
    (buildSchema .standard).parse
        ((["-mI", "x", "build", "-t", "--", "-m"].map (·.toUTF8.data.toList)).map .ofBytes)
      = .ok (((((∅ : CommandLine).withOption "m").withValues "I" ["x"]).withOption "t").withExtra
          ["build", "tasks", "-m"]) ∧
    Rearranges BuildOption.aliases
      [⟨["-m"], .flag dryRun⟩, ⟨["-I", "x"], .valued initScript "x"⟩,
        ⟨["build"], .positional "build"⟩, ⟨["-t"], .flag tasks⟩]
      [⟨["build"], .positional "build"⟩, ⟨["-I", "x"], .valued initScript "x"⟩,
        ⟨["-t"], .flag tasks⟩, ⟨["-m"], .flag dryRun⟩] ∧
    (buildSchema .standard).parse
        ((["build", "-I", "x", "-t", "-m", "--", "-m"].map (·.toUTF8.data.toList)).map .ofBytes)
      = .ok (((((∅ : CommandLine).withOption "m").withValues "I" ["x"]).withOption "t").withExtra
          ["build", "tasks", "-m"]) := by
  have h : (buildSchema .standard).parse
        ((["-mI", "x", "build", "-t", "--", "-m"].map (·.toUTF8.data.toList)).map .ofBytes)
      = .ok (((((∅ : CommandLine).withOption "m").withValues "I" ["x"]).withOption "t").withExtra
          ["build", "tasks", "-m"]) := by
    decide +kernel
  have hqs : Rearranges BuildOption.aliases
      [⟨["-m"], .flag dryRun⟩, ⟨["-I", "x"], .valued initScript "x"⟩,
        ⟨["build"], .positional "build"⟩, ⟨["-t"], .flag tasks⟩]
      [⟨["build"], .positional "build"⟩, ⟨["-I", "x"], .valued initScript "x"⟩,
        ⟨["-t"], .flag tasks⟩, ⟨["-m"], .flag dryRun⟩] := by
    refine ⟨by decide, fun id => ?_, by decide⟩
    by_cases hm : dryRun.id = id
    · subst hm
      decide
    · simp [List.filter_cons, names, Occurrence.option?, hm]
  have hcut : (buildSchema .standard).CutsInto
      (["-mI", "x", "build", "-t", "--", "-m"].map (·.toUTF8.data.toList)) _ ["--", "-m"] :=
    ⟨_, rfl, by decide, by decide, cuts_dryRun_initScript⟩
  refine ⟨h, hqs, ((parse_mixed_iff h).2 _ _ _ hcut hqs).1.2 ?_⟩
  rintro ⟨o, t, hinfix⟩
  have hbare := hinfix.subset List.mem_cons_self
  simp at hbare

/-- An option that is left without its value may not be moved freely: of `build -I x -I` the
    last piece comes to stand before `build` in `-I x -I build`, and takes it. -/
theorem not_parse_mixed_initScript :
    (buildSchema .standard).parse
        ((["build", "-I", "x", "-I"].map (·.toUTF8.data.toList)).map .ofBytes)
      = .ok (((∅ : CommandLine).withValues "I" ["x"]).withExtra ["build"]) ∧
    (buildSchema .standard).CutsInto (["build", "-I", "x", "-I"].map (·.toUTF8.data.toList))
      [⟨["build"], .positional "build"⟩, ⟨["-I", "x"], .valued initScript "x"⟩,
        ⟨["-I"], .bare initScript⟩] [] ∧
    Rearranges BuildOption.aliases
      [⟨["build"], .positional "build"⟩, ⟨["-I", "x"], .valued initScript "x"⟩,
        ⟨["-I"], .bare initScript⟩]
      [⟨["-I", "x"], .valued initScript "x"⟩, ⟨["-I"], .bare initScript⟩,
        ⟨["build"], .positional "build"⟩] ∧
    (buildSchema .standard).parse
        ((["-I", "x", "-I", "build"].map (·.toUTF8.data.toList)).map .ofBytes)
      = .ok ((∅ : CommandLine).withValues "I" ["x", "build"]) ∧
    ((∅ : CommandLine).withValues "I" ["x", "build"])
      ≠ ((∅ : CommandLine).withValues "I" ["x"]).withExtra ["build"] := by
  have ht := typable_buildSchema_standard
  have hcut : Cuts (buildSchema .standard) ["build", "-I", "x", "-I"]
      [⟨["build"], .positional "build"⟩, ⟨["-I", "x"], .valued initScript "x"⟩,
        ⟨["-I"], .bare initScript⟩] :=
    .positional (by decide)
      (.detached ht spells_initScript (by decide) (.bare ht spells_initScript nofun .nil))
  refine ⟨by decide +kernel, ⟨_, rfl, by decide, nofun, hcut⟩, ⟨by decide, fun id => ?_, by decide⟩,
    by decide +kernel, by decide⟩
  simp [List.filter_cons, names, Occurrence.option?]

end LaunchConfig
