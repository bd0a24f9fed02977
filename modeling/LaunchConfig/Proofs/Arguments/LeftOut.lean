import LaunchConfig.Proofs.Arguments.Acceptance
import LaunchConfig.Proofs.Text.Utf8

/-!
# Values that are left out

By the grammar every occurrence of an option that takes a value comes with one. The
parser asks for less: an option that takes any number of values may also occur
without one, as long as it has a value elsewhere. Such an occurrence is dropped, so
that `-I -I x` is read as `-I x`. This is the only respect in which the parser goes
beyond the grammar.

Results:

* `Schema.parse_eq_ok_iff_divides`: what is accepted, as what, and when that goes
  beyond the grammar;
* `parse_initScript_bare`: it does for `-I -I x`.
-/

namespace LaunchConfig

/-! ## Occurrences without a value -/

namespace Occurrence

variable {s : Schema} {us vs : List Occurrence} {o : OptionSpec}

/-- Each option that takes a value has one wherever it occurs. -/
def Complete (us : List Occurrence) : Prop := ∀ o, .bare o ∉ us

/-- A value is left out, but only of options that take any number of values and have
    one elsewhere. -/
structure LeftOut (us : List Occurrence) : Prop where
  bare : ∃ o, .bare o ∈ us
  elsewhere (o : OptionSpec) : .bare o ∈ us → o.arity = .multiple ∧ ∃ v, .valued o v ∈ us

theorem LeftOut.not_complete (h : LeftOut us) : ¬ Complete us := by
  obtain ⟨o, ho⟩ := h.bare
  exact fun hc => hc o ho

theorem two_le_countP {v : String} (hbare : .bare o ∈ us) (hvalued : .valued o v ∈ us) :
    2 ≤ us.countP (·.option? = some o) := by
  obtain ⟨before, after, rfl⟩ := List.append_of_mem hbare
  have hone : .valued o v ∈ before ++ after := by
    simpa using hvalued
  have hpos : 0 < (before ++ after).countP (·.option? = some o) :=
    List.countP_pos_iff.2 ⟨_, hone, decide_eq_true rfl⟩
  have hbare : (bare o).option? = some o := rfl
  rw [List.countP_append] at hpos
  rw [List.countP_append, List.countP_cons_of_pos (by rw [hbare]; exact decide_eq_true rfl)]
  omega

theorem Admissible.arity_of_bare (h : Admissible us) (hus : ∀ u ∈ us, u.Of s)
    (ho : .bare o ∈ us) : o.arity = .multiple := by
  obtain ⟨v, hv⟩ := h.supplied o ho
  have htwo := two_le_countP ho hv
  have htakes : o.takesValue = true := (hus _ ho).2
  cases ha : o.arity with
  | flag => simp [OptionSpec.takesValue, ha] at htakes
  | single =>
    have := h.once o ha
    omega
  | multiple => rfl

/-- A value may be left out where an option takes any number of values. -/
theorem admissible_iff (hus : ∀ u ∈ us, u.Of s) :
    Admissible us ↔ Once us ∧ (Complete us ∨ LeftOut us) := by
  constructor
  · intro h
    refine ⟨h.once, or_iff_not_imp_left.2 fun hc => ⟨?_, fun o ho =>
      ⟨h.arity_of_bare hus ho, h.supplied o ho⟩⟩⟩
    unfold Complete at hc
    push Not at hc
    exact hc
  · rintro ⟨honce, hc | hl⟩
    · exact ⟨honce, fun o ho => absurd ho (hc o)⟩
    · exact ⟨honce, fun o ho => (hl.elsewhere o ho).2⟩

/-- An item that says what occurs. -/
def item : Occurrence → Item
  | positional t => .positional (.ofString t)
  | flag o => .flag o
  | valued o v => .attached o (.ofString v)
  | bare o => .bare o

@[simp] theorem occurrence_item (u : Occurrence) : u.item.occurrence = u := by
  cases u <;> simp [item, Item.occurrence]

theorem exists_reads (hs : s.Distinct) (hus : ∀ u ∈ us, u.Of s) : ∃ p, Reads us p := by
  have hmap : (us.map item).map Item.occurrence = us := by
    rw [List.map_map]
    exact List.map_id'' occurrence_item us
  have hitems : ∀ i ∈ us.map item, i.occurrence.Of s := by simpa using hus
  have h := reads_ofItems hs hitems
  rw [hmap] at h
  exact ⟨_, h⟩

end Occurrence

/-! ## Readings of arguments -/

open Occurrence (Once Complete LeftOut Reads)
open BuildOption (initScript)

namespace Schema

variable {s : Schema} {args : List (List UInt8)} {us vs : List Occurrence}

/-- The arguments are UTF-8 and split into the occurrences, with no option of a single
    value among them twice. -/
def Divides (s : Schema) (args : List (List UInt8)) (us : List Occurrence) : Prop :=
  ∃ ts : List String, args = ts.map (·.toUTF8.data.toList) ∧ Splits s ts us ∧ Once us

theorem Divides.of (h : s.Divides args us) : ∀ u ∈ us, u.Of s := by
  obtain ⟨ts, -, hsplit, -⟩ := h
  exact hsplit.of

/-- Arguments split in one way at most. -/
theorem Divides.unique (hs : s.Distinct) (ht : s.Typable) (h : s.Divides args us)
    (h' : s.Divides args vs) : us = vs := by
  obtain ⟨ts, hts, hsplit, -⟩ := h
  obtain ⟨ts', hts', hsplit', -⟩ := h'
  rw [← RawText.map_ofBytes_eq_iff] at hts hts'
  have hmap : ts.map RawText.ofString = ts'.map RawText.ofString := hts.symm.trans hts'
  obtain rfl : ts = ts' := List.map_injective_iff.2 (fun _ _ => RawText.ofString_inj.1) hmap
  exact hsplit.unique hs ht hsplit'

theorem parse_ofBytes_eq_ok_iff (hs : s.Distinct) (ht : s.Typable) {p : CommandLine} :
    s.parse (args.map .ofBytes) = .ok p ↔
      ∃ us, s.Divides args us ∧ (Complete us ∨ LeftOut us) ∧ Reads us p := by
  have hp : ∀ a ∈ args.map RawText.ofBytes, a.Proper := by
    rw [List.forall_mem_map]
    exact fun a _ => RawText.proper_ofBytes a
  rw [Schema.parse, Grammar.parse_eq_ok_iff_splits hs ht hp]
  constructor
  · rintro ⟨ts, us, hts, hsplit, hadm, hreads⟩
    obtain ⟨honce, hleft⟩ := (Occurrence.admissible_iff hsplit.of).1 hadm
    exact ⟨us, ⟨ts, RawText.map_ofBytes_eq_iff.1 hts, hsplit, honce⟩, hleft, hreads⟩
  · rintro ⟨us, ⟨ts, hts, hsplit, honce⟩, hleft, hreads⟩
    exact ⟨ts, us, RawText.map_ofBytes_eq_iff.2 hts, hsplit,
      (Occurrence.admissible_iff hsplit.of).2 ⟨honce, hleft⟩, hreads⟩

end Schema

/-! ## What is accepted -/

/-- **What the parser accepts.** In a schema reached by registration, whose names can be
    typed, arguments are accepted exactly if they are UTF-8 and split, with no option of a
    single value occurring twice, into occurrences that are complete or leave out a value
    in the one way that is tolerated; and what they are accepted as is what the occurrences
    come to. So the arguments are taken as the grammar has it unless they split into
    occurrences that leave out a value in that way. -/
theorem Schema.parse_eq_ok_iff_divides {s : Schema} (hs : s.Registered) (ht : s.Typable)
    (args : List (List UInt8)) :
    (∀ p, s.parse (args.map .ofBytes) = .ok p ↔
      ∃ us, s.Divides args us ∧ (Complete us ∨ LeftOut us) ∧ Reads us p) ∧
    ((∃ p, s.parse (args.map .ofBytes) = .ok p) ↔
      ∃ us, s.Divides args us ∧ (Complete us ∨ LeftOut us)) ∧
    ((∀ p, s.parse (args.map .ofBytes) = .ok p ↔
        ∃ us, s.Divides args us ∧ Complete us ∧ Reads us p) ↔
      ¬ ∃ us, s.Divides args us ∧ LeftOut us) := by
  have hd : s.Distinct := hs.distinct
  have hok (p : CommandLine) : s.parse (args.map .ofBytes) = .ok p ↔
      ∃ us, s.Divides args us ∧ (Complete us ∨ LeftOut us) ∧ Reads us p :=
    Schema.parse_ofBytes_eq_ok_iff hd ht
  refine ⟨hok, ?_, ?_⟩
  · constructor
    · rintro ⟨p, hp⟩
      obtain ⟨us, hus, hleft, -⟩ := (hok p).1 hp
      exact ⟨us, hus, hleft⟩
    · rintro ⟨us, hus, hleft⟩
      obtain ⟨p, hp⟩ := Occurrence.exists_reads hd hus.of
      exact ⟨p, (hok p).2 ⟨us, hus, hleft, hp⟩⟩
  · constructor
    · rintro hcomplete ⟨us, hus, hleft⟩
      obtain ⟨p, hp⟩ := Occurrence.exists_reads hd hus.of
      obtain ⟨vs, hvs, hc, -⟩ := (hcomplete p).1 ((hok p).2 ⟨us, hus, .inr hleft, hp⟩)
      obtain rfl := hus.unique hd ht hvs
      exact hleft.not_complete hc
    · intro hnone p
      rw [hok]
      constructor
      · rintro ⟨us, hus, hc | hl, hp⟩
        · exact ⟨us, hus, hc, hp⟩
        · exact absurd ⟨us, hus, hl⟩ hnone
      · rintro ⟨us, hus, hc, hp⟩
        exact ⟨us, hus, .inl hc, hp⟩

/-- Flags and a value in one argument, a task, a deprecated flag, and an argument after
    the end of the options. -/
theorem divides_cluster_escape :
    (buildSchema .standard).Registered ∧ (buildSchema .standard).Typable ∧
      ∃ us, (buildSchema .standard).Divides
          (["-mqIx", "build", "-t", "--", "-I"].map (·.toUTF8.data.toList)) us ∧
        (Complete us ∨ LeftOut us) ∧
        Reads us (((((∅ : CommandLine).withOption "m").withOption "q").withValues "I" ["x"]
          |>.withOption "t").withExtra ["build", "tasks", "-I"]) := by
  refine ⟨registered_buildSchema_standard, typable_buildSchema_standard, ?_⟩
  have h := Schema.parse_eq_ok_iff_divides registered_buildSchema_standard
    typable_buildSchema_standard (["-mqIx", "build", "-t", "--", "-I"].map (·.toUTF8.data.toList))
  exact (h.1 _).1 (by decide +kernel)

theorem divides_initScript_bare :
    (buildSchema .standard).Divides (["-I", "-I", "x"].map (·.toUTF8.data.toList))
      [.bare initScript, .valued initScript "x"] := by
  have hI : initScript ∈ (buildSchema .standard).options := by decide +kernel
  have hcluster : Cluster (buildSchema .standard) ['I'] [] (some initScript) := .opened hI rfl rfl
  have hspells : Spells (buildSchema .standard) "-I" [] (some initScript) :=
    .letters (by simp) hcluster
  have hlast : Splits (buildSchema .standard) ["-I", "x"] ([] ++ [.valued initScript "x"]) :=
    .detached hspells (by decide) .nil
  have hhead : ∀ v ∈ ["-I", "x"].head?, ¬ Token.IsPlain (.ofString v) := by
    rintro v ⟨⟩
    decide
  have hall : Splits (buildSchema .standard) ["-I", "-I", "x"]
      ([] ++ .bare initScript :: ([] ++ [.valued initScript "x"])) := .bare hspells hhead hlast
  refine ⟨["-I", "-I", "x"], rfl, hall, fun o ho => ?_⟩
  have hne : initScript ≠ o := by
    rintro rfl
    cases ho
  simp [Occurrence.option?, hne]

/-- A value that is left out is tolerated: `-I -I x` is accepted as `-I x`, though the
    first `-I` has no value. -/
theorem parse_initScript_bare :
    (buildSchema .standard).parse ((["-I", "-I", "x"].map (·.toUTF8.data.toList)).map .ofBytes)
        = .ok ((∅ : CommandLine).withValues "I" ["x"]) ∧
      ¬ ∃ us, (buildSchema .standard).Divides (["-I", "-I", "x"].map (·.toUTF8.data.toList)) us ∧
        Complete us := by
  refine ⟨by decide +kernel, ?_⟩
  rintro ⟨us, hus, hc⟩
  obtain rfl := hus.unique registered_buildSchema_standard.distinct typable_buildSchema_standard
    divides_initScript_bare
  exact hc initScript (by simp)

end LaunchConfig
